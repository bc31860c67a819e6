import AegisForge.Shared.QueueMaintenance
import AegisForge.Shared.QueueLifecycle

/-!
# Claims below unfinished parents

`requeue_failed` asks for a finished parent with a stored result, while `claim`
lets a task that allows a failed parent pass whatever its parent is doing.  The
two agree where nothing is claimed between the commit that adds such a task below
a running one and the commit that stores the outcome of the running one.
-/

namespace AegisForge.Shared.TaskQueue

open AegisForge.Core AegisForge.Concurrency

/-! ## The parent of a claimed task -/

/-- The stored row of the parent. -/
def storedParent (tasks : TaskTable) (row : TaskRow) : Option TaskRow :=
  row.parentTaskId.bind tasks.lookup

/-- A stored parent allows the attempt in the sense of `requeue_failed`. -/
def IsReadyToRun (tasks : TaskTable) (row : TaskRow) : Prop :=
  ∀ parent, storedParent tasks row = some parent →
    parentAllows row.allowFailedParent (some (parent.status, parent.result)) = true

/-- Every task was claimed with a parent that allowed it. -/
def ClaimsReady (history : QueueHistory) : Prop :=
  ∀ event ∈ history.trace, ∀ worker taskId, IsClaim worker taskId event →
    ∀ row, event.found.tasks.lookup taskId = some row → IsReadyToRun event.found.tasks row

/-! ## Steps that keep to the order of the commits -/

/-- The task may be claimed while its parent has no outcome yet. -/
def outruns (tasks : TaskTable) (row : TaskRow) : Bool :=
  row.isPending && row.allowFailedParent &&
    (storedParent tasks row).any fun parent => !isFinished parent

/-- A finished task has a result. -/
def isSettled (row : TaskRow) : Bool := !isFinished row || row.result.isSome

/-- Nothing is claimed for a role while a task of the role may outrun its parent,
and the outcomes that such tasks wait for are results. -/
def inOrder (tasks : TaskTable) : Statement → Bool
  | .claimNext _ role _ => !tasks.rows.any fun row => hasRole role row && outruns tasks row
  | .insertTask row => !row.allowFailedParent || (storedParent tasks row).all isSettled
  | .report taskId _ result _ =>
      result.isSome || !tasks.rows.any fun row =>
        row.allowFailedParent && decide (row.parentTaskId = some taskId)
  | _ => true

/-- Every interleaving whose steps are in order. -/
def orderedCommits : Schedule QueueCall Statement.Reply World Raised Answer where
  starts := fun _ _ => True
  permits := fun _ statement history => inOrder history.store.tasks statement = true

def QueuePool.ReachableInOrder (start : World) (pool : QueuePool) : Prop :=
  Pool.Reaches execute QueueCall.body orderedCommits (Pool.idle start) pool

/-- The finished parents of the tasks that allow a failed one have results. -/
def HasOutcomes (tasks : TaskTable) : Prop :=
  ∀ row ∈ tasks.rows, row.allowFailedParent = true →
    ∀ parent, storedParent tasks row = some parent → isSettled parent = true

/-! ## One step -/

section Step

variable {event : QueueEvent} {call : QueueCall} {tasks : TaskTable} {row parent : TaskRow}

theorem isSettled_of_isPending (hpending : row.status = .pending) : isSettled row = true := by
  rw [isSettled, isFinished, hpending]
  rfl

theorem isSettled_of_isRunning (hrunning : row.status = .running) : isSettled row = true := by
  rw [isSettled, isFinished, hrunning]
  rfl

/-- A task was stored before, with the same parent, or it is inserted now. -/
theorem exists_before_or_inserted {taskId : String}
    (hrow : (event.after execute).tasks.lookup taskId = some row) :
    event.statement = .insertTask row ∨
      ∃ old, event.found.tasks.lookup taskId = some old ∧
        old.allowFailedParent = row.allowFailedParent ∧ old.parentTaskId = row.parentTaskId := by
  have hstep := rowStep_after taskId event
  rw [hrow] at hstep
  generalize event.found.tasks.lookup taskId = before at hstep
  cases hstep with
  | same => exact Or.inr ⟨row, rfl, rfl, rfl⟩
  | added hstatement => exact Or.inl hstatement
  | @claimed old => exact Or.inr ⟨old, rfl, rfl, rfl⟩
  | @recovered old => exact Or.inr ⟨old, rfl, rfl, rfl⟩
  | @requeued old => exact Or.inr ⟨old, rfl, rfl, rfl⟩
  | @reported old => exact Or.inr ⟨old, rfl, rfl, rfl⟩

/-- A task is settled after a step, unless the step left it as it was or stored no
result for it. -/
theorem settled_cases {taskId : String} (hmay : call.MayExecute event.statement)
    (hrow : (event.after execute).tasks.lookup taskId = some row) :
    isSettled row = true ∨ event.found.tasks.lookup taskId = some row ∨
      ∃ status finishedAt, event.statement = .report taskId status none finishedAt := by
  have hstep := rowStep_after taskId event
  rw [hrow] at hstep
  generalize event.found.tasks.lookup taskId = before at hstep
  cases hstep with
  | same => exact Or.inr (Or.inl rfl)
  | added hstatement =>
      rw [hstatement] at hmay
      exact Or.inl (isSettled_of_isPending hmay.1)
  | claimed => exact Or.inl (isSettled_of_isRunning rfl)
  | recovered | requeued => exact Or.inl (isSettled_of_isPending rfl)
  | @reported old status result finishedAt hstatement =>
      cases result with
      | none => exact Or.inr (Or.inr ⟨status, finishedAt, hstatement⟩)
      | some result =>
          left
          rw [isSettled, TaskRow.reported, Option.isSome_some, Bool.or_true]

/-- A step in order keeps the results of finished parents. -/
theorem HasOutcomes.after (houtcomes : HasOutcomes event.found.tasks)
    (hmay : call.MayExecute event.statement)
    (hordered : inOrder event.found.tasks event.statement = true) :
    HasOutcomes (event.after execute).tasks := by
  intro row hrow hallowed parent hparent
  obtain ⟨parentId, hparentId, hlookup⟩ := Option.bind_eq_some_iff.mp hparent
  rcases settled_cases hmay hlookup with hsettled | hsame | ⟨status, finishedAt, hstatement⟩
  · exact hsettled
  · rcases exists_before_or_inserted (Table.lookup_of_mem hrow) with
      hstatement | ⟨old, hold, hsameAllowed, hsameParent⟩
    · rw [hstatement, inOrder, hallowed, storedParent, hparentId, Option.bind_some, hsame] at hordered
      simpa using hordered
    · refine houtcomes old (Table.mem_of_lookup hold) (hsameAllowed.trans hallowed) parent ?_
      rw [storedParent, hsameParent, hparentId, Option.bind_some, hsame]
  · -- the parent is reported without a result, so no such task is stored below it
    rcases exists_before_or_inserted (Table.lookup_of_mem hrow) with
      hinsert | ⟨old, hold, hsameAllowed, hsameParent⟩
    · rw [hstatement] at hinsert
      cases hinsert
    · have hnone : ¬(old.allowFailedParent = true ∧ old.parentTaskId = some parentId) := by
        rw [hstatement, inOrder] at hordered
        simp only [Option.isSome_none, Bool.false_or, Bool.not_eq_true', List.any_eq_false,
          Bool.and_eq_true, decide_eq_true_eq] at hordered
        exact hordered old (Table.mem_of_lookup hold)
      exact absurd ⟨hsameAllowed.trans hallowed, hsameParent.trans hparentId⟩ hnone

/-- A finished parent with a result allows every attempt that allows a failed one. -/
theorem parentAllows_of_isFinished (hfinished : isFinished parent = true)
    (hresult : parent.result.isSome = true) :
    parentAllows true (some (parent.status, parent.result)) = true := by
  rw [isFinished, decide_eq_true_eq, List.mem_cons, List.mem_singleton] at hfinished
  rw [parentAllows, hresult]
  rcases hfinished with hstatus | hstatus <;> rw [hstatus] <;> rfl

theorem isReadyToRun_of_isReady (hready : isReady tasks row = true) : IsReadyToRun tasks row := by
  intro parent hparent
  obtain ⟨parentId, hparentId, hlookup⟩ := Option.bind_eq_some_iff.mp hparent
  rw [isReady, hparentId] at hready
  simp only [parentReady, hlookup, Option.any_some, Bool.and_eq_true, decide_eq_true_eq] at hready
  simp [parentAllows, hready]

/-- A claim in order takes a task whose parent allows it. -/
theorem isReadyToRun_of_isClaim {worker taskId : String} (houtcomes : HasOutcomes event.found.tasks)
    (hordered : inOrder event.found.tasks event.statement = true)
    (hclaim : IsClaim worker taskId event)
    (hrow : event.found.tasks.lookup taskId = some row) : IsReadyToRun event.found.tasks row := by
  have hfirst := hclaim
  obtain ⟨role, startedAt, hstatement, hreply⟩ := hfirst
  have hclaimable : isClaimable event.found.tasks role row = true := by
    rcases claimNext_cases worker role startedAt event.found.tasks with
      ⟨hnone, -⟩ | ⟨other, hother, hclaimable, hsome⟩
    · rw [hnone] at hreply
      cases hreply
    · rw [hsome, Option.some.injEq] at hreply
      have hlookup := Table.lookup_of_mem hother
      rw [hreply, hrow, Option.some.injEq] at hlookup
      rw [hlookup]
      exact hclaimable
  rw [isClaimable, Bool.and_eq_true, Bool.and_eq_true, Bool.or_eq_true] at hclaimable
  obtain ⟨⟨hpending, hrole⟩, hallowed | hready⟩ := hclaimable
  · intro parent hparent
    have hmem := Table.mem_of_lookup hrow
    have hfinished : isFinished parent = true := by
      rw [hstatement, inOrder] at hordered
      simp only [Bool.not_eq_true', List.any_eq_false, Bool.and_eq_true, not_and,
        Bool.not_eq_true] at hordered
      have hwaits := hordered row hmem hrole
      rw [outruns, hpending, hallowed, hparent] at hwaits
      simpa using hwaits
    have hsettled := houtcomes row hmem hallowed parent hparent
    rw [isSettled, hfinished, Bool.not_true, Bool.false_or] at hsettled
    rw [hallowed]
    exact parentAllows_of_isFinished hfinished hsettled
  · exact isReadyToRun_of_isReady hready

end Step

/-! ## Every run -/

section Runs

variable {start : World} {pool : QueuePool}

theorem QueuePool.ReachableInOrder.inOrder (hreachable : pool.ReachableInOrder start)
    {event : QueueEvent} (hevent : event ∈ pool.history.trace) :
    (∃ call : QueueCall, call.MayExecute event.statement) ∧
      TaskQueue.inOrder event.found.tasks event.statement = true := by
  have hled : Pool.Led execute QueueCall.body pool := Pool.Reaches.led hreachable
  obtain ⟨process, -, hmay⟩ := hled.call_of_event QueueCall.within_body hevent
  have hordered := Pool.Reaches.permitted
    (fun statement (world : World) => TaskQueue.inOrder world.tasks statement = true) hreachable
    fun _ _ _ hpermits => hpermits
  exact ⟨⟨process.call, hmay⟩, hordered event hevent⟩

/-- Every event of a run in order found results where tasks wait for them. -/
theorem hasOutcomes_found (hreachable : pool.ReachableInOrder start)
    (hstart : HasOutcomes start.tasks) {event : QueueEvent} (hevent : event ∈ pool.history.trace) :
    HasOutcomes event.found.tasks := by
  have hchained : Chained execute start pool.history.trace pool.history.store :=
    Pool.Reaches.chained hreachable rfl
  obtain ⟨later, earlier, htrace⟩ := List.append_of_mem hevent
  rw [htrace] at hchained
  refine kept_of_start (fun world => HasOutcomes world.tasks) (chained_middle hchained).1
    (fun other hother houtcomes => ?_) hstart
  have hmem : other ∈ pool.history.trace := by
    rw [htrace]
    exact List.mem_append_right _ (List.mem_cons_of_mem _ hother)
  obtain ⟨⟨call, hmay⟩, hordered⟩ := hreachable.inOrder hmem
  exact houtcomes.after hmay hordered

/-- In a run in order every claimed task has a parent that allows it. -/
theorem claimsReady_of_reachableInOrder (hreachable : pool.ReachableInOrder start)
    (hstart : HasOutcomes start.tasks) : ClaimsReady pool.history := by
  intro event hevent worker taskId hclaim row hrow
  exact isReadyToRun_of_isClaim (hasOutcomes_found hreachable hstart hevent)
    (hreachable.inOrder hevent).2 hclaim hrow

end Runs

/-! ## Concrete runs -/

namespace Sample

theorem hasOutcomes_start : HasOutcomes start.tasks := by
  intro row hrow
  cases hrow

instance (pool : QueuePool) (call : QueueCall) : Decidable (orderedCommits.starts pool call) :=
  .isTrue trivial

instance (index : ℕ) (statement : Statement) (history : QueueHistory) :
    Decidable (orderedCommits.permits index statement history) :=
  inferInstanceAs (Decidable (_ = true))

/-- A running task, below which its worker adds a request. -/
def requestMoves : List (Move QueueCall) :=
  [.start (.add (task "task-1" none false)), .advance 0,
    .start (.claim "source-worker" none noon), .advance 1, .advance 1,
    .start (.add (task "task-2" (some "task-1") true)), .advance 2, .advance 2]

/-- The worker stores its failure before another one claims the request. -/
def failedFirstMoves : List (Move QueueCall) :=
  requestMoves ++
    [.start (.fail "source-worker" "task-1" (some (.ok "blocked")) later), .advance 3,
      .start (.claim "second-worker" none later), .advance 4, .advance 4]

/-- The request is claimed between the two commits. -/
def outrunMoves : List (Move QueueCall) :=
  requestMoves ++ [.start (.claim "second-worker" none later), .advance 3, .advance 3]

end Sample

theorem claimsReady_failedFirstMoves :
    (Sample.pool Sample.failedFirstMoves).history.store.tasks.rows.map TaskRow.status =
        [.failed, .running] ∧
      ClaimsReady (Sample.pool Sample.failedFirstMoves).history :=
  ⟨by decide +kernel, claimsReady_of_reachableInOrder
    (Pool.reaches_run_of_allows (by decide +kernel)) Sample.hasOutcomes_start⟩

/-- A second worker claims the request while its parent is running. -/
theorem not_claimsReady :
    ¬∀ pool : QueuePool, pool.Reachable Sample.start → ClaimsReady pool.history := by
  intro hall
  have hready := hall _ (Sample.reachable_pool Sample.outrunMoves) _
    (List.mem_cons_of_mem _ List.mem_cons_self) "second-worker" "task-2"
    ⟨none, _, rfl, by decide +kernel⟩ _ rfl _ rfl
  exact absurd hready (by decide +kernel)

end AegisForge.Shared.TaskQueue
