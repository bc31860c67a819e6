import AegisForge.Concurrency.Trace
import AegisForge.Shared.QueueSteps

/-!
# Claims and the lifecycle of tasks

In every interleaving of calls a task starts to run exactly where it is claimed,
and it is claimed again only after a requeue or a recovery.
-/

namespace AegisForge.Shared.TaskQueue

open AegisForge.Core AegisForge.Concurrency

/-! ## Statuses -/

def statusOf (taskId : String) (world : World) : Option TaskStatus :=
  (world.tasks.lookup taskId).map TaskRow.status

/-- The task is running. -/
def Runs (taskId : String) (world : World) : Prop := statusOf taskId world = some .running

/-- The changes of a status; a task is added as pending. -/
inductive Moves : Option TaskStatus → Option TaskStatus → Prop
  | added : Moves none (some .pending)
  | claimed : Moves (some .pending) (some .running)
  | completed : Moves (some .running) (some .completed)
  | failed : Moves (some .running) (some .failed)
  | requeued : Moves (some .failed) (some .pending)
  | recovered : Moves (some .running) (some .pending)

/-- The statuses of a task over a run, newest first. -/
def statuses (taskId : String) (history : QueueHistory) : List (Option TaskStatus) :=
  statusOf taskId history.store :: history.trace.map fun event => statusOf taskId event.found

/-! ## The statements of each call -/

/-- What a call may execute. -/
def QueueCall.MayExecute (call : QueueCall) : Statement → Prop
  | .insertTask row => row.status = .pending ∧ ∃ task, call = .add task
  | .claimNext worker role _ => ∃ now, call = .claim worker role now
  | .requeue taskId => ∃ maxRetries, call = .requeueFailed taskId maxRetries
  | .report taskId status _ _ =>
      (status = .completed ∧ ∃ caller result now, call = .finish caller taskId result now) ∨
        (status = .failed ∧ ∃ caller result now, call = .fail caller taskId result now)
  | _ => True

section Within

variable {Value : Type} {allowed : Statement → Prop}

theorem within_send {statement : Statement} (hallowed : allowed statement) :
    (send statement).Within allowed := Program.within_call hallowed

theorem within_getResearchCase (hcases : ∀ caseId, allowed (.cases (.selectPayload caseId)))
    (caseId : String) : (getResearchCase caseId).Within allowed := by
  rw [getResearchCase]
  split
  · trivial
  · exact (within_send (hcases _)).bind fun _ => Program.within_ofExcept

theorem within_checkCase (hcases : ∀ caseId, allowed (.cases (.selectPayload caseId)))
    (researchCaseId : Option String) : (checkCase researchCaseId).Within allowed := by
  cases researchCaseId with
  | none => trivial
  | some caseId =>
      exact (within_getResearchCase hcases caseId).bind fun _ => Program.within_raiseIf.bind
        fun _ => Program.within_ofExcept.bind fun _ => trivial

theorem within_bindToParent (hselect : ∀ taskId, allowed (.selectBinding taskId)) (task : NewTask) :
    (bindToParent task).Within allowed := by
  rw [bindToParent]
  split
  · trivial
  · exact (within_send (hselect _)).bind fun _ => Program.within_ofExcept.bind
      fun _ => Program.within_ofExcept.bind fun _ => trivial

/-- The rows that `add` inserts are those of the new task. -/
theorem within_add_row (hcases : ∀ caseId, allowed (.cases (.selectPayload caseId)))
    (hselect : ∀ taskId, allowed (.selectBinding taskId)) (task : NewTask)
    (hinsert : ∀ researchCaseId roundId capabilityIntent,
      allowed (.insertTask (task.row researchCaseId roundId capabilityIntent))) :
    (add task).Within allowed :=
  (within_bindToParent hselect task).bind fun _ => Program.within_raiseIf.bind
    fun _ => (within_checkCase hcases _).bind fun _ => Program.within_ofExcept.bind
      fun _ => (within_send (hinsert _ _ _)).bind fun (_ : Bool) => Program.within_raiseIf.bind
        fun _ => trivial

theorem within_add (hcases : ∀ caseId, allowed (.cases (.selectPayload caseId)))
    (hselect : ∀ taskId, allowed (.selectBinding taskId))
    (hinsert : ∀ row : TaskRow, row.status = .pending → allowed (.insertTask row))
    (task : NewTask) : (add task).Within allowed :=
  within_add_row hcases hselect task fun _ _ _ => hinsert _ rfl

theorem within_recoverStaleRunning (hselect : allowed .selectRunning)
    (hrecover : ∀ taskIds, allowed (.recover taskIds)) (staleMinutes : ℤ) (now : DateTime)
    (kill : ℤ → KillAnswer) : (recoverStaleRunning staleMinutes now kill).Within allowed :=
  (within_send hselect).bind fun (_ : List TaskRow) => Program.within_ofExcept.bind
    fun _ => within_send (hrecover _)

theorem within_requeueFailed (taskId : String) (maxRetries : ℤ)
    (hfailure : ∀ taskId, allowed (.selectFailure taskId))
    (houtcome : ∀ taskId, allowed (.selectOutcome taskId)) (hrequeue : allowed (.requeue taskId)) :
    (requeueFailed taskId maxRetries).Within allowed := by
  refine (within_send (hfailure taskId)).bind fun (found : Option FailureView) => ?_
  cases found with
  | none => trivial
  | some task =>
      dsimp only
      split
      · trivial
      · split
        · exact within_send hrequeue
        · refine (within_send (houtcome _)).bind
            fun (_ : Option (TaskStatus × Option String)) => ?_
          exact Program.within_ite (within_send hrequeue) trivial

theorem within_finish (taskId : String) (result : Option EncodedResult) (now : DateTime)
    (hreport : ∀ result, allowed (.report taskId .completed result now.isoText)) :
    (finish taskId result now).Within allowed := by
  unfold finish
  split
  · trivial
  · trivial
  · exact (within_send (hreport _)).bind fun (_ : Bool) => Program.within_raiseIf

theorem within_fail (taskId : String) (result : Option EncodedResult) (now : DateTime)
    (hreport : ∀ result, allowed (.report taskId .failed result now.isoText)) :
    (fail taskId result now).Within allowed := by
  unfold fail
  split
  · trivial
  · exact (within_send (hreport _)).bind fun (_ : Bool) => Program.within_raiseIf
  · exact (within_send (hreport _)).bind fun (_ : Bool) => Program.within_raiseIf

end Within

theorem QueueCall.within_body (call : QueueCall) : call.body.Within call.MayExecute := by
  cases call with
  | registerResearchCase case =>
      exact ((Program.within_true _).embed fun _ _ => trivial).bind fun _ => trivial
  | add task =>
      exact (within_add (fun _ => trivial) (fun _ => trivial)
        (fun _ hrow => ⟨hrow, task, rfl⟩) task).bind fun _ => trivial
  | claim worker role now =>
      refine Program.Within.bind ⟨⟨now, rfl⟩, fun claimed => ?_⟩ fun _ => trivial
      cases claimed with
      | none => trivial
      | some taskId => exact within_send trivial
  | recoverStaleRunning caller staleMinutes now kill =>
      exact (within_recoverStaleRunning trivial (fun _ => trivial) staleMinutes now kill).bind
        fun _ => trivial
  | requeueFailed taskId maxRetries =>
      exact (within_requeueFailed taskId maxRetries (fun _ => trivial) (fun _ => trivial)
        ⟨maxRetries, rfl⟩).bind fun _ => trivial
  | finish caller taskId result now =>
      exact (within_finish taskId result now
        fun _ => Or.inl ⟨rfl, caller, result, now, rfl⟩).bind fun _ => trivial
  | fail caller taskId result now =>
      exact (within_fail taskId result now
        fun _ => Or.inr ⟨rfl, caller, result, now, rfl⟩).bind fun _ => trivial
  | depart worker => exact (within_send trivial).bind fun _ => trivial

/-! ## Steps of a status -/

section Steps

variable {event : QueueEvent} {taskId worker : String}

/-- The task that a claim takes is claimable. -/
theorem IsClaim.exists_row (hclaim : IsClaim worker taskId event) :
    ∃ row role startedAt, event.found.tasks.lookup taskId = some row ∧
      isClaimable event.found.tasks role row = true ∧
        (event.after execute).tasks.lookup taskId = some (row.claimed worker startedAt) := by
  obtain ⟨process, statement, found⟩ := event
  obtain ⟨role, startedAt, hstatement, hreply⟩ := hclaim
  dsimp only at hstatement hreply
  subst hstatement
  rcases claimNext_cases worker role startedAt found.tasks with
    ⟨hnone, -⟩ | ⟨row, hrow, hclaimable, hsome⟩
  · rw [hnone] at hreply
    cases hreply
  · rw [hsome, Option.some.injEq] at hreply
    subst hreply
    refine ⟨row, role, startedAt, Table.lookup_of_mem hrow, hclaimable, ?_⟩
    change (claimNext worker role startedAt found.tasks).2.lookup row.id = _
    rw [hsome, Table.lookup_modify_self, Table.lookup_of_mem hrow, Option.map_some]

theorem IsClaim.runs (hclaim : IsClaim worker taskId event) :
    statusOf taskId event.found = some .pending ∧ Runs taskId (event.after execute) := by
  obtain ⟨row, role, startedAt, hfound, hclaimable, hafter⟩ := hclaim.exists_row
  have hpending : row.status = .pending := of_decide_eq_true (isPending_of_isClaimable hclaimable)
  rw [Runs, statusOf, statusOf, hfound, hafter, Option.map_some, hpending]
  exact ⟨rfl, rfl⟩

variable {call : QueueCall}

/-- A task starts to run only where it is claimed. -/
theorem exists_isClaim (hmay : call.MayExecute event.statement) (hfound : ¬Runs taskId event.found)
    (hafter : Runs taskId (event.after execute)) : ∃ worker, IsClaim worker taskId event := by
  have hstep := rowStep_after taskId event
  rw [Runs, statusOf] at hfound hafter
  generalize event.found.tasks.lookup taskId = before at hstep hfound
  generalize (event.after execute).tasks.lookup taskId = last at hstep hafter
  cases hstep with
  | same => exact absurd hafter hfound
  | added hstatement =>
      rw [hstatement] at hmay
      rw [Option.map_some, hmay.1] at hafter
      cases hafter
  | claimed hstatement hreply hclaimable => exact ⟨_, _, _, hstatement, hreply⟩
  | recovered hstatement hreply hrunning => cases hafter
  | requeued hstatement hreply hfailed => cases hafter
  | reported hstatement hreply hrunning =>
      exact absurd (congrArg some (of_decide_eq_true hrunning)) hfound

theorem isClaim_iff (hmay : call.MayExecute event.statement) :
    (∃ worker, IsClaim worker taskId event) ↔
      ¬Runs taskId event.found ∧ Runs taskId (event.after execute) := by
  constructor
  · rintro ⟨worker, hclaim⟩
    refine ⟨fun hruns => ?_, hclaim.runs.2⟩
    rw [Runs, hclaim.runs.1] at hruns
    cases hruns
  · rintro ⟨hfound, hafter⟩
    exact exists_isClaim hmay hfound hafter

/-- Every statement leaves a status or moves it. -/
theorem moves_after (hmay : call.MayExecute event.statement) (taskId : String) :
    Relation.ReflGen Moves (statusOf taskId event.found)
      (statusOf taskId (event.after execute)) := by
  have hstep := rowStep_after taskId event
  rw [statusOf, statusOf]
  generalize event.found.tasks.lookup taskId = before at hstep
  generalize (event.after execute).tasks.lookup taskId = last at hstep
  cases hstep with
  | same => exact Relation.ReflGen.refl
  | added hstatement =>
      rw [hstatement] at hmay
      rw [Option.map_some, hmay.1]
      exact Relation.ReflGen.single Moves.added
  | @claimed row _ _ _ hstatement hreply hclaimable =>
      have hpending : row.status = .pending :=
        of_decide_eq_true (isPending_of_isClaimable hclaimable)
      rw [Option.map_some, hpending]
      exact Relation.ReflGen.single Moves.claimed
  | @recovered row _ hstatement hreply hrunning =>
      have hstatus : row.status = .running := of_decide_eq_true hrunning
      rw [Option.map_some, hstatus]
      exact Relation.ReflGen.single Moves.recovered
  | @requeued row hstatement hreply hfailed =>
      have hstatus : row.status = .failed := of_decide_eq_true hfailed
      rw [Option.map_some, hstatus]
      exact Relation.ReflGen.single Moves.requeued
  | @reported row status _ _ hstatement hreply hrunning =>
      have hstatus : row.status = .running := of_decide_eq_true hrunning
      rw [hstatement] at hmay
      rw [Option.map_some, hstatus]
      rcases hmay with ⟨rfl, -⟩ | ⟨rfl, -⟩
      · exact Relation.ReflGen.single Moves.completed
      · exact Relation.ReflGen.single Moves.failed

/-- No statement deletes a task. -/
theorem exists_after (hfound : statusOf taskId event.found ≠ none) :
    statusOf taskId (event.after execute) ≠ none := by
  have hstep := rowStep_after taskId event
  rw [statusOf] at hfound ⊢
  generalize event.found.tasks.lookup taskId = before at hstep hfound
  generalize (event.after execute).tasks.lookup taskId = last at hstep
  cases hstep with
  | same => exact hfound
  | added hstatement => exact absurd rfl hfound
  | claimed | recovered | requeued | reported => exact Option.some_ne_none _

/-- A task that was added becomes pending again only where it is released. -/
theorem isRelease_of_pending (hexists : statusOf taskId event.found ≠ none)
    (hfound : statusOf taskId event.found ≠ some .pending)
    (hafter : statusOf taskId (event.after execute) = some .pending)
    (hmay : call.MayExecute event.statement) : IsRelease taskId event := by
  have hstep := rowStep_after taskId event
  rw [statusOf] at hexists hfound hafter
  generalize event.found.tasks.lookup taskId = before at hstep hexists hfound
  generalize (event.after execute).tasks.lookup taskId = last at hstep hafter
  cases hstep with
  | same => exact absurd hafter hfound
  | added hstatement => exact absurd rfl hexists
  | claimed hstatement hreply hclaimable => cases hafter
  | recovered hstatement hreply hrunning => exact Or.inr ⟨_, hstatement, hreply⟩
  | requeued hstatement hreply hfailed => exact Or.inl ⟨hstatement, hreply⟩
  | reported hstatement hreply hrunning =>
      rw [hstatement] at hmay
      rw [Option.map_some] at hafter
      rcases hmay with ⟨rfl, -⟩ | ⟨rfl, -⟩
      · cases hafter
      · cases hafter

end Steps

/-! ## Exclusive claims -/

/-- The pools that calls of any number of workers lead to. -/
def QueuePool.Reachable (start : World) (pool : QueuePool) : Prop :=
  Pool.Reaches execute QueueCall.body .unrestricted (Pool.idle start) pool

/-- The condition on the parent of a claimed task. -/
def HasSettledParent (tasks : TaskTable) (row : TaskRow) : Prop :=
  row.parentTaskId = none ∨ row.allowFailedParent = true ∨
    ∃ parentId parent, row.parentTaskId = some parentId ∧
      tasks.lookup parentId = some parent ∧ parent.status = .completed ∧
        parent.result.isSome = true

/-- What claims promise in a run from `start`. -/
structure IsExclusive (start : World) (pool : QueuePool) : Prop where
  /-- A claim that returned a task has claimed it. -/
  returned : ∀ index worker role now row,
    pool.processes[index]? = some ⟨.claim worker role now, .done (.task (some row))⟩ →
      ∃ event ∈ pool.history.trace, event.process = index ∧ IsClaim worker row.id event
  /-- A task starts to run exactly where it is claimed. -/
  begins : ∀ event ∈ pool.history.trace, ∀ taskId,
    (∃ worker, IsClaim worker taskId event) ↔
      ¬Runs taskId event.found ∧ Runs taskId (event.after execute)
  /-- A running task has been claimed once since it began to run. -/
  period : ∀ taskId, ¬Runs taskId start → Runs taskId pool.history.store →
    ∃ since claim before worker, pool.history.trace = since ++ claim :: before ∧
      IsClaim worker taskId claim ∧
        ∀ event ∈ since, Runs taskId event.found ∧ ∀ other, ¬IsClaim other taskId event
  /-- Between two claims of a task it was returned to the pending ones. -/
  exclusive : ∀ later second between first earlier taskId worker other,
    pool.history.trace = later ++ second :: (between ++ first :: earlier) →
      IsClaim worker taskId first → IsClaim other taskId second →
        ∃ event ∈ between, IsRelease taskId event
  /-- The parent of a claimed task allowed it. -/
  settled : ∀ event ∈ pool.history.trace, ∀ worker taskId, IsClaim worker taskId event →
    ∃ row, event.found.tasks.lookup taskId = some row ∧ HasSettledParent event.found.tasks row
  /-- Every status follows from the one before it. -/
  moves : ∀ taskId, (statuses taskId pool.history).IsChain
    fun after before => Relation.ReflGen Moves before after

section Runs

variable {start : World} {pool : QueuePool}

theorem QueuePool.Reachable.chained (hreachable : pool.Reachable start) :
    Chained execute start pool.history.trace pool.history.store :=
  Pool.Reaches.chained hreachable rfl

theorem QueuePool.Reachable.led (hreachable : pool.Reachable start) :
    Pool.Led execute QueueCall.body pool := Pool.Reaches.led hreachable

theorem QueuePool.Reachable.exists_call (hreachable : pool.Reachable start) {event : QueueEvent}
    (hevent : event ∈ pool.history.trace) :
    ∃ call : QueueCall, call.MayExecute event.statement := by
  obtain ⟨process, -, hmay⟩ := hreachable.led.call_of_event QueueCall.within_body hevent
  exact ⟨process.call, hmay⟩

theorem hasSettledParent_of_isClaimable {tasks : TaskTable} {role : Option String} {row : TaskRow}
    (hclaimable : isClaimable tasks role row = true) : HasSettledParent tasks row := by
  rw [isClaimable, Bool.and_eq_true, Bool.or_eq_true] at hclaimable
  rcases hclaimable.2 with hallowed | hready
  · exact Or.inr (Or.inl hallowed)
  · rw [isReady] at hready
    cases hparent : row.parentTaskId with
    | none => exact Or.inl hparent
    | some parentId =>
        rw [hparent] at hready
        obtain ⟨parent, hlookup, hstatus⟩ := (Option.any_eq_true _ _).mp hready
        rw [Bool.and_eq_true, decide_eq_true_eq] at hstatus
        exact Or.inr (Or.inr ⟨parentId, parent, hparent, hlookup, hstatus⟩)

/-- A claim that returned a task executed its two statements. -/
theorem exists_claim_of_returned (hreachable : pool.Reachable start) {index : ℕ} {worker : String}
    {role : Option String} {now : DateTime} {row : TaskRow}
    (hreturned : pool.processes[index]? =
      some ⟨.claim worker role now, .done (.task (some row))⟩) :
    ∃ event ∈ pool.history.trace, event.process = index ∧ IsClaim worker row.id event := by
  have hleads := hreachable.led.leads index _ hreturned
  dsimp only at hleads
  obtain ⟨-, hrest⟩ | ⟨later, process, found, hown, hlater⟩ := hleads.of_step
  · cases hrest
  · have hmem : (⟨process, .claimNext worker role now.isoText, found⟩ : QueueEvent) ∈
        pool.history.own index := by
      rw [hown]
      exact List.mem_append_right _ List.mem_cons_self
    obtain ⟨hevent, hprocess⟩ := History.mem_own.mp hmem
    refine ⟨_, hevent, hprocess, role, now.isoText, rfl, ?_⟩
    generalize hreply : (execute (.claimNext worker role now.isoText) found).1 = reply at hlater
    change (execute (.claimNext worker role now.isoText) found).1 = some row.id
    rw [hreply]
    cases reply with
    | none =>
        obtain ⟨-, hrest⟩ := hlater.of_done
        cases hrest
    | some taskId =>
        obtain ⟨-, hrest⟩ | ⟨last, process, found, -, hlast⟩ := hlater.of_step
        · cases hrest
        · obtain ⟨-, hrest⟩ := hlast.of_done
          have hlookup : some row = found.tasks.lookup taskId :=
            Answer.task.inj (Program.done.inj hrest)
          exact congrArg some (Table.key_of_lookup hlookup.symm).symm

/-- A running task has been claimed once since it began to run. -/
theorem exists_period (hreachable : pool.Reachable start) {taskId : String}
    (hstart : ¬Runs taskId start) (hruns : Runs taskId pool.history.store) :
    ∃ since claim before worker, pool.history.trace = since ++ claim :: before ∧
      IsClaim worker taskId claim ∧
        ∀ event ∈ since, Runs taskId event.found ∧ ∀ other, ¬IsClaim other taskId event := by
  obtain ⟨since, claim, before, htrace, hfound, hafter, hsince⟩ :=
    exists_beginning (Runs taskId) hreachable.chained hstart hruns
  have hmem : claim ∈ pool.history.trace := by
    rw [htrace]
    exact List.mem_append_right _ List.mem_cons_self
  obtain ⟨call, hmay⟩ := hreachable.exists_call hmem
  obtain ⟨worker, hclaim⟩ := exists_isClaim hmay hfound hafter
  refine ⟨since, claim, before, worker, htrace, hclaim, fun event hevent => ?_⟩
  refine ⟨hsince event hevent, fun other hother => ?_⟩
  have hpending := hother.runs.1
  rw [hsince event hevent] at hpending
  cases hpending

/-- Between two claims of a task it was released. -/
theorem exists_release (hreachable : pool.Reachable start)
    {later between earlier : List QueueEvent} {second first : QueueEvent}
    {taskId worker other : String}
    (htrace : pool.history.trace = later ++ second :: (between ++ first :: earlier))
    (hfirst : IsClaim worker taskId first) (hsecond : IsClaim other taskId second) :
    ∃ event ∈ between, IsRelease taskId event := by
  have hchained := hreachable.chained
  rw [htrace] at hchained
  have hbetween := (chained_middle (chained_middle hchained).1).2
  have hstart : ¬statusOf taskId (first.after execute) = some .pending := by
    rw [show statusOf taskId (first.after execute) = some .running from hfirst.runs.2]
    decide
  obtain ⟨since, event, before, rfl, hnot, hpending, -⟩ :=
    exists_beginning (fun world => statusOf taskId world = some .pending) hbetween hstart
      hsecond.runs.1
  refine ⟨event, List.mem_append_right _ List.mem_cons_self, ?_⟩
  have hmem : event ∈ pool.history.trace := by
    rw [htrace]
    simp
  obtain ⟨call, hmay⟩ := hreachable.exists_call hmem
  have hexists : statusOf taskId event.found ≠ none := by
    refine kept_of_start (fun world => statusOf taskId world ≠ none) (chained_middle hbetween).1
      (fun event _ => exists_after) ?_
    rw [show statusOf taskId (first.after execute) = some .running from hfirst.runs.2]
    decide
  exact isRelease_of_pending hexists hnot hpending hmay

/-- In every run tasks are claimed one at a time, with a settled parent, and their
statuses follow the lifecycle. -/
theorem isExclusive (hreachable : pool.Reachable start) : IsExclusive start pool where
  returned _ _ _ _ _ hreturned := exists_claim_of_returned hreachable hreturned
  begins event hevent taskId := by
    obtain ⟨call, hmay⟩ := hreachable.exists_call hevent
    exact isClaim_iff hmay
  period _ hstart hruns := exists_period hreachable hstart hruns
  exclusive _ _ _ _ _ _ _ _ htrace hfirst hsecond := exists_release hreachable htrace hfirst hsecond
  settled event hevent worker taskId hclaim := by
    obtain ⟨row, role, -, hrow, hclaimable, -⟩ := hclaim.exists_row
    exact ⟨row, hrow, hasSettledParent_of_isClaimable hclaimable⟩
  moves taskId := by
    refine isChain_of_chained (statusOf taskId) (Relation.ReflGen Moves) hreachable.chained ?_
    intro event hevent
    obtain ⟨call, hmay⟩ := hreachable.exists_call hevent
    exact moves_after hmay taskId

end Runs

/-! ## A concrete run -/

namespace Sample

def start : World where
  tasks := Table.empty
  cases := Table.empty
  reviews := []
  rounds := Table.empty
  departed := []

def noon : DateTime where
  date := ⟨2026, 5, 1, Date.year_range_2026, by decide, by decide⟩
  clock := ⟨12, 0, 0, 0⟩
  offset := some Offset.utc
  in_range := by decide

/-- Half an hour later. -/
def later : DateTime := { noon with clock := ⟨12, 30, 0, 0⟩, in_range := by decide }

def task (taskId : String) (parentTaskId : Option String) (allowFailedParent : Bool) : NewTask where
  taskId := taskId
  description := some "sample"
  role := none
  parentTaskId := parentTaskId
  capabilityIntent := none
  allowFailedParent := allowFailedParent
  researchCaseId := none
  roundId := none
  createdAt := noon

/-- A task that is claimed, recovered and claimed again. -/
def recoveredMoves : List (Move QueueCall) :=
  [.start (.add (task "task-1" none false)), .advance 0,
    .start (.claim "source-worker" none noon), .advance 1, .advance 1,
    .start (.recoverStaleRunning "master" 10 later fun _ => .delivered), .advance 2, .advance 2,
    .start (.claim "second-worker" none later), .advance 3, .advance 3]

def pool (calls : List (Move QueueCall)) : QueuePool :=
  Pool.run execute QueueCall.body (Pool.idle start) calls

theorem reachable_pool (calls : List (Move QueueCall)) : (pool calls).Reachable start :=
  Pool.reaches_run _ _

end Sample

theorem isExclusive_recoveredMoves :
    IsExclusive Sample.start (Sample.pool Sample.recoveredMoves) :=
  isExclusive (Sample.reachable_pool Sample.recoveredMoves)

end AegisForge.Shared.TaskQueue
