import AegisForge.Shared.QueueLifecycle

/-!
# Recovered tasks

The updates of `finish` and `fail` name the task but not the worker, so what keeps
a former worker from the row is only that a recovery takes the tasks of workers
whose processes have ended.
-/

namespace AegisForge.Shared.TaskQueue

open AegisForge.Core AegisForge.Concurrency

/-! ## Fenced reports -/

/-- The worker that makes a call. -/
def QueueCall.caller? : QueueCall → Option String
  | .claim worker _ _ => some worker
  | .recoverStaleRunning caller _ _ _ => some caller
  | .finish caller _ _ _ => some caller
  | .fail caller _ _ _ => some caller
  | _ => none

def QueueCall.isRequeue : QueueCall → Bool
  | .requeueFailed _ _ => true
  | _ => false

/-- Calls other than requeues. -/
def withoutRequeues : Schedule QueueCall Statement.Reply World Raised Answer where
  starts := fun _ call => call.isRequeue = false
  permits := fun _ _ _ => True

def QueuePool.ReachableWithoutRequeues (start : World) (pool : QueuePool) : Prop :=
  Pool.Reaches execute QueueCall.body withoutRequeues (Pool.idle start) pool

def callerOf (pool : QueuePool) (event : QueueEvent) : Option String :=
  (pool.call? event.process).bind QueueCall.caller?

/-- A worker that claimed a task stores no outcome in the running period of another. -/
def IsFenced (pool : QueuePool) : Prop :=
  ∀ later report since claim before taskId caller worker,
    pool.history.trace = later ++ report :: (since ++ claim :: before) →
      IsReport taskId report → IsClaim worker taskId claim →
        (∀ event ∈ since, ∀ other, ¬IsClaim other taskId event) →
          callerOf pool report = some caller →
            (∃ former ∈ before, IsClaim caller taskId former) → caller = worker

/-- The tasks that a recovery takes. -/
def recoveredTasks (event : QueueEvent) : List String :=
  match event.statement with
  | .recover taskIds => (recover taskIds event.found.tasks).1
  | _ => []

/-- A recovery takes tasks of workers whose processes have ended. -/
def RecoversDeparted (event : QueueEvent) : Prop :=
  ∀ taskId ∈ recoveredTasks event, (event.found.tasks.lookup taskId).all
    (fun row => row.worker.any (· ∈ event.found.departed)) = true

instance : DecidablePred RecoversDeparted := fun event =>
  inferInstanceAs (Decidable (∀ taskId ∈ recoveredTasks event, _ = true))

/-- A worker whose process has ended makes no calls. -/
def IsPresent (pool : QueuePool) (event : QueueEvent) : Prop :=
  (callerOf pool event).all (· ∉ event.found.departed) = true

instance (pool : QueuePool) : DecidablePred (IsPresent pool) := fun _ =>
  inferInstanceAs (Decidable (_ = true))

/-! ## Former claimants -/

section Claimants

variable {event : QueueEvent} {taskId worker : String} {row : TaskRow}

/-- The worker of a claim has ended, or is that of the running task, or the task is
settled. -/
inductive Standing (taskId worker : String) (world : World) : Prop
  | departed (hdeparted : worker ∈ world.departed)
  | holds {row : TaskRow} (hrow : world.tasks.lookup taskId = some row)
      (hrunning : row.status = .running) (hworker : row.worker = some worker)
  | settled {row : TaskRow} (hrow : world.tasks.lookup taskId = some row)
      (hsettled : row.status ∈ [.completed, .failed])

theorem departed_after (event : QueueEvent) (hdeparted : worker ∈ event.found.departed) :
    worker ∈ (event.after execute).departed := by
  obtain ⟨process, statement, found⟩ := event
  cases statement with
  | insertTask row =>
      change worker ∈ (execute (.insertTask row) found).2.departed
      rw [execute]
      split
      · exact hdeparted
      · exact hdeparted
  | depart other => exact List.mem_cons_of_mem other hdeparted
  | _ => exact hdeparted

variable {call : QueueCall}

/-- The row of a running task that was recovered is that of a departed worker. -/
theorem mem_departed_of_recovered (hrecovers : RecoversDeparted event) {taskIds : List String}
    (hstatement : event.statement = .recover taskIds)
    (hreply : taskId ∈ (recover taskIds event.found.tasks).1)
    (hrow : event.found.tasks.lookup taskId = some row) (hworker : row.worker = some worker) :
    worker ∈ event.found.departed := by
  have htasks : recoveredTasks event = (recover taskIds event.found.tasks).1 := by
    rw [recoveredTasks, hstatement]
  have hall := hrecovers taskId (by rw [htasks]; exact hreply)
  rw [hrow, Option.all_some, hworker, Option.any_some] at hall
  exact of_decide_eq_true hall

theorem Standing.after (hstanding : Standing taskId worker event.found)
    (hmay : call.MayExecute event.statement) (hrecovers : RecoversDeparted event)
    (hrequeue : event.statement ≠ .requeue taskId) :
    Standing taskId worker (event.after execute) := by
  have hstep := rowStep_after taskId event
  cases hstanding with
  | departed hdeparted => exact Standing.departed (departed_after event hdeparted)
  | @holds row hrow hrunning hworker =>
      rw [hrow] at hstep
      generalize hlast : (event.after execute).tasks.lookup taskId = last at hstep
      cases hstep with
      | same => exact Standing.holds hlast hrunning hworker
      | claimed hstatement hreply hclaimable =>
          have hpending : row.status = .pending :=
            of_decide_eq_true (isPending_of_isClaimable hclaimable)
          rw [hrunning] at hpending
          cases hpending
      | recovered hstatement hreply _ =>
          exact Standing.departed (departed_after event
            (mem_departed_of_recovered hrecovers hstatement hreply hrow hworker))
      | requeued hstatement hreply hfailed => exact absurd hstatement hrequeue
      | @reported _ status result finishedAt hstatement hreply _ =>
          rw [hstatement] at hmay
          refine Standing.settled hlast ?_
          change status ∈ _
          rcases hmay with ⟨rfl, -⟩ | ⟨rfl, -⟩
          · decide
          · decide
  | @settled row hrow hsettled =>
      have hstopped : row.isRunning = false := by
        rw [TaskRow.isRunning, decide_eq_false_iff_not]
        intro hrunning
        rw [hrunning] at hsettled
        exact absurd hsettled (by decide)
      rw [hrow] at hstep
      generalize hlast : (event.after execute).tasks.lookup taskId = last at hstep
      cases hstep with
      | same => exact Standing.settled hlast hsettled
      | claimed hstatement hreply hclaimable =>
          have hpending : row.status = .pending :=
            of_decide_eq_true (isPending_of_isClaimable hclaimable)
          rw [hpending] at hsettled
          exact absurd hsettled (by decide)
      | recovered hstatement hreply hrunning =>
          rw [hstopped] at hrunning
          cases hrunning
      | requeued hstatement hreply hfailed => exact absurd hstatement hrequeue
      | reported hstatement hreply hrunning =>
          rw [hstopped] at hrunning
          cases hrunning

theorem IsClaim.standing (hclaim : IsClaim worker taskId event) :
    Standing taskId worker (event.after execute) := by
  obtain ⟨row, role, startedAt, -, -, hafter⟩ := hclaim.exists_row
  exact Standing.holds hafter rfl rfl

/-- Every worker that claimed a task has a standing afterwards. -/
theorem standing_of_isClaim {start store : World} {trace : List QueueEvent}
    (hchained : Chained execute start trace store)
    (hmay : ∀ event ∈ trace, ∃ call : QueueCall, call.MayExecute event.statement)
    (hrecovers : ∀ event ∈ trace, RecoversDeparted event)
    (hrequeue : ∀ event ∈ trace, event.statement ≠ .requeue taskId) {claim : QueueEvent}
    (hmem : claim ∈ trace) (hclaim : IsClaim worker taskId claim) :
    Standing taskId worker store := by
  obtain ⟨since, before, rfl⟩ := List.append_of_mem hmem
  have hkeeps : ∀ event ∈ since, Standing taskId worker event.found →
      Standing taskId worker (event.after execute) := by
    intro event hevent hstanding
    have hmember : event ∈ since ++ claim :: before := List.mem_append_left _ hevent
    obtain ⟨call, hcall⟩ := hmay event hmember
    exact hstanding.after hcall (hrecovers event hmember) (hrequeue event hmember)
  exact kept_of_start (Standing taskId worker) (chained_middle hchained).2 hkeeps hclaim.standing

/-! ## The worker of a running period -/

/-- A running task has this worker. -/
def RunsFor (worker taskId : String) (world : World) : Prop :=
  ∀ row, world.tasks.lookup taskId = some row → row.status = .running → row.worker = some worker

theorem runsFor_after (hmay : call.MayExecute event.statement)
    (hclaim : ∀ other, ¬IsClaim other taskId event) (hruns : RunsFor worker taskId event.found) :
    RunsFor worker taskId (event.after execute) := by
  intro row hrow hrunning
  have hstep := rowStep_after taskId event
  rw [hrow] at hstep
  generalize hfound : event.found.tasks.lookup taskId = found at hstep
  cases hstep with
  | same => exact hruns row hfound hrunning
  | added hstatement =>
      rw [hstatement] at hmay
      rw [show row.status = .pending from hmay.1] at hrunning
      cases hrunning
  | claimed hstatement hreply hclaimable => exact absurd ⟨_, _, hstatement, hreply⟩ (hclaim _)
  | recovered hstatement hreply hwas => cases hrunning
  | requeued hstatement hreply hfailed => cases hrunning
  | @reported old status result finishedAt hstatement hreply hwas =>
      exact hruns old hfound (of_decide_eq_true hwas)

/-- The worker of a running task is the last one that claimed it. -/
theorem runsFor_of_isClaim {start store : World} {since before : List QueueEvent}
    {claim : QueueEvent} (hchained : Chained execute start (since ++ claim :: before) store)
    (hmay : ∀ event ∈ since, ∃ call : QueueCall, call.MayExecute event.statement)
    (hclaim : IsClaim worker taskId claim)
    (hsince : ∀ event ∈ since, ∀ other, ¬IsClaim other taskId event) :
    RunsFor worker taskId store := by
  have hkeeps : ∀ event ∈ since, RunsFor worker taskId event.found →
      RunsFor worker taskId (event.after execute) := by
    intro event hevent hruns
    obtain ⟨call, hcall⟩ := hmay event hevent
    exact runsFor_after hcall (hsince event hevent) hruns
  refine kept_of_start (RunsFor worker taskId) (chained_middle hchained).2 hkeeps ?_
  intro row hrow _
  obtain ⟨old, role, startedAt, -, -, hafter⟩ := hclaim.exists_row
  rw [hafter, Option.some.injEq] at hrow
  rw [← hrow]
  rfl

end Claimants

/-! ## Recoveries of departed workers -/

section Runs

variable {start : World} {pool : QueuePool}

theorem QueuePool.ReachableWithoutRequeues.exists_call
    (hreachable : pool.ReachableWithoutRequeues start) {event : QueueEvent}
    (hevent : event ∈ pool.history.trace) :
    (∃ call : QueueCall, call.MayExecute event.statement) ∧
      ∀ taskId, event.statement ≠ .requeue taskId := by
  have hled : Pool.Led execute QueueCall.body pool := Pool.Reaches.led hreachable
  obtain ⟨process, hprocess, hmay⟩ := hled.call_of_event QueueCall.within_body hevent
  refine ⟨⟨process.call, hmay⟩, fun taskId hstatement => ?_⟩
  have hallowed := Pool.Reaches.calls hreachable (fun _ _ hstarts => hstarts) _ process hprocess
  rw [hstatement] at hmay
  obtain ⟨maxRetries, hcall⟩ := hmay
  rw [hcall] at hallowed
  cases hallowed

/-- Where recoveries take only the tasks of departed workers, every task is fenced. -/
theorem isFenced_of_recoversDeparted (hreachable : pool.ReachableWithoutRequeues start)
    (hpresent : ∀ event ∈ pool.history.trace, IsPresent pool event)
    (hrecovers : ∀ event ∈ pool.history.trace, RecoversDeparted event) : IsFenced pool := by
  intro later report since claim before taskId caller worker htrace hreport hclaim hsince hcaller
    hformer
  obtain ⟨former, hmem, hformer⟩ := hformer
  have hchained : Chained execute start pool.history.trace pool.history.store :=
    Pool.Reaches.chained hreachable rfl
  rw [htrace] at hchained
  have hearlier := (chained_middle hchained).1
  have hcalls : ∀ event ∈ since ++ claim :: before, event ∈ pool.history.trace := by
    intro event hevent
    rw [htrace]
    exact List.mem_append_right _ (List.mem_cons_of_mem _ hevent)
  have hstanding : Standing taskId caller report.found :=
    standing_of_isClaim hearlier (fun event hevent => (hreachable.exists_call (hcalls event hevent)).1)
      (fun event hevent => hrecovers event (hcalls event hevent))
      (fun event hevent => (hreachable.exists_call (hcalls event hevent)).2 taskId)
      (List.mem_append_right _ (List.mem_cons_of_mem _ hmem)) hformer
  have hruns : RunsFor worker taskId report.found :=
    runsFor_of_isClaim hearlier
      (fun event hevent =>
        (hreachable.exists_call (hcalls event (List.mem_append_left _ hevent))).1) hclaim hsince
  obtain ⟨status, result, finishedAt, -, hreply⟩ := hreport
  obtain ⟨row, hrow, hrunning⟩ := Table.updateWhere_eq_true_iff.mp hreply
  have hstatus : row.status = .running := of_decide_eq_true hrunning
  have hworker := hruns row hrow hstatus
  have hpool : report ∈ pool.history.trace := by
    rw [htrace]
    exact List.mem_append_right _ List.mem_cons_self
  cases hstanding with
  | departed hdeparted =>
      have habsent := hpresent report hpool
      rw [IsPresent, hcaller, Option.all_some] at habsent
      exact absurd hdeparted (of_decide_eq_true habsent)
  | holds hheld _ hcallers =>
      rw [hrow, Option.some.injEq] at hheld
      rw [← hheld, hworker, Option.some.injEq] at hcallers
      exact hcallers.symm
  | settled hheld hsettled =>
      rw [hrow, Option.some.injEq] at hheld
      rw [← hheld, hstatus] at hsettled
      exact absurd hsettled (by decide)

end Runs

/-! ## Concrete runs -/

namespace Sample

/-- A slow worker, whose task is recovered and claimed again, reports first. -/
def staleMoves : List (Move QueueCall) :=
  recoveredMoves ++
    [.start (.finish "source-worker" "task-1" (some (.ok "stale")) later), .advance 4]

/-- A worker whose process has ended is replaced. -/
def replacedMoves : List (Move QueueCall) :=
  [.start (.add (task "task-1" none false)), .advance 0,
    .start (.claim "source-worker" none noon), .advance 1, .advance 1,
    .start (.depart "source-worker"), .advance 2,
    .start (.recoverStaleRunning "master" 10 later fun _ => .delivered), .advance 3, .advance 3,
    .start (.claim "second-worker" none later), .advance 4, .advance 4,
    .start (.finish "second-worker" "task-1" (some (.ok "done")) later), .advance 5]

instance (pool : QueuePool) (call : QueueCall) : Decidable (withoutRequeues.starts pool call) :=
  inferInstanceAs (Decidable (call.isRequeue = false))

instance (index : ℕ) (statement : Statement) (history : QueueHistory) :
    Decidable (withoutRequeues.permits index statement history) :=
  .isTrue trivial

theorem reachable_staleMoves : (pool staleMoves).ReachableWithoutRequeues start :=
  Pool.reaches_run_of_allows (by decide +kernel)

theorem reachable_replacedMoves : (pool replacedMoves).ReachableWithoutRequeues start :=
  Pool.reaches_run_of_allows (by decide +kernel)

end Sample

theorem isFenced_replacedMoves : IsFenced (Sample.pool Sample.replacedMoves) :=
  isFenced_of_recoversDeparted Sample.reachable_replacedMoves (by decide +kernel) (by decide +kernel)

/-- A worker that still runs stores its outcome in the running period of another. -/
theorem not_isFenced_staleMoves :
    ¬∀ (start : World) (pool : QueuePool), pool.ReachableWithoutRequeues start → IsFenced pool := by
  intro hall
  have hfenced := hall _ _ Sample.reachable_staleMoves
  have hsame := hfenced [] _ [_] _ _ "task-1" "source-worker" "second-worker" rfl
    ⟨_, _, _, rfl, by decide +kernel⟩ ⟨_, _, rfl, by decide +kernel⟩ ?_ rfl ?_
  · exact absurd hsame (by decide)
  · intro event hevent other hclaim
    obtain ⟨role, startedAt, hstatement, -⟩ := hclaim
    rw [List.mem_singleton.mp hevent] at hstatement
    cases hstatement
  · refine ⟨_, List.mem_cons_of_mem _ (List.mem_cons_of_mem _ (List.mem_cons_of_mem _
      List.mem_cons_self)), none, _, rfl, by decide +kernel⟩

end AegisForge.Shared.TaskQueue
