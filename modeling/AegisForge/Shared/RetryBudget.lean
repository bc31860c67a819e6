import AegisForge.Concurrency.Safety
import AegisForge.Shared.QueueLifecycle

/-!
# The budget of retries

`requeue_failed` compares the bound with the number of retries that it read, and
its update is guarded by the status alone.  A task stays within the budget as
long as nobody requeues it between a call's reading it and its update.
-/

namespace AegisForge.Shared.TaskQueue.RetryBudget

open AegisForge.Core AegisForge.Concurrency

/-! ## The budget -/

/-- No task has been requeued more than `maxRetries` times. -/
def IsWithin (maxRetries : ℤ) (world : World) : Prop :=
  ∀ taskId row, world.tasks.lookup taskId = some row → row.retryCount ≤ maxRetries

/-- The call requeues with the bound that all callers share. -/
def sharesBound (maxRetries : ℤ) : QueueCall → Bool
  | .requeueFailed _ bound => bound = maxRetries
  | .add _ => 0 ≤ maxRetries
  | _ => true

/-- The calls of any number of callers with one bound, in any order of their
statements. -/
def sharedBound (maxRetries : ℤ) : Schedule QueueCall Statement.Reply World Raised Answer where
  starts := fun _ call => sharesBound maxRetries call = true
  permits := fun _ _ _ => True

instance (maxRetries : ℤ) (pool : QueuePool) (call : QueueCall) :
    Decidable ((sharedBound maxRetries).starts pool call) :=
  inferInstanceAs (Decidable (_ = true))

instance (maxRetries : ℤ) (process : ℕ) (statement : Statement) (history : QueueHistory) :
    Decidable ((sharedBound maxRetries).permits process statement history) :=
  inferInstanceAs (Decidable True)

/-! ## The condition on a run -/

/-- The task is failed, so that the update of a requeue matches its row. -/
def isRequeueable (taskId : String) (world : World) : Bool :=
  (world.tasks.lookup taskId).any TaskRow.isFailed

/-- The event requeued the task. -/
def isRequeue (taskId : String) (event : QueueEvent) : Bool :=
  match event.statement with
  | .requeue wanted => wanted = taskId && isRequeueable taskId event.found
  | _ => false

/-- The call read a failed task. -/
def isRead (process : ℕ) (event : QueueEvent) : Bool :=
  match event.statement with
  | .selectFailure _ => event.process = process
  | _ => false

/-- What was executed since the call last read a failed task. -/
def sinceRead (process : ℕ) (trace : List QueueEvent) : List QueueEvent :=
  trace.takeWhile fun event => !isRead process event

/-- The update would requeue a task that was requeued since the call read it. -/
def isOvertaken (process : ℕ) (history : QueueHistory) : Statement → Bool
  | .requeue taskId => isRequeueable taskId history.store &&
      (sinceRead process history.trace).any (isRequeue taskId)
  | _ => false

/-- No call requeues a task that another one requeued since it read it. -/
def notOvertaken (maxRetries : ℤ) :
    Schedule QueueCall Statement.Reply World Raised Answer where
  starts := fun _ call => sharesBound maxRetries call = true
  permits := fun process statement history => isOvertaken process history statement = false

instance (maxRetries : ℤ) (pool : QueuePool) (call : QueueCall) :
    Decidable ((notOvertaken maxRetries).starts pool call) :=
  inferInstanceAs (Decidable (_ = true))

instance (maxRetries : ℤ) (process : ℕ) (statement : Statement) (history : QueueHistory) :
    Decidable ((notOvertaken maxRetries).permits process statement history) :=
  inferInstanceAs (Decidable (_ = false))

/-! ## Steps of the budget -/

variable {maxRetries : ℤ} {history later : QueueHistory} {process other : ℕ}
variable {taskId : String} {row : TaskRow} {statement : Statement}

/-- What a statement needs in order to keep the budget. -/
def Affords (maxRetries : ℤ) : Statement → World → Prop
  | .insertTask row, _ => row.retryCount ≤ maxRetries
  | .requeue taskId, world => ∀ row, world.tasks.lookup taskId = some row →
      row.isFailed = true → row.retryCount < maxRetries
  | _, _ => True

theorem IsWithin.execute {world : World} (hwithin : IsWithin maxRetries world)
    (haffords : Affords maxRetries statement world) :
    IsWithin maxRetries (execute statement world).2 := by
  intro taskId last hlast
  have hstep := rowStep_after taskId ⟨0, statement, world⟩
  have hbefore := hwithin taskId
  change RowStep taskId _ (world.tasks.lookup taskId)
    ((TaskQueue.execute statement world).2.tasks.lookup taskId) at hstep
  rw [hlast] at hstep
  generalize hfound : world.tasks.lookup taskId = before at hstep
  cases hstep with
  | same => exact hbefore last hfound
  | added hstatement =>
      dsimp only at hstatement
      rw [hstatement] at haffords
      exact haffords
  | claimed | recovered | reported =>
      have hbound := hbefore _ hfound
      exact hbound
  | @requeued row hstatement _ hfailed =>
      dsimp only at hstatement
      rw [hstatement] at haffords
      have hroom : (row.retryCount : ℤ) < maxRetries := haffords row hfound hfailed
      rw [TaskRow.requeued, Nat.cast_add, Nat.cast_one]
      exact hroom

/-- A statement other than a requeue of the task leaves its number of retries. -/
theorem exists_retryCount_after {event : QueueEvent}
    (hrow : event.found.tasks.lookup taskId = some row)
    (hrequeue : isRequeue taskId event = false) :
    ∃ last, (event.after execute).tasks.lookup taskId = some last ∧
      last.retryCount = row.retryCount := by
  have hstep := rowStep_after taskId event
  rw [hrow] at hstep
  generalize (event.after execute).tasks.lookup taskId = after at hstep
  cases hstep with
  | same => exact ⟨_, rfl, rfl⟩
  | claimed => exact ⟨_, rfl, rfl⟩
  | recovered => exact ⟨_, rfl, rfl⟩
  | reported => exact ⟨_, rfl, rfl⟩
  | requeued hstatement _ hfailed =>
      simp [isRequeue, isRequeueable, hstatement, hrow, hfailed] at hrequeue

def rules (maxRetries : ℤ) : Rules execute :=
  Rules.ofInvariant execute (fun history => IsWithin maxRetries history.store)
    (notOvertaken maxRetries).permits
    (fun _ statement history => Affords maxRetries statement history.store)
    fun hwithin _ haffords => hwithin.execute haffords

/-! ## The row that a call has read -/

/-- Unless the task was requeued since the call read it, it still has the number
of retries that was read. -/
def Tracked (process : ℕ) (taskId : String) (retryCount : ℕ) (history : QueueHistory) : Prop :=
  (sinceRead process history.trace).any (isRequeue taskId) = false →
    ∃ row, history.store.tasks.lookup taskId = some row ∧ row.retryCount = retryCount

variable {retryCount : ℕ}

theorem sinceRead_record (hread : isRead process ⟨other, statement, history.store⟩ = false) :
    sinceRead process (history.record execute other statement).trace =
      ⟨other, statement, history.store⟩ :: sinceRead process history.trace := by
  rw [sinceRead, History.record_trace, List.takeWhile_cons, if_pos (by simp [hread])]
  rfl

theorem Tracked.record (htracked : Tracked process taskId retryCount history)
    (hread : isRead process ⟨other, statement, history.store⟩ = false) :
    Tracked process taskId retryCount (history.record execute other statement) := by
  intro hkept
  rw [sinceRead_record hread, List.any_cons, Bool.or_eq_false_iff] at hkept
  obtain ⟨row, hrow, hcount⟩ := htracked hkept.2
  obtain ⟨last, hlast, hsame⟩ := exists_retryCount_after hrow hkept.1
  exact ⟨last, hlast, hsame.trans hcount⟩

theorem isRead_of_ne {world : World} (hne : other ≠ process) :
    isRead process ⟨other, statement, world⟩ = false := by
  cases statement <;> simp [isRead, hne]

theorem Tracked.rely (htracked : Tracked process taskId retryCount history)
    (hrely : (rules maxRetries).rely process history later) :
    Tracked process taskId retryCount later :=
  Rules.stable_of_interferes (Tracked process taskId retryCount)
    (fun _ _ _ hne _ _ _ hlast => hlast.record (isRead_of_ne hne)) hrely htracked

/-- Reading the task starts to track its number of retries. -/
theorem tracked_read (hrow : history.store.tasks.lookup taskId = some row) :
    Tracked process taskId row.retryCount
      (history.record execute process (.selectFailure taskId)) :=
  fun _ => ⟨row, hrow, rfl⟩

/-! ## The calls -/

/-- The update of a call that read a number of retries below the bound. -/
theorem safe_requeue (htracked : Tracked process taskId retryCount history)
    (hroom : retryCount < maxRetries) :
    (rules maxRetries).Safe process (fun _ _ => True) (fun _ _ => True)
      (send (.requeue taskId)) history := by
  intro updating hrely _ hpermits
  refine ⟨fun row hrow hfailed => ?_, fun _ _ _ => trivial⟩
  have hrequeueable : isRequeueable taskId updating.store = true := by
    rw [isRequeueable, hrow]
    exact hfailed
  have hquiet : (sinceRead process updating.trace).any (isRequeue taskId) = false := by
    change (isRequeueable taskId updating.store && _) = false at hpermits
    rwa [hrequeueable, Bool.true_and] at hpermits
  obtain ⟨stored, hstored, hcount⟩ := htracked.rely hrely hquiet
  rw [hrow, Option.some.injEq] at hstored
  rw [hstored, hcount]
  exact hroom

theorem safe_requeueFailed (taskId : String) :
    (rules maxRetries).Safe process (fun _ _ => True) (fun _ _ => True)
      (requeueFailed taskId maxRetries) history := by
  apply Rules.Safe.call
  intro reading _ _ _
  refine ⟨trivial, ?_⟩
  cases hrow : reading.store.tasks.lookup taskId with
  | none =>
      rw [TaskQueue.execute, hrow]
      exact fun _ _ _ => trivial
  | some row =>
      have htracked : Tracked process taskId row.retryCount
          (reading.record execute process (.selectFailure taskId)) := tracked_read hrow
      rw [TaskQueue.execute, hrow]
      dsimp only [Option.map_some]
      split
      case isTrue => exact fun _ _ _ => trivial
      case isFalse hnot =>
        have hroom : (row.retryCount : ℤ) < maxRetries := not_le.mp (not_or.mp hnot).2
        split
        case h_1 => exact safe_requeue htracked hroom
        case h_2 parentId _ =>
          apply Rules.Safe.call
          intro checking hrely _ _
          refine ⟨trivial, ?_⟩
          have hheld : Tracked process taskId row.retryCount
              (checking.record execute process (.selectOutcome parentId)) :=
            (htracked.rely hrely).record rfl
          change (rules maxRetries).Safe process _ _ (if parentAllows row.allowFailedParent
            ((checking.store.tasks.lookup parentId).map fun row => (row.status, row.result)) = true
              then send (.requeue taskId) else .done false) _
          split
          · exact safe_requeue hheld hroom
          · exact fun _ _ _ => trivial

/-- The other calls neither add a retry nor requeue. -/
theorem safe_body {call : QueueCall} (hshares : sharesBound maxRetries call = true)
    (hwithin : IsWithin maxRetries history.store) :
    (rules maxRetries).Safe process (fun _ _ => True) (fun _ _ => True) call.body history := by
  cases call with
  | requeueFailed taskId bound =>
      rw [sharesBound, decide_eq_true_eq] at hshares
      rw [hshares]
      apply (safe_requeueFailed taskId).andThen _ (fun _ _ _ _ => trivial) hwithin
      exact fun _ _ _ _ _ _ _ => trivial
  | add task =>
      rw [sharesBound, decide_eq_true_eq] at hshares
      have hprogram : (QueueCall.add task).body.Within
          fun statement => ∀ world, Affords maxRetries statement world :=
        (within_add_row (fun _ _ => trivial) (fun _ _ => trivial) task
          fun _ _ _ _ => hshares).bind fun _ => trivial
      exact Rules.safe_of_within (fun _ history hallowed _ _ => hallowed history.store) hprogram
  | _ =>
      apply Rules.safe_of_within _ (QueueCall.within_body _)
      intro statement history hmay _ _
      cases statement with
      | insertTask row =>
          obtain ⟨task, hcall⟩ := hmay.2
          cases hcall
      | requeue taskId =>
          obtain ⟨bound, hcall⟩ := hmay
          cases hcall
      | _ => trivial

/-! ## Every interleaving -/

/-- If no task is requeued while another call is between reading it and its
update, no task is requeued more often than the bound allows. -/
theorem isWithin_of_notOvertaken {start : World} {pool : QueuePool}
    (hstart : IsWithin maxRetries start)
    (hreaches : Pool.Reaches execute QueueCall.body (notOvertaken maxRetries)
      (Pool.idle start) pool) : IsWithin maxRetries pool.history.store := by
  have hidle : (rules maxRetries).invariant ⟨start, []⟩ := hstart
  have hsound : Rules.Sound (rules maxRetries)
      (fun _ (_ : QueueCall) (_ : Answer) _ => True) (fun _ _ _ _ => True) pool := by
    refine Rules.Sound.reaches ?_ ?_ (Rules.Sound.idle hidle) hreaches
    · exact fun _ _ _ hpermits => hpermits
    · intro before call hstarts hwithin _
      exact safe_body hstarts hwithin
  exact hsound.invariant

/-! ## A whole attempt in between -/

/-- The task is claimed and the attempt fails. -/
def failedAttempt (index : ℕ) : List (Move QueueCall) :=
  [.start (.claim "worker-1" none Sample.noon), .advance index, .advance index,
    .start (.fail "worker-1" "task-1" none Sample.noon), .advance (index + 1)]

/-- A task that was added and has failed once. -/
def failedTask : List (Move QueueCall) :=
  [.start (.add (Sample.task "task-1" none false)), .advance 0] ++ failedAttempt 1

/-- One caller requeues the task, and another one finds it failed again. -/
def orderlyMoves : List (Move QueueCall) :=
  failedTask ++ [.start (.requeueFailed "task-1" 2), .advance 3, .advance 3] ++
    failedAttempt 4 ++ [.start (.requeueFailed "task-1" 2), .advance 6, .advance 6]

theorem isWithin_start : IsWithin maxRetries Sample.start := by
  intro taskId row hrow
  cases hrow

theorem isWithin_orderlyMoves :
    IsWithin 2 Sample.start ∧ IsWithin 2 (Sample.pool orderlyMoves).history.store :=
  ⟨isWithin_start, isWithin_of_notOvertaken isWithin_start
    (Pool.reaches_run_of_allows (by decide +kernel))⟩

/-- Both callers read the failed task before one of them requeues it, and it is
claimed and fails before the other one updates it. -/
def overtakenMoves : List (Move QueueCall) :=
  failedTask ++ [.start (.requeueFailed "task-1" 1), .start (.requeueFailed "task-1" 1),
      .advance 3, .advance 4, .advance 4] ++
    failedAttempt 5 ++ [.advance 3]

theorem not_isWithin_overtakenMoves :
    ¬∀ (maxRetries : ℤ) (start : World) (pool : QueuePool), IsWithin maxRetries start →
      Pool.Reaches execute QueueCall.body (sharedBound maxRetries) (Pool.idle start) pool →
        IsWithin maxRetries pool.history.store := by
  intro hall
  have hwithin := hall 1 Sample.start (Sample.pool overtakenMoves) isWithin_start
    (Pool.reaches_run_of_allows (by decide +kernel))
  have hcount : ((Sample.pool overtakenMoves).history.store.tasks.lookup "task-1").map
      TaskRow.retryCount = some 2 := by
    decide +kernel
  obtain ⟨row, hrow, hretries⟩ := Option.map_eq_some_iff.mp hcount
  have hbound := hwithin "task-1" row hrow
  rw [hretries] at hbound
  exact absurd hbound (by decide)

end AegisForge.Shared.TaskQueue.RetryBudget
