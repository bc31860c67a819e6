import AegisForge.Concurrency.Safety
import AegisForge.Shared.Effects
import AegisForge.Shared.ExecutionSystem

/-!
# Receipts and recovery

The gate records a receipt by moving its attempt from `RUNNING` to a terminal
state after the executor has ended.  Recovery may close the attempt first; if
it does not, the receipt is returned and recorded for good.
-/

namespace AegisForge.Shared.ReceiptRecording

open AegisForge.Core AegisForge.Concurrency

/-! ## The condition on a run -/

def isFinish (event : Event Statement World) : Bool :=
  match event.statement with
  | .finishExecutor _ => true
  | _ => false

def isRunning (attemptId : String) (world : World) : Bool :=
  (world.attempts.lookup attemptId).any fun row => row.state = .running

/-- The attempt that a call whose executor has ended reads at once afterwards,
or updates. -/
def watched (own : List (Event Statement World)) : Statement → Option String
  | .selectAttempt attemptId => if own.head?.any isFinish then some attemptId else none
  | .updateAttempt change => if own.any isFinish then some change.attemptId else none
  | _ => none

/-- No other call closes an attempt before the receipt of its executor is recorded. -/
def stillRunning : Schedule SystemCall Statement.Reply World Raised Answer where
  starts := fun _ _ => True
  permits := fun process statement history =>
    ((watched (history.own process) statement).all fun attemptId =>
      isRunning attemptId history.store) = true

instance (pool : SystemPool) (call : SystemCall) :
    Decidable (stillRunning.starts pool call) :=
  inferInstanceAs (Decidable True)

instance (process : ℕ) (statement : Statement) (history : SystemHistory) :
    Decidable (stillRunning.permits process statement history) :=
  inferInstanceAs (Decidable (_ = true))

def rules : Rules execute :=
  Rules.ofInvariant execute (fun _ => True) stillRunning.permits (fun _ _ _ => True)
    fun _ _ _ => trivial

/-! ## Before the executor -/

variable {process : ℕ} {history later : SystemHistory} {Value : Type}

/-- No executor of the call has ended. -/
def Unfinished (process : ℕ) (history : SystemHistory) : Prop :=
  (history.own process).any isFinish = false

theorem Unfinished.rely (hunfinished : Unfinished process history)
    (hrely : rules.rely process history later) : Unfinished process later := by
  have hown : later.own process = history.own process := Rules.own_of_interferes hrely
  rw [Unfinished, hown]
  exact hunfinished

/-- Statements that end no executor. -/
def isQuiet (statement : Statement) : Prop := ∀ grantId, statement ≠ .finishExecutor grantId

theorem isQuiet_of_isOrdinary (statement : Statement)
    (hordinary : statement.isOrdinary = true) : isQuiet statement := by
  rintro grantId rfl
  cases hordinary

theorem Unfinished.record (hunfinished : Unfinished process history)
    {statement : Statement} (hquiet : isQuiet statement) :
    Unfinished process (history.record execute process statement) := by
  have hfinish : isFinish ⟨process, statement, history.store⟩ = false := by
    rw [isFinish]
    split
    case h_1 grantId hstatement => exact absurd hstatement (hquiet grantId)
    case h_2 => rfl
  rw [Unfinished, History.own_record_self, List.any_cons, hfinish]
  exact hunfinished

theorem safe_unfinished {action : Action Value} (hwithin : action.Within isQuiet)
    (hunfinished : Unfinished process history) :
    rules.Safe process (fun _ => Unfinished process) (fun _ => Unfinished process) action
      history :=
  Rules.safe_of_stable (fun _ _ _ _ _ _ => trivial) (fun _ _ hheld hrely => hheld.rely hrely)
    (fun _ _ hquiet hheld _ _ => hheld.record hquiet) hwithin hunfinished

theorem safe_any (action : Action Value) :
    rules.Safe process (fun _ _ => True) (fun _ _ => True) action history :=
  Rules.safe_of_within (fun _ _ _ _ _ => trivial) (Program.within_true action)

theorem safe_getAttempt (attemptId : String) :
    rules.Safe process (fun attempt _ => attempt.attemptId = attemptId) (fun _ _ => True)
      (ExecutionAttemptStore.get attemptId) history := by
  apply Rules.Safe.call
  intro reading _ _ _
  refine ⟨trivial, ?_⟩
  have hreply : (execute (.selectAttempt attemptId) reading.store).1 =
      reading.store.attempts.lookup attemptId := rfl
  rw [hreply]
  cases hrow : reading.store.attempts.lookup attemptId with
  | none => exact fun _ _ _ => trivial
  | some row => exact fun _ _ _ => Table.key_of_lookup hrow

theorem safe_transition (attemptId : String) (newState : ExecutionAttemptState)
    (now : Option Time) (fields : ExecutionAttemptStore.TransitionFields) :
    rules.Safe process (fun attempt _ => attempt.attemptId = attemptId) (fun _ _ => True)
      (ExecutionAttemptStore.transition attemptId newState now fields) history := by
  apply (safe_any _).andThen _ (fun _ _ _ _ => trivial) trivial
  intro current later _ _
  split
  case isFalse => exact fun _ _ _ => trivial
  case isTrue =>
    apply (safe_any _).andThen _ (fun _ _ _ _ => trivial) trivial
    intro moment later _ _
    apply (safe_any _).andThen _ (fun _ _ _ _ => trivial) trivial
    intro written later _ _
    apply Rules.Safe.raiseIf (fun _ _ _ _ => trivial)
    intro _
    exact safe_getAttempt attemptId

/-- The id that `create` gives to the attempt of an execution. -/
def attemptIdOf (execution : Execution) : String := "attempt_" ++ execution.uuid

theorem safe_create (taskId grantId intentHash idempotencyKey : String)
    (now : Option Time) (retry : Bool) (uuid : String) :
    rules.Safe process (fun attempt _ => attempt.attemptId = "attempt_" ++ uuid)
      (fun _ _ => True)
      (ExecutionAttemptStore.create taskId grantId intentHash idempotencyKey now retry uuid)
      history := by
  apply Rules.Safe.raiseIf (fun _ _ _ _ => trivial)
  intro _
  apply Rules.Safe.raiseIf (fun _ _ _ _ => trivial)
  intro _
  apply Rules.Safe.raiseIf (fun _ _ _ _ => trivial)
  intro _
  apply Rules.Safe.raiseIf (fun _ _ _ _ => trivial)
  intro _
  apply (safe_any _).andThen _ (fun _ _ _ _ => trivial) trivial
  intro created later _ _
  apply (safe_any _).andThen _ (fun _ _ _ _ => trivial) trivial
  intro previous later _ _
  apply Rules.Safe.ofExcept (fun _ _ _ _ _ => trivial)
  intro attemptNumber _
  apply (safe_any _).andThen _ (fun _ _ _ _ => trivial) trivial
  intro inserted later _ _
  split
  · exact fun _ _ _ => rfl
  · exact fun _ _ _ => trivial
  · exact fun _ _ _ => trivial

theorem safe_leaseAttempt (execution : Execution) (grant : CapabilityGrant) :
    rules.Safe process (fun attempt _ => attempt.attemptId = attemptIdOf execution)
      (fun _ _ => True) (ExecutionGate.leaseAttempt execution grant) history := by
  apply Rules.Safe.mapError _ trivial
  apply (safe_create _ _ _ _ _ _ _).andThen _ (fun _ _ _ _ => trivial) trivial
  intro attempt later _ hattempt
  rw [attemptIdOf, ← hattempt]
  exact safe_transition _ _ _ _

/-! ## After the executor -/

/-- An executor of the call has ended. -/
def Ended (process : ℕ) (history : SystemHistory) : Prop :=
  (history.own process).any isFinish = true

theorem Ended.rely (hended : Ended process history)
    (hrely : rules.rely process history later) : Ended process later := by
  have hown : later.own process = history.own process := Rules.own_of_interferes hrely
  rw [Ended, hown]
  exact hended

theorem Ended.record (hended : Ended process history) (statement : Statement) :
    Ended process (history.record execute process statement) := by
  rw [Ended, History.own_record_self, List.any_cons, hended, Bool.or_true]

def outcomeState : ExecutorOutcome → ExecutionAttemptState
  | .returned _ => .succeeded
  | .raised _ _ => .failed

theorem outcomeState_terminal (outcome : ExecutorOutcome) :
    outcomeState outcome ∈ ExecutionAttemptState.terminal := by
  cases outcome <;> simp [outcomeState, ExecutionAttemptState.terminal]

theorem outcomeState_allowed (outcome : ExecutorOutcome) :
    outcomeState outcome ∈ ExecutionAttemptState.running.allowed := by
  cases outcome <;> simp [outcomeState, ExecutionAttemptState.allowed]

theorem terminalState_receipt (execution : Execution) (grant : CapabilityGrant)
    (executedAt : Time) :
    ExecutionGate.terminalState (ExecutionGate.receipt execution grant executedAt) =
      outcomeState execution.outcome := by
  rw [ExecutionGate.terminalState, ExecutionGate.receipt]
  cases execution.outcome <;> rfl

/-- The attempt of the execution ended as its executor did, with its receipt. -/
def Recorded (execution : Execution) (world : World) : Prop :=
  ∃ row, world.attempts.lookup (attemptIdOf execution) = some row ∧
    row.state = outcomeState execution.outcome ∧
      row.receiptId = ExecutionGate.receiptId execution

variable {execution : Execution}

theorem Recorded.execute {world : World} (hrecorded : Recorded execution world)
    (statement : Statement) : Recorded execution (execute statement world).2 := by
  obtain ⟨row, hrow, hstate, hreceipt⟩ := hrecorded
  have hterminal : row.state ∈ ExecutionAttemptState.terminal := by
    rw [hstate]
    exact outcomeState_terminal _
  have hafter := lookup_attempts_execute hrow statement
  rw [attemptEffect_of_terminal hterminal] at hafter
  exact ⟨row, hafter, hstate, hreceipt⟩

theorem Recorded.rely (hrecorded : Recorded execution history.store)
    (hrely : rules.rely process history later) : Recorded execution later.store :=
  Rules.stable_of_interferes (fun last => Recorded execution last.store)
    (fun _ statement _ _ _ _ _ hlast => hlast.execute statement) hrely hrecorded

theorem receiptId_ne_empty (execution : Execution) :
    ExecutionGate.receiptId execution ≠ "" := by
  intro hempty
  have hlist := congrArg String.toList hempty
  simp [ExecutionGate.receiptId, String.toList_append] at hlist

/-- The `UPDATE` of a running attempt with the receipt of its execution. -/
theorem recorded_of_update {world : World} {current : ExecutionAttempt}
    (hallowed : outcomeState execution.outcome ∈ current.state.allowed)
    (hid : current.attemptId = attemptIdOf execution) (hstate : current.state = .running)
    (moment : Time) (error : String)
    (hrunning : isRunning (attemptIdOf execution) world = true) :
    let change := ExecutionAttemptStore.change current (outcomeState execution.outcome)
      hallowed { receiptId := ExecutionGate.receiptId execution, error := error } moment
    (Shared.execute (.updateAttempt change) world).1 = true ∧
      Recorded execution (Shared.execute (.updateAttempt change) world).2 := by
  intro change
  obtain ⟨row, hrow, hrowState⟩ := Option.any_eq_true _ _ |>.mp hrunning
  have hexpected : row.state = change.expected :=
    (of_decide_eq_true hrowState).trans hstate.symm
  have hafter := lookup_attempts_execute hrow (.updateAttempt change)
  constructor
  · have hid' : change.attemptId = attemptIdOf execution := hid
    simp [Shared.execute, hid', hrow, hexpected]
  · have heffect : attemptEffect (attemptIdOf execution) row (.updateAttempt change) =
        change.values row := by
      have hid' : change.attemptId = attemptIdOf execution := hid
      rw [attemptEffect, if_pos hid', AttemptChange.apply, if_pos hexpected]
    rw [heffect] at hafter
    exact ⟨_, hafter, rfl,
      coalesce_of_ne_empty (receiptId_ne_empty execution) row.receiptId⟩

theorem safe_getRecorded (hrecorded : Recorded execution history.store) :
    rules.Safe process (fun _ last => Recorded execution last.store) (fun _ _ => False)
      (ExecutionAttemptStore.get (attemptIdOf execution)) history := by
  apply Rules.Safe.call
  intro reading hrely _ _
  refine ⟨trivial, ?_⟩
  have hheld : Recorded execution reading.store := hrecorded.rely hrely
  obtain ⟨row, hrow, -⟩ := hrecorded.rely hrely
  have hreply : (Shared.execute (.selectAttempt (attemptIdOf execution)) reading.store).1 =
      some row := hrow
  rw [hreply]
  have hread : Recorded execution
      (reading.record Shared.execute process (.selectAttempt (attemptIdOf execution))).store := hheld
  exact fun last hlast _ => hread.rely hlast

/-- Right after the executor the attempt that is read is running. -/
theorem safe_getRunning {attemptId : String}
    (hhead : ((history.own process).head?.any isFinish) = true) :
    rules.Safe process
      (fun attempt last => (attempt.attemptId = attemptId ∧ attempt.state = .running) ∧
        Ended process last)
      (fun _ _ => False) (ExecutionAttemptStore.get attemptId) history := by
  apply Rules.Safe.call
  intro reading hrely _ hpermits
  refine ⟨trivial, ?_⟩
  have hown : reading.own process = history.own process := Rules.own_of_interferes hrely
  have hpermitted : ((watched (reading.own process) (.selectAttempt attemptId)).all
      fun attemptId => isRunning attemptId reading.store) = true := hpermits
  rw [hown, watched, if_pos hhead, Option.all_some] at hpermitted
  obtain ⟨row, hrow, hstate⟩ := Option.any_eq_true _ _ |>.mp hpermitted
  have hreply : (Shared.execute (.selectAttempt attemptId) reading.store).1 = some row := hrow
  rw [hreply]
  have hended : Ended process history := by
    obtain ⟨event, hevent, hfinish⟩ := Option.any_eq_true _ _ |>.mp hhead
    exact List.any_eq_true.mpr ⟨event, List.mem_of_mem_head? hevent, hfinish⟩
  have hended' := (hended.rely hrely).record (.selectAttempt attemptId)
  exact fun last hlast _ =>
    ⟨⟨Table.key_of_lookup hrow, of_decide_eq_true hstate⟩, hended'.rely hlast⟩

theorem safe_currentTime (hended : Ended process history) (now : Option Time) :
    rules.Safe process (fun _ => Ended process) (fun _ _ => False) (currentTime now)
      history := by
  cases now with
  | some now => exact fun last hlast _ => hended.rely hlast
  | none =>
      intro reading hrely _ _
      exact ⟨trivial, fun last hlast _ => ((hended.rely hrely).record .readClock).rely hlast⟩

/-- Recording a receipt right after the executor ends it on the attempt. -/
theorem safe_recordReceipt (now : Option Time) (error : String)
    (hhead : ((history.own process).head?.any isFinish) = true) :
    rules.Safe process (fun _ last => Recorded execution last.store) (fun _ _ => False)
      (ExecutionAttemptStore.transition (attemptIdOf execution)
        (outcomeState execution.outcome) now
        { receiptId := ExecutionGate.receiptId execution, error := error }) history := by
  apply (safe_getRunning hhead).andThen _ (fun _ _ _ hfalse => hfalse) trivial
  rintro current later - ⟨⟨hid, hstate⟩, hended⟩
  have hallowed : outcomeState execution.outcome ∈ current.state.allowed := by
    rw [hstate]
    exact outcomeState_allowed _
  rw [dif_pos hallowed]
  apply (safe_currentTime hended now).andThen _ (fun _ _ _ hfalse => hfalse) trivial
  intro moment timed _ hended
  apply Rules.Safe.call
  intro updating hrely _ hpermits
  refine ⟨trivial, ?_⟩
  have hown : (updating.own process).any isFinish = true := hended.rely hrely
  have hpermitted : isRunning current.attemptId updating.store = true := by
    have hall : ((watched (updating.own process) (.updateAttempt
        (ExecutionAttemptStore.change current (outcomeState execution.outcome) hallowed
          { receiptId := ExecutionGate.receiptId execution, error := error } moment))).all
        fun attemptId => isRunning attemptId updating.store) = true := hpermits
    rw [watched, if_pos hown, Option.all_some] at hall
    exact hall
  rw [hid] at hpermitted
  obtain ⟨hwritten, hrecorded⟩ :=
    recorded_of_update hallowed hid hstate moment error hpermitted
  rw [hwritten]
  apply Rules.Safe.raiseIf (fun hfalse => Bool.noConfusion hfalse)
  intro _
  exact safe_getRecorded hrecorded

/-! ## The calls -/

/-- What `execute` answers when it returns. -/
def Returned (execution : Execution) (receipt : ExecutionReceipt) (world : World) : Prop :=
  (∃ grant executedAt, receipt = ExecutionGate.receipt execution grant executedAt) ∧
    Recorded execution world

/-- Once the executor has ended, the receipt is recorded and returned. -/
theorem safe_runAndRecord (grant : CapabilityGrant) {attempt : ExecutionAttempt}
    (hattempt : attempt.attemptId = attemptIdOf execution) (executedAt : Time) :
    rules.Safe process (fun receipt last => Returned execution receipt last.store)
      (fun _ _ => False)
      (ExecutionGate.runAndRecord execution grant attempt executedAt) history := by
  apply Rules.Safe.call
  intro starting hstarting _ _
  refine ⟨trivial, ?_⟩
  apply Rules.Safe.call
  intro finishing hfinishing _ _
  refine ⟨trivial, ?_⟩
  have hhead : (((finishing.record Shared.execute process
      (.finishExecutor grant.grantId)).own process).head?.any isFinish) = true := by
    rw [History.own_record_self]
    rfl
  dsimp only
  rw [hattempt, terminalState_receipt]
  apply (safe_recordReceipt execution.now _ hhead).andThen _ (fun _ _ _ hfalse => hfalse)
    trivial
  intro attempt later _ hrecorded
  exact fun last hlast _ => ⟨⟨grant, executedAt, rfl⟩, hrecorded.rely hlast⟩

/-- A call of `execute` returns its receipt with the attempt recorded, or raises
before an executor of its own has ended. -/
theorem safe_execute (gate : ExecutionGate) (execution : Execution)
    (hunfinished : Unfinished process history) :
    rules.Safe process (fun receipt last => Returned execution receipt last.store)
      (fun _ => Unfinished process) (gate.execute execution) history := by
  have hauthorize : (gate.authorize execution.signed execution.intent
      execution.evidenceIds execution.now).Within isQuiet :=
    within_authorize isQuiet_of_isOrdinary _ _ _ _ _
  apply (safe_unfinished hauthorize hunfinished).andThen _ (fun _ _ _ hraised => hraised)
    trivial
  intro grant authorized _ hunfinished
  apply Rules.Safe.ofExcept (fun _ _ last hlast _ => hunfinished.rely hlast)
  intro _ _
  have htime : (currentTime execution.now).Within isQuiet :=
    within_currentTime isQuiet_of_isOrdinary execution.now
  apply (safe_unfinished htime hunfinished).andThen _ (fun _ _ _ hraised => hraised) trivial
  intro executedAt timed _ hunfinished
  have hquiet : (ExecutionGate.leaseAttempt execution grant).Within isQuiet :=
    within_leaseAttempt isQuiet_of_isOrdinary (fun _ _ => nofun) execution grant
  have hidentified : rules.Safe process
      (fun attempt _ => attempt.attemptId = attemptIdOf execution) (fun _ _ => True)
      (ExecutionGate.leaseAttempt execution grant) timed :=
    safe_leaseAttempt execution grant
  have hlease := hidentified.and (safe_unfinished hquiet hunfinished)
  apply hlease.andThen _ (fun _ _ _ hraised => hraised.2) trivial
  rintro attempt leased - ⟨hattempt, hunfinished⟩
  have hbegin : (ExecutionGate.beginRunning execution grant attempt executedAt).Within
      isQuiet := within_beginRunning isQuiet_of_isOrdinary execution grant attempt executedAt
  apply (safe_unfinished hbegin hunfinished).andThen _ (fun _ _ _ hraised => hraised) trivial
  intro _ running _ _
  apply (safe_runAndRecord grant hattempt executedAt).weaken
  · exact fun _ _ _ hreturned => hreturned
  · exact fun _ _ _ hfalse => hfalse.elim

/-- What a call of the system answers, if it is one of `execute`. -/
def returned (_ : ℕ) (call : SystemCall) (value : Answer) (history : SystemHistory) : Prop :=
  match call with
  | .execute _ execution =>
      ∃ receipt, value = .receipt receipt ∧ Returned execution receipt history.store
  | _ => True

/-- No executor of a call of `execute` that raised had ended. -/
def raised (process : ℕ) (call : SystemCall) (_ : Raised) (history : SystemHistory) : Prop :=
  match call with
  | .execute _ _ => Unfinished process history
  | _ => True

theorem safe_body (call : SystemCall) (hown : history.own process = []) :
    rules.Safe process (returned process call) (raised process call) call.body history := by
  cases call with
  | execute gate execution =>
      have hunfinished : Unfinished process history := by
        rw [Unfinished, hown]
        rfl
      have hexecute := safe_execute gate execution hunfinished
      apply hexecute.andThen _ (fun _ _ _ hraised => hraised) trivial
      rintro receipt later - ⟨hreceipt, hrecorded⟩
      exact fun last hlast _ => ⟨receipt, rfl, hreceipt, hrecorded.rely hlast⟩
  | _ => exact safe_any _

/-! ## Every interleaving -/

/-- A call of `execute` whose executor has ended is over, and did not return its
receipt or does not have it recorded on its attempt. -/
def LosesReceipt (pool : SystemPool) : Prop :=
  ∃ index gate execution rest,
    pool.processes[index]? = some ⟨.execute gate execution, rest⟩ ∧
      rest.isFinished = true ∧ Ended index pool.history ∧
        ¬∃ receipt, rest = .done (.receipt receipt) ∧
          Returned execution receipt pool.history.store

/-- If recovery leaves the attempts of ended executors alone until they are
recorded, no receipt is lost. -/
theorem not_losesReceipt_of_stillRunning {start : World} {pool : SystemPool}
    (hreaches : Pool.Reaches execute SystemCall.body stillRunning (Pool.idle start) pool) :
    ¬LosesReceipt pool := by
  have hsound : Rules.Sound rules returned raised pool := by
    refine Rules.Sound.reaches ?_ ?_ (Rules.Sound.idle trivial) hreaches
    · exact fun _ _ _ hpermits => hpermits
    · intro before call _ _ hown
      exact safe_body call hown
  rintro ⟨index, gate, execution, rest, hprocess, hfinished, hended, hlost⟩
  cases rest with
  | step statement next => cases hfinished
  | done value =>
      obtain ⟨receipt, rfl, hreturned⟩ := hsound.of_done hprocess
      exact hlost ⟨receipt, rfl, hreturned⟩
  | fail error =>
      have hunfinished : Unfinished index pool.history := hsound.of_fail hprocess
      rw [Unfinished, hended] at hunfinished
      cases hunfinished

/-! ## Recovery before the receipt -/

/-- A run of the grant and leases that expire meanwhile. -/
def orderlyMoves : List (Move SystemCall) :=
  [.start (.execute Sample.gate (Sample.execution "key-1" "1")),
    .start (.expireLeases none)] ++
      (Sample.advance 0 20 ++ Sample.advance 1 10 ++ Sample.advance 0 8)

theorem not_losesReceipt_orderlyMoves : ¬LosesReceipt (Sample.pool orderlyMoves) :=
  not_losesReceipt_of_stillRunning (Sample.reaches_pool (by decide +kernel))

/-- A recovery whose verifier confirms the side effect of the attempt. -/
def recovery : SystemCall :=
  .retryIfSafe { recoveryEvidence := ⟨fun body => body.eventType ++ body.prevHash⟩ }
    "attempt_1"
    { intent := Sample.intent
      verification := .ok ⟨.sideEffectConfirmed, "verifier-1", "outcome-1"⟩
      recoveryUuid := "1"
      claimUuid := "1"
      attemptUuid := "2" } none

/-- The recovery runs between the end of the executor and the gate's update. -/
def recoveredMoves : List (Move SystemCall) :=
  [.start (.execute Sample.gate (Sample.execution "key-1" "1")), .start recovery] ++
    (Sample.advance 0 24 ++ Sample.advance 1 30 ++ Sample.advance 0 4)

/-- The executor has run to its end, and `execute` raises. -/
theorem losesReceipt_recoveredMoves :
    ¬∀ (start : World) (pool : SystemPool), SystemPool.Reachable start pool →
      ¬LosesReceipt pool := by
  intro hall
  apply hall Sample.world (Sample.pool recoveredMoves) (Sample.reachable_pool recoveredMoves)
  have hcall : (Sample.pool recoveredMoves).call? 0 =
      some (.execute Sample.gate (Sample.execution "key-1" "1")) :=
    Sample.call?_pool _ _ rfl
  have hraised : ((Sample.pool recoveredMoves).processes[0]?.any fun process =>
      process.rest.hasRaised) = true := by decide +kernel
  have hended : Ended 0 (Sample.pool recoveredMoves).history := by
    rw [Ended]
    decide +kernel
  obtain ⟨⟨call, rest⟩, hprocess, hrest⟩ := Option.any_eq_true _ _ |>.mp hraised
  rw [Pool.call?, hprocess, Option.map_some, Option.some.injEq] at hcall
  dsimp only at hcall hrest
  subst hcall
  cases rest with
  | fail error => exact ⟨0, _, _, _, hprocess, rfl, hended, by rintro ⟨_, ⟨⟩, _⟩⟩
  | _ => cases hrest

end AegisForge.Shared.ReceiptRecording
