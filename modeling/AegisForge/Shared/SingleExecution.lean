import AegisForge.Concurrency.Safety
import AegisForge.Shared.Effects
import AegisForge.Shared.ExecutionSystem

/-!
# A grant runs at most once

An executor starts only after its call moved the grant from `ACTIVE` to
`CONSUMED`.  At most one statement ever takes a grant out of `ACTIVE`, so the
consumptions and revocations of a grant are one at most, and they pay for the
starts of the executor.
-/

namespace AegisForge.Shared.SingleExecution

open AegisForge.Core AegisForge.Concurrency

variable {grantId : String} {world : World} {process : ℕ}

/-! ## Events -/

/-- The grant was consumed. -/
def consumes (grantId : String) (event : Event Statement World) : Bool :=
  match event.statement with
  | .consumeGrant consumed => consumed = grantId && isActive event.found.grants grantId
  | _ => false

/-- The grant was revoked. -/
def revokes (grantId : String) (event : Event Statement World) : Bool :=
  match event.statement with
  | .revokeGrant revoked => revoked = grantId && isActive event.found.grants grantId
  | _ => false

/-- The stored status of the grant. -/
def HasStatus (grantId : String) (status : GrantStatus) (world : World) : Prop :=
  ∃ row, world.grants.lookup grantId = some row ∧ row.status = status

theorem hasStatus_execute {status : GrantStatus} (hfinished : status ≠ .active)
    (hstatus : HasStatus grantId status world) (statement : Statement) :
    HasStatus grantId status (execute statement world).2 := by
  obtain ⟨row, hrow, rfl⟩ := hstatus
  have hafter := lookup_grants_execute hrow statement
  rw [grantEffect_of_finished hfinished] at hafter
  exact ⟨row, hafter, rfl⟩

theorem isActive_iff :
    isActive world.grants grantId = true ↔ HasStatus grantId .active world := by
  rw [isActive, HasStatus]
  simp [Option.any_eq_true]

theorem not_isActive_of_hasStatus {status : GrantStatus} (hfinished : status ≠ .active)
    (hstatus : HasStatus grantId status world) :
    isActive world.grants grantId = false := by
  rw [Bool.eq_false_iff, Ne, isActive_iff]
  rintro ⟨row, hrow, hactive⟩
  obtain ⟨other, hother, hstatus⟩ := hstatus
  rw [hrow, Option.some.injEq] at hother
  subst hother
  exact hfinished (hstatus.symm.trans hactive)

theorem hasStatus_of_consumes {statement : Statement}
    (hconsumes : consumes grantId ⟨process, statement, world⟩ = true) :
    HasStatus grantId .consumed (execute statement world).2 := by
  cases statement with
  | consumeGrant consumed =>
      simp only [consumes, Bool.and_eq_true, decide_eq_true_eq] at hconsumes
      obtain ⟨rfl, hactive⟩ := hconsumes
      obtain ⟨row, hrow, hstatus⟩ := isActive_iff.mp hactive
      have hafter := lookup_grants_execute hrow (.consumeGrant consumed)
      exact ⟨_, hafter, by simp [grantEffect, GrantRow.finish, hstatus]⟩
  | _ => cases hconsumes

theorem hasStatus_of_revokes {statement : Statement}
    (hrevokes : revokes grantId ⟨process, statement, world⟩ = true) :
    HasStatus grantId .revoked (execute statement world).2 := by
  cases statement with
  | revokeGrant revoked =>
      simp only [revokes, Bool.and_eq_true, decide_eq_true_eq] at hrevokes
      obtain ⟨rfl, hactive⟩ := hrevokes
      obtain ⟨row, hrow, hstatus⟩ := isActive_iff.mp hactive
      have hafter := lookup_grants_execute hrow (.revokeGrant revoked)
      exact ⟨_, hafter, by simp [grantEffect, GrantRow.finish, hstatus]⟩
  | _ => cases hrevokes

theorem isActive_of_consumes {event : Event Statement World}
    (hconsumes : consumes grantId event = true) :
    isActive event.found.grants grantId = true := by
  rw [consumes] at hconsumes
  split at hconsumes
  · exact (Bool.and_eq_true_iff.mp hconsumes).2
  · cases hconsumes

/-! ## The account of a grant -/

/-- The consumptions and revocations of a grant, and the starts they pay for. -/
structure Accounted (grantId : String) (history : SystemHistory) : Prop where
  /-- A consumed grant is stored as consumed. -/
  consumed : 0 < history.trace.countP (consumes grantId) →
    HasStatus grantId .consumed history.store
  /-- A revoked grant is stored as revoked. -/
  revoked : 0 < history.trace.countP (revokes grantId) →
    HasStatus grantId .revoked history.store
  /-- A grant is consumed at most once. -/
  once : history.trace.countP (consumes grantId) ≤ 1
  /-- Each start of a call follows a consumption of that call. -/
  paid : ∀ process, (history.own process).countP (starts grantId) ≤
    (history.own process).countP (consumes grantId)
  /-- A grant that some statement found revoked is still stored as revoked. -/
  kept : ∀ event ∈ history.trace, HasStatus grantId .revoked event.found →
    HasStatus grantId .revoked history.store

/-- What a call establishes before it starts the executor: a consumption that
has not been used. -/
def mayStart (grantId : String) (process : ℕ) (statement : Statement)
    (history : SystemHistory) : Prop :=
  statement = .startExecutor grantId →
    (history.own process).countP (starts grantId) <
      (history.own process).countP (consumes grantId)

theorem Accounted.record {history : SystemHistory} {statement : Statement}
    (haccounted : Accounted grantId history)
    (hstart : mayStart grantId process statement history) :
    Accounted grantId (history.record execute process statement) where
  consumed := by
    intro hcount
    rw [History.record_trace, List.countP_cons] at hcount
    by_cases hconsumes : consumes grantId ⟨process, statement, history.store⟩ = true
    · exact hasStatus_of_consumes hconsumes
    · rw [if_neg hconsumes] at hcount
      exact hasStatus_execute (by decide) (haccounted.consumed hcount) statement
  revoked := by
    intro hcount
    rw [History.record_trace, List.countP_cons] at hcount
    by_cases hrevokes : revokes grantId ⟨process, statement, history.store⟩ = true
    · exact hasStatus_of_revokes hrevokes
    · rw [if_neg hrevokes] at hcount
      exact hasStatus_execute (by decide) (haccounted.revoked hcount) statement
  once := by
    rw [History.record_trace, List.countP_cons]
    split
    case isFalse => exact haccounted.once
    case isTrue hconsumes =>
      -- an active grant has not been consumed before
      have hactive := isActive_of_consumes hconsumes
      have hnone : ¬0 < history.trace.countP (consumes grantId) := by
        intro hcount
        have hinactive :=
          not_isActive_of_hasStatus (by decide) (haccounted.consumed hcount)
        rw [hinactive] at hactive
        cases hactive
      omega
  paid := by
    intro other
    by_cases hother : other = process
    · subst hother
      rw [History.own_record_self, List.countP_cons, List.countP_cons]
      have hpaid := haccounted.paid other
      by_cases hstarts : starts grantId ⟨other, statement, history.store⟩ = true
      · have hunused := hstart (starts_iff.mp hstarts)
        rw [if_pos hstarts]
        omega
      · rw [if_neg hstarts]
        omega
    · rw [History.own_record_of_ne execute history statement hother]
      exact haccounted.paid other
  kept := by
    intro event hevent hrevoked
    rcases List.mem_cons.mp hevent with rfl | hevent
    · exact hasStatus_execute (by decide) hrevoked statement
    · exact hasStatus_execute (by decide) (haccounted.kept event hevent hrevoked) statement

def rules (grantId : String) : Rules execute :=
  Rules.ofInvariant execute (Accounted grantId) (fun _ _ _ => True) (mayStart grantId)
    fun haccounted _ hstart => haccounted.record hstart

/-! ## The calls -/

/-- The call has started no executor of the grant. -/
def Unstarted (grantId : String) (process : ℕ) (history : SystemHistory) : Prop :=
  (history.own process).countP (starts grantId) = 0

/-- The call has consumed the grant and started no executor of it. -/
def Paid (grantId : String) (process : ℕ) (history : SystemHistory) : Prop :=
  Unstarted grantId process history ∧ 0 < (history.own process).countP (consumes grantId)

/-- Statements that do not start an executor of the grant. -/
def isQuiet (grantId : String) (statement : Statement) : Prop :=
  statement ≠ .startExecutor grantId

theorem isQuiet_of_isOrdinary (statement : Statement)
    (hordinary : statement.isOrdinary = true) : isQuiet grantId statement := by
  rintro rfl
  cases hordinary

variable {history later : SystemHistory}

theorem own_rely (hrely : (rules grantId).rely process history later) :
    later.own process = history.own process :=
  Rules.own_of_interferes hrely

theorem Unstarted.rely (hunstarted : Unstarted grantId process history)
    (hrely : (rules grantId).rely process history later) :
    Unstarted grantId process later := by
  rw [Unstarted, own_rely hrely]
  exact hunstarted

theorem Unstarted.record (hunstarted : Unstarted grantId process history)
    {statement : Statement} (hquiet : isQuiet grantId statement) :
    Unstarted grantId process (history.record execute process statement) := by
  have hstarts : ¬starts grantId ⟨process, statement, history.store⟩ = true :=
    fun hstarts => hquiet (starts_iff.mp hstarts)
  rw [Unstarted, History.own_record_self, List.countP_cons_of_neg hstarts]
  exact hunstarted

theorem Paid.rely (hpaid : Paid grantId process history)
    (hrely : (rules grantId).rely process history later) : Paid grantId process later := by
  refine ⟨hpaid.1.rely hrely, ?_⟩
  rw [own_rely hrely]
  exact hpaid.2

theorem Paid.record (hpaid : Paid grantId process history) {statement : Statement}
    (hquiet : isQuiet grantId statement) :
    Paid grantId process (history.record execute process statement) := by
  refine ⟨hpaid.1.record hquiet, ?_⟩
  rw [History.own_record_self, List.countP_cons]
  exact Nat.lt_of_lt_of_le hpaid.2 (Nat.le_add_right _ _)

theorem safe_unstarted {Value : Type} {action : Action Value}
    (hwithin : action.Within (isQuiet grantId)) (hunstarted : Unstarted grantId process history) :
    (rules grantId).Safe process (fun _ => Unstarted grantId process)
      (fun _ => Unstarted grantId process) action history :=
  Rules.safe_of_stable (fun _ _ hquiet _ _ _ hstart => absurd hstart hquiet)
    (fun _ _ hheld hrely => hheld.rely hrely)
    (fun _ _ hquiet hheld _ _ => hheld.record hquiet) hwithin hunstarted

theorem safe_paid {Value : Type} {action : Action Value}
    (hwithin : action.Within (isQuiet grantId)) (hpaid : Paid grantId process history) :
    (rules grantId).Safe process (fun _ => Paid grantId process)
      (fun _ => Paid grantId process) action history :=
  Rules.safe_of_stable (fun _ _ hquiet _ _ _ hstart => absurd hstart hquiet)
    (fun _ _ hheld hrely => hheld.rely hrely)
    (fun _ _ hquiet hheld _ _ => hheld.record hquiet) hwithin hpaid

/-- Quiet programs need nothing and promise nothing. -/
theorem safe_quiet {Value : Type} {action : Action Value}
    (hwithin : action.Within (isQuiet grantId)) :
    (rules grantId).Safe process (fun _ _ => True) (fun _ _ => True) action history :=
  Rules.safe_of_within (fun _ _ hquiet _ _ hstart => absurd hstart hquiet) hwithin

/-- A consumption that returns has taken the grant out of `ACTIVE`. -/
theorem safe_consume (hunstarted : Unstarted grantId process history) :
    (rules grantId).Safe process (fun _ => Paid grantId process) (fun _ _ => True)
      (CapabilityGrantStore.consume grantId) history := by
  apply Rules.Safe.call
  intro later hrely _ _
  refine ⟨nofun, ?_⟩
  have hheld := hunstarted.rely hrely
  have hquiet : isQuiet grantId (.consumeGrant grantId) := nofun
  cases hactive : isActive later.store.grants grantId with
  | true =>
      have hreply : (execute (.consumeGrant grantId) later.store).1 = true := hactive
      rw [hreply]
      have hpaid : Paid grantId process
          (later.record execute process (.consumeGrant grantId)) := by
        refine ⟨hheld.record hquiet, ?_⟩
        rw [History.own_record_self, List.countP_cons_of_pos (by simp [consumes, hactive])]
        exact Nat.succ_pos _
      exact fun last hlast _ => hpaid.rely hlast
  | false =>
      have hreply : (execute (.consumeGrant grantId) later.store).1 = false := hactive
      rw [hreply]
      apply Rules.Safe.call
      intro last hlast _ _
      refine ⟨nofun, ?_⟩
      split <;> exact fun _ _ _ => trivial

/-- Aborting the attempt and raising again never returns. -/
theorem safe_abort {Value : Type} {returns : Value → SystemHistory → Prop}
    (execution : Execution) (attemptId : String) (error raised : Raised)
    (hinvariant : Accounted grantId history) :
    (rules grantId).Safe process returns (fun _ _ => True)
      ((ExecutionGate.abort execution attemptId error.message).bind
        fun _ => .fail raised) history := by
  have habort : (ExecutionGate.abort execution attemptId error.message).Within
      (isQuiet grantId) := within_abort isQuiet_of_isOrdinary execution attemptId _
  have hfail : ∀ later, (rules grantId).Safe process returns (fun _ _ => True)
      (.fail raised) later := fun _ _ _ _ => trivial
  exact (safe_quiet habort).andThen (fun _ later _ _ => hfail later)
    (fun _ _ _ _ => trivial) hinvariant

/-- The block before the executor ends only with a consumption of the call's own. -/
theorem safe_beginRunning (execution : Execution) {grant : CapabilityGrant}
    (hgrant : grant.grantId = grantId) (attempt : ExecutionAttempt) (executedAt : Time)
    (hinvariant : Accounted grantId history)
    (hunstarted : Unstarted grantId process history) :
    (rules grantId).Safe process (fun _ => Paid grantId process) (fun _ _ => True)
      (ExecutionGate.beginRunning execution grant attempt executedAt) history := by
  subst hgrant
  have hstart : Program.Within (isQuiet grant.grantId) _ :=
    within_startRunning isQuiet_of_isOrdinary execution grant attempt executedAt
  have hrefused : ∀ (error : Raised) (later : SystemHistory),
      Accounted grant.grantId later → True →
        (rules grant.grantId).Safe process (fun _ => Paid grant.grantId process)
          (fun _ _ => True)
          (if error.cls = .capabilityGrantStoreError then
            (ExecutionGate.abort execution attempt.attemptId error.message).bind
              fun _ => .fail (ExecutionGate.gateError error.message)
          else .fail error : Action Bool) later := by
    intro error later hlater _
    split
    · exact safe_abort execution _ _ _ hlater
    · exact fun _ _ _ => trivial
  have hraised : ∀ (error : Raised) (later : SystemHistory),
      Accounted grant.grantId later → True →
        (rules grant.grantId).Safe process (fun _ => Paid grant.grantId process)
          (fun _ _ => True)
          (if error.cls = .executionGateError then .fail error
          else (ExecutionGate.abort execution attempt.attemptId error.message).bind
              fun _ => .fail error : Action Unit) later := by
    intro error later hlater _
    split
    · exact fun _ _ _ => trivial
    · exact safe_abort execution _ _ _ hlater
  have hconsume := Rules.Safe.orElse (safe_consume hunstarted) hrefused hinvariant
  apply Rules.Safe.orElse _ hraised hinvariant
  apply Rules.Safe.andThen hconsume _ (fun _ _ _ _ => trivial) hinvariant
  intro consumed later _ hpaid
  exact (safe_paid hstart hpaid).weaken (fun _ _ _ h => h) fun _ _ _ _ => trivial

/-- The executor runs on a consumption of the call's own. -/
theorem safe_runAndRecord (execution : Execution) {grant : CapabilityGrant}
    (hgrant : grant.grantId = grantId) (attempt : ExecutionAttempt) (executedAt : Time)
    (hpaid : Paid grantId process history) :
    (rules grantId).Safe process (fun _ _ => True) (fun _ _ => True)
      (ExecutionGate.runAndRecord execution grant attempt executedAt) history := by
  subst hgrant
  apply Rules.Safe.call
  intro later hrely _ _
  have hheld := hpaid.rely hrely
  constructor
  · intro _
    have hunstarted : (later.own process).countP (starts grant.grantId) = 0 := hheld.1
    rw [hunstarted]
    exact hheld.2
  · apply safe_quiet
    refine ⟨nofun, fun _ => ?_⟩
    apply (within_transition isQuiet_of_isOrdinary _ _ _ _).bind
    intro _
    trivial

theorem within_runAndRecord (execution : Execution) {grant : CapabilityGrant}
    (hgrant : grant.grantId ≠ grantId) (attempt : ExecutionAttempt) (executedAt : Time) :
    (ExecutionGate.runAndRecord execution grant attempt executedAt).Within
      (isQuiet grantId) := by
  have hstart : isQuiet grantId (.startExecutor grant.grantId) :=
    fun hsame => hgrant (Statement.startExecutor.inj hsame)
  refine ⟨hstart, fun _ => ⟨nofun, fun _ => ?_⟩⟩
  apply (within_transition isQuiet_of_isOrdinary _ _ _ _).bind
  intro _
  trivial

theorem safe_execute (gate : ExecutionGate) (execution : Execution)
    (hinvariant : Accounted grantId history)
    (hunstarted : Unstarted grantId process history) :
    (rules grantId).Safe process (fun _ _ => True) (fun _ _ => True)
      (gate.execute execution) history := by
  have hauthorize : (gate.authorize execution.signed execution.intent
      execution.evidenceIds execution.now).Within (isQuiet grantId) :=
    within_authorize isQuiet_of_isOrdinary _ _ _ _ _
  have htime : (currentTime execution.now).Within (isQuiet grantId) :=
    within_currentTime isQuiet_of_isOrdinary execution.now
  apply (safe_unstarted hauthorize hunstarted).andThen _ (fun _ _ _ _ => trivial) hinvariant
  intro grant authorized hauthorized hunstarted
  apply Rules.Safe.ofExcept (fun _ _ _ _ _ => trivial)
  intro _ _
  apply (safe_unstarted htime hunstarted).andThen _ (fun _ _ _ _ => trivial) hauthorized
  intro executedAt timed htimed hunstarted
  have hlease : (ExecutionGate.leaseAttempt execution grant).Within (isQuiet grantId) :=
    within_leaseAttempt isQuiet_of_isOrdinary (fun _ => nofun) execution grant
  apply (safe_unstarted hlease hunstarted).andThen _ (fun _ _ _ _ => trivial) htimed
  intro attempt leased hleased hunstarted
  by_cases hgrant : grant.grantId = grantId
  · have hbegin := safe_beginRunning execution hgrant attempt executedAt hleased hunstarted
    apply hbegin.andThen _ (fun _ _ _ _ => trivial) hleased
    intro _ later _ hpaid
    exact safe_runAndRecord execution hgrant attempt executedAt hpaid
  · apply safe_quiet
    apply (within_beginRunning isQuiet_of_isOrdinary execution grant attempt executedAt).bind
    intro _
    exact within_runAndRecord execution hgrant attempt executedAt

theorem safe_body (call : SystemCall) (hinvariant : Accounted grantId history)
    (hown : history.own process = []) :
    (rules grantId).Safe process (fun _ _ => True) (fun _ _ => True) call.body
      history := by
  by_cases hexecute : ∃ gate execution, call = .execute gate execution
  · obtain ⟨gate, execution, rfl⟩ := hexecute
    have hunstarted : Unstarted grantId process history := by
      rw [Unstarted, hown]
      rfl
    apply (safe_execute gate execution hinvariant hunstarted).andThen _
      (fun _ _ _ _ => trivial) hinvariant
    exact fun _ _ _ _ _ _ _ => trivial
  · have hcall : ∀ gate execution, call ≠ .execute gate execution :=
      fun gate execution hsame => hexecute ⟨gate, execution, hsame⟩
    apply safe_quiet
    apply (within_body hcall).mono
    rintro statement hmay rfl
    exact hmay

/-! ## Every interleaving -/

/-- The account of every grant is kept in every reachable pool. -/
theorem accounted_of_reachable {start : World} {pool : SystemPool}
    (hreachable : SystemPool.Reachable start pool) (grantId : String) :
    Accounted grantId pool.history := by
  have hidle : Accounted grantId (⟨start, []⟩ : SystemHistory) := by
    constructor <;> simp [History.own]
  have hsound : Rules.Sound (rules grantId) (fun _ (_ : SystemCall) (_ : Answer) _ => True)
      (fun _ _ _ _ => True) pool :=
    Rules.Sound.reaches (fun _ _ _ _ => trivial)
      (fun _ call _ hinvariant hown => safe_body call hinvariant hown)
      (Rules.Sound.idle hidle) hreachable
  exact hsound.invariant

theorem consumption_of_starts {history : SystemHistory}
    (haccounted : Accounted grantId history) {event : Event Statement World}
    (hevent : event ∈ history.trace) (hstarts : starts grantId event = true) :
    ∃ consumption ∈ history.trace, consumption.process = event.process ∧
      consumes grantId consumption = true := by
  have hown : event ∈ history.own event.process := History.mem_own.mpr ⟨hevent, rfl⟩
  have hstarted : 0 < (history.own event.process).countP (starts grantId) :=
    List.countP_pos_iff.mpr ⟨event, hown, hstarts⟩
  have hpaid := Nat.lt_of_lt_of_le hstarted (haccounted.paid event.process)
  obtain ⟨consumption, hconsumption, hconsumes⟩ := List.countP_pos_iff.mp hpaid
  obtain ⟨htrace, hprocess⟩ := History.mem_own.mp hconsumption
  exact ⟨consumption, htrace, hprocess, hconsumes⟩

/-- What a list holds at most once it holds one value of. -/
theorem eq_of_countP_le_one {α : Type} {holds : α → Bool} {list : List α}
    (hcount : list.countP holds ≤ 1) {first second : α}
    (hfirst : first ∈ list) (hsecond : second ∈ list)
    (hholdsFirst : holds first = true) (hholdsSecond : holds second = true) :
    first = second := by
  rw [List.countP_eq_length_filter] at hcount
  have hinFirst := List.mem_filter.mpr ⟨hfirst, hholdsFirst⟩
  have hinSecond := List.mem_filter.mpr ⟨hsecond, hholdsSecond⟩
  match hfilter : list.filter holds with
  | [] => simp [hfilter] at hinFirst
  | [only] =>
      rw [hfilter, List.mem_singleton] at hinFirst hinSecond
      exact hinFirst.trans hinSecond.symm
  | _ :: _ :: _ =>
      rw [hfilter] at hcount
      simp at hcount

/-- All starts are paid by the one consumption there may be. -/
theorem Accounted.starts_le_one {history : SystemHistory}
    (haccounted : Accounted grantId history) :
    history.trace.countP (starts grantId) ≤ 1 := by
  rcases Nat.eq_zero_or_pos (history.trace.countP (starts grantId)) with hnone | hsome
  · omega
  obtain ⟨event, hevent, hstarts⟩ := List.countP_pos_iff.mp hsome
  obtain ⟨paying, hpaying, hprocess, hconsumes⟩ :=
    consumption_of_starts haccounted hevent hstarts
  have hsame : ∀ other ∈ history.trace,
      starts grantId other = true → other.process = paying.process := by
    intro other hother hstartsOther
    obtain ⟨consumption, hconsumption, hprocessOther, hconsumesOther⟩ :=
      consumption_of_starts haccounted hother hstartsOther
    have hone : consumption = paying :=
      eq_of_countP_le_one haccounted.once hconsumption hpaying hconsumesOther hconsumes
    rw [← hprocessOther, hone]
  have hall : history.trace.countP (starts grantId) =
      (history.own paying.process).countP (starts grantId) := by
    rw [History.own, List.countP_filter]
    apply List.countP_congr
    intro other hother
    have hprocessOther := hsame other hother
    simp only [Bool.and_eq_true, decide_eq_true_eq]
    exact ⟨fun hstartsOther => ⟨hstartsOther, hprocessOther hstartsOther⟩, And.left⟩
  calc history.trace.countP (starts grantId)
      = (history.own paying.process).countP (starts grantId) := hall
    _ ≤ (history.own paying.process).countP (consumes grantId) := haccounted.paid _
    _ ≤ history.trace.countP (consumes grantId) := by
        rw [History.own, List.countP_filter]
        exact List.countP_mono_left fun other _ hother => (Bool.and_eq_true_iff.mp hother).1
    _ ≤ 1 := haccounted.once

/-- The grant was revoked before an event of the trace, in the run or before it. -/
def RevokedBefore (grantId : String) (trace : List (Event Statement World))
    (event : Event Statement World) : Prop :=
  HasStatus grantId .revoked event.found ∨
    ∃ later revocation earlier, trace = later ++ revocation :: earlier ∧
      revokes grantId revocation = true ∧ event ∈ later

theorem Accounted.not_starts_of_revoked {history : SystemHistory}
    (haccounted : Accounted grantId history)
    (hrevoked : HasStatus grantId .revoked history.store) {event : Event Statement World}
    (hevent : event ∈ history.trace) : starts grantId event = false := by
  rw [Bool.eq_false_iff]
  intro hstarts
  obtain ⟨paying, hpaying, -, hconsumes⟩ :=
    consumption_of_starts haccounted hevent hstarts
  obtain ⟨row, hrow, hconsumed⟩ :=
    haccounted.consumed (List.countP_pos_iff.mpr ⟨paying, hpaying, hconsumes⟩)
  obtain ⟨other, hother, hstatus⟩ := hrevoked
  rw [hrow, Option.some.injEq] at hother
  rw [hother, hstatus] at hconsumed
  cases hconsumed

/-- However the calls are interleaved, the executor of a grant starts at most
once, and not in a call that consumes the grant after it was revoked. -/
theorem startsAtMostOnce {start : World} {pool : SystemPool}
    (hreachable : SystemPool.Reachable start pool) (grantId : String) :
    pool.history.trace.countP (starts grantId) ≤ 1 ∧
      ∀ consumption ∈ pool.history.trace,
        consumption.statement = .consumeGrant grantId →
          RevokedBefore grantId pool.history.trace consumption →
            ∀ event ∈ pool.history.trace, event.process = consumption.process →
              starts grantId event = false := by
  have haccounted := accounted_of_reachable hreachable grantId
  refine ⟨haccounted.starts_le_one, ?_⟩
  intro consumption hconsumption _ hbefore event hevent _
  apply haccounted.not_starts_of_revoked _ hevent
  rcases hbefore with hfound | ⟨later, revocation, earlier, htrace, hrevokes, _⟩
  · exact haccounted.kept consumption hconsumption hfound
  · have hmem : revocation ∈ pool.history.trace := by
      rw [htrace]
      exact List.mem_append_right later List.mem_cons_self
    exact haccounted.revoked (List.countP_pos_iff.mpr ⟨revocation, hmem, hrevokes⟩)

/-- Two calls on one grant under different keys, and a revocation. -/
def sampleMoves : List (Move SystemCall) :=
  .start (.execute Sample.gate (Sample.execution "key-1" "1")) ::
    .start (.execute Sample.gate (Sample.execution "key-2" "2")) ::
      .start (.revokeGrant "grant-1") ::
        (Sample.advance 1 16 ++ Sample.advance 0 28 ++ Sample.advance 2 2 ++
          Sample.advance 1 10)

theorem startsAtMostOnce_sampleMoves :
    (Sample.pool sampleMoves).history.trace.countP (starts "grant-1") = 1 ∧
      (Sample.pool sampleMoves).history.trace.countP (starts "grant-1") ≤ 1 :=
  ⟨by decide +kernel, (startsAtMostOnce (Sample.reachable_pool sampleMoves) "grant-1").1⟩

end AegisForge.Shared.SingleExecution
