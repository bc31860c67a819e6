import AegisForge.Concurrency.Safety
import AegisForge.Shared.Effects
import AegisForge.Shared.ExecutionSystem

/-!
# Execution after authority was withdrawn

The gate compares the grant's epoch with the registry row once, in
`authorize`, and consumes the grant some statements later.  Every withdrawal
advances the epoch for good, so a grant is safe from an earlier withdrawal if
the row that was compared is still stored when the grant is consumed.
-/

namespace AegisForge.Shared.WithdrawnAuthority

open AegisForge.Core AegisForge.Concurrency

variable {agentId : String} {epoch : ℕ} {world : World}

/-! ## Epochs -/

/-- The stored epoch of the agent is later than `epoch`. -/
def Outdated (agentId : String) (epoch : ℕ) (world : World) : Prop :=
  ∃ row, world.registry.lookup agentId = some row ∧ epoch < row.authorityEpoch

/-- A suspension, reset or rotation of the agent committed its last write while
the agent's authority was at `epoch` or later. -/
def withdraws (agentId : String) (epoch : ℕ) (event : Event Statement World) : Bool :=
  match event.statement with
  | .incrementEpoch wanted =>
      wanted = agentId &&
        (event.found.registry.lookup agentId).any fun row => epoch ≤ row.authorityEpoch
  | .updatePolicyVersion wanted _ =>
      wanted = agentId &&
        (event.found.registry.lookup agentId).any fun row => epoch ≤ row.authorityEpoch
  | _ => false

/-- Epochs never go back. -/
theorem outdated_execute (houtdated : Outdated agentId epoch world)
    (statement : Statement) : Outdated agentId epoch (execute statement world).2 := by
  obtain ⟨row, hrow, hepoch⟩ := houtdated
  have hafter := lookup_registry_execute agentId statement world
  rw [hrow] at hafter
  rw [Outdated, hafter]
  cases statement with
  | insertRegistryRow wanted policyVersion =>
      rw [registryEffect]
      split
      · exact ⟨row, rfl, hepoch⟩
      · exact ⟨row, rfl, hepoch⟩
  | incrementEpoch wanted =>
      rw [registryEffect]
      split
      · exact ⟨row.nextEpoch, rfl, Nat.lt_succ_of_lt hepoch⟩
      · exact ⟨row, rfl, hepoch⟩
  | updatePolicyVersion wanted policyVersion =>
      rw [registryEffect]
      split
      · exact ⟨row.rotate policyVersion, rfl, Nat.lt_succ_of_lt hepoch⟩
      · exact ⟨row, rfl, hepoch⟩
  | _ => exact ⟨row, rfl, hepoch⟩

theorem outdated_of_withdraws {process : ℕ} {statement : Statement}
    (hwithdraws : withdraws agentId epoch ⟨process, statement, world⟩ = true) :
    Outdated agentId epoch (execute statement world).2 := by
  rw [Outdated, lookup_registry_execute]
  cases statement with
  | incrementEpoch wanted =>
      simp only [withdraws, Bool.and_eq_true, decide_eq_true_eq, Option.any_eq_true]
        at hwithdraws
      obtain ⟨rfl, row, hrow, hepoch⟩ := hwithdraws
      rw [registryEffect, if_pos rfl, hrow]
      exact ⟨row.nextEpoch, rfl, Nat.lt_succ_of_le hepoch⟩
  | updatePolicyVersion wanted policyVersion =>
      simp only [withdraws, Bool.and_eq_true, decide_eq_true_eq, Option.any_eq_true]
        at hwithdraws
      obtain ⟨rfl, row, hrow, hepoch⟩ := hwithdraws
      rw [registryEffect, if_pos rfl, hrow]
      exact ⟨row.rotate policyVersion, rfl, Nat.lt_succ_of_le hepoch⟩
  | _ => cases hwithdraws

/-! ## The condition on a run -/

/-- What a statement that read the registry row answered is still stored. -/
def rowIsCurrent (world : World) (event : Event Statement World) : Bool :=
  match event.statement with
  | .selectRegistryRow agentId =>
      world.registry.lookup agentId = event.found.registry.lookup agentId
  | _ => true

def isConsumption : Statement → Bool
  | .consumeGrant _ => true
  | _ => false

/-- Whenever a call consumes a grant, the registry row that it read is current. -/
def currentAuthority : Schedule SystemCall Statement.Reply World Raised Answer where
  starts := fun _ _ => True
  permits := fun process statement history =>
    isConsumption statement = true →
      ((history.own process).all (rowIsCurrent history.store)) = true

instance (pool : SystemPool) (call : SystemCall) :
    Decidable (currentAuthority.starts pool call) :=
  inferInstanceAs (Decidable True)

instance (process : ℕ) (statement : Statement) (history : SystemHistory) :
    Decidable (currentAuthority.permits process statement history) :=
  inferInstanceAs (Decidable (isConsumption statement = true → _ = true))

/-! ## The invariant -/

/-- The stored epoch of the agent. -/
def HasEpoch (agentId : String) (epoch : ℕ) (world : World) : Prop :=
  ∃ row, world.registry.lookup agentId = some row ∧ row.authorityEpoch = epoch

/-- The stored epoch of the grant's agent is the grant's. -/
def IsAtEpoch (grant : CapabilityGrant) (world : World) : Prop :=
  HasEpoch grant.agentId grant.authorityEpoch world

/-- The calls of the pool are known in advance as `calls`. -/
structure Timely (calls : ℕ → Option SystemCall) (history : SystemHistory) : Prop where
  /-- A withdrawal has advanced the stored epoch. -/
  stored : ∀ event ∈ history.trace, ∀ agentId epoch,
    withdraws agentId epoch event = true → Outdated agentId epoch history.store
  /-- Every statement after a withdrawal found the advanced epoch. -/
  found : history.trace.Pairwise fun later earlier => ∀ agentId epoch,
    withdraws agentId epoch earlier = true → Outdated agentId epoch later.found
  /-- A grant is consumed at its own epoch. -/
  consumed : ∀ event ∈ history.trace, isConsumption event.statement = true →
    ∀ gate execution, calls event.process = some (.execute gate execution) →
      IsAtEpoch execution.signed.grant event.found

/-- What a call establishes before it consumes its grant. -/
def mayConsume (calls : ℕ → Option SystemCall) (process : ℕ) (statement : Statement)
    (history : SystemHistory) : Prop :=
  isConsumption statement = true → ∀ gate execution,
    calls process = some (.execute gate execution) →
      IsAtEpoch execution.signed.grant history.store

variable {calls : ℕ → Option SystemCall} {history later : SystemHistory} {process : ℕ}

theorem Timely.record {statement : Statement} (htimely : Timely calls history)
    (hconsume : mayConsume calls process statement history) :
    Timely calls (history.record execute process statement) where
  stored := by
    intro event hevent agentId epoch hwithdraws
    rcases List.mem_cons.mp hevent with rfl | hevent
    · exact outdated_of_withdraws hwithdraws
    · exact outdated_execute (htimely.stored event hevent agentId epoch hwithdraws) statement
  found := by
    rw [History.record_trace, List.pairwise_cons]
    exact ⟨htimely.stored, htimely.found⟩
  consumed := by
    intro event hevent hconsumption gate execution hcall
    rcases List.mem_cons.mp hevent with rfl | hevent
    · exact hconsume hconsumption gate execution hcall
    · exact htimely.consumed event hevent hconsumption gate execution hcall

def rules (calls : ℕ → Option SystemCall) : Rules execute :=
  Rules.ofInvariant execute (Timely calls) currentAuthority.permits (mayConsume calls)
    fun htimely _ hconsume => htimely.record hconsume

/-! ## The calls -/

/-- The call has read the agent's registry row at `epoch`. -/
def Checked (agentId : String) (epoch process : ℕ) (history : SystemHistory) : Prop :=
  ∃ event ∈ history.own process,
    event.statement = .selectRegistryRow agentId ∧ HasEpoch agentId epoch event.found

theorem Checked.rely (hchecked : Checked agentId epoch process history)
    (hrely : (rules calls).rely process history later) :
    Checked agentId epoch process later := by
  have hown : later.own process = history.own process := Rules.own_of_interferes hrely
  rw [Checked, hown]
  exact hchecked

theorem Checked.record (hchecked : Checked agentId epoch process history)
    (statement : Statement) :
    Checked agentId epoch process (history.record execute process statement) := by
  obtain ⟨event, hevent, hstatement, hepoch⟩ := hchecked
  refine ⟨event, ?_, hstatement, hepoch⟩
  rw [History.own_record_self]
  exact List.mem_cons_of_mem _ hevent

/-- The call has compared its grant's epoch with the registry row. -/
def GrantChecked (grant : CapabilityGrant) (process : ℕ) (history : SystemHistory) : Prop :=
  Checked grant.agentId grant.authorityEpoch process history

/-- Under the condition, a call that has checked the epoch may consume. -/
theorem GrantChecked.mayConsume {gate : ExecutionGate} {execution : Execution}
    (hchecked : GrantChecked execution.signed.grant process history)
    (hcall : calls process = some (.execute gate execution)) (statement : Statement)
    (hpermits : currentAuthority.permits process statement history) :
    mayConsume calls process statement history := by
  intro hconsumption otherGate otherExecution hother
  rw [hcall, Option.some.injEq, SystemCall.execute.injEq] at hother
  obtain ⟨-, rfl⟩ := hother
  obtain ⟨event, hevent, hstatement, row, hrow, hepoch⟩ := hchecked
  have hcurrent := List.all_eq_true.mp (hpermits hconsumption) event hevent
  rw [rowIsCurrent, hstatement] at hcurrent
  exact ⟨row, (of_decide_eq_true hcurrent).trans hrow, hepoch⟩

/-- A call that has checked its grant may do anything. -/
theorem safe_checked {gate : ExecutionGate} {execution : Execution} {Value : Type}
    (hcall : calls process = some (.execute gate execution)) (action : Action Value)
    (hchecked : GrantChecked execution.signed.grant process history) :
    (rules calls).Safe process
      (fun _ => GrantChecked execution.signed.grant process) (fun _ _ => True) action
      history := by
  have hstable : (rules calls).Safe process
      (fun _ => GrantChecked execution.signed.grant process)
      (fun _ => GrantChecked execution.signed.grant process) action history :=
    Rules.safe_of_stable
      (fun statement _ _ hheld _ hpermits =>
        GrantChecked.mayConsume hheld hcall statement hpermits)
      (fun _ _ hheld hrely => Checked.rely hheld hrely)
      (fun statement _ _ hheld _ _ => Checked.record hheld statement)
      (Program.within_true action) hchecked
  exact hstable.weaken (fun _ _ _ hheld => hheld) fun _ _ _ _ => trivial

/-- Statements that consume no grant. -/
def isQuiet (statement : Statement) : Prop := ¬isConsumption statement = true

theorem within_quietLoad (agentId : String) :
    (AuthorityStateStore.load agentId).Within isQuiet := by
  have hrecord : isQuiet (.selectAuthorityState agentId) := nofun
  have htransitions : isQuiet (.selectAuthorityTransitions agentId) := nofun
  apply Program.within_raiseIf.bind
  intro _
  apply (within_send hrecord).bind
  intro record
  cases record with
  | none => exact Program.within_ofExcept
  | some record =>
      apply (within_send htransitions).bind
      intro _
      trivial

/-- `get` answers the epoch of the row that it read. -/
theorem safe_getAuthority (registry : AgentAuthorityRegistry) (agentId : String) :
    (rules calls).Safe process
      (fun authority => Checked agentId authority.authorityEpoch process)
      (fun _ _ => True) (registry.get agentId) history := by
  apply Rules.Safe.raiseIf (fun _ _ _ _ => trivial)
  intro _
  apply Rules.Safe.call
  intro reading _ hreading hpermits
  refine ⟨nofun, ?_⟩
  have hrecorded : Timely calls
      (reading.record execute process (.selectRegistryRow agentId)) :=
    Timely.record hreading nofun
  have hreply : (execute (.selectRegistryRow agentId) reading.store).1 =
      reading.store.registry.lookup agentId := rfl
  rw [hreply]
  cases hrow : reading.store.registry.lookup agentId with
  | none => exact fun _ _ _ => trivial
  | some row =>
      have hchecked : Checked agentId row.authorityEpoch process
          (reading.record execute process (.selectRegistryRow agentId)) := by
        refine ⟨⟨process, .selectRegistryRow agentId, reading.store⟩, ?_, rfl, row, hrow, rfl⟩
        rw [History.own_record_self]
        exact List.mem_cons_self
      have hloaded : (rules calls).Safe process
          (fun _ => Checked agentId row.authorityEpoch process)
          (fun _ => Checked agentId row.authorityEpoch process)
          (AuthorityStateStore.load agentId) _ :=
        Rules.safe_of_stable
          (fun _ _ hquiet _ _ _ hconsumption => absurd hconsumption hquiet)
          (fun _ _ hheld hrely => hheld.rely hrely)
          (fun statement _ _ hheld _ _ => hheld.record statement) (within_quietLoad agentId)
          hchecked
      apply hloaded.andThen _ (fun _ _ _ _ => trivial) hrecorded
      intro machine last _ hheld
      exact fun _ hlast _ => Checked.rely hheld hlast

/-- `authorize` compares the grant's epoch with the row that it read. -/
theorem safe_authorize {gate : ExecutionGate} {execution : Execution}
    (hcall : calls process = some (.execute gate execution))
    (htimely : Timely calls history) :
    (rules calls).Safe process
      (fun _ => GrantChecked execution.signed.grant process) (fun _ _ => True)
      (gate.authorize execution.signed execution.intent execution.evidenceIds execution.now)
      history := by
  have hclock : isQuiet .readClock := nofun
  have htime : (currentTime execution.now).Within isQuiet := by
    cases execution.now with
    | none => exact within_send hclock
    | some now => trivial
  have htimed : (rules calls).Safe process (fun _ _ => True) (fun _ _ => True)
      (currentTime execution.now) history :=
    Rules.safe_of_within (fun _ _ hquiet _ _ hconsumption => absurd hconsumption hquiet) htime
  apply Rules.Safe.ofExcept (fun _ _ _ _ _ => trivial)
  intro grant hgrant
  apply htimed.andThen _ (fun _ _ _ _ => trivial) htimely
  intro verifiedAt timed htimely _
  apply Rules.Safe.ofExcept (fun _ _ _ _ _ => trivial)
  intro _ _
  apply Rules.Safe.raiseIf (fun _ _ _ _ => trivial)
  intro _
  have hsigned : grant = execution.signed.grant := by
    rw [ExecutionGate.grant] at hgrant
    split at hgrant
    case h_1 => cases hgrant
    case h_2 signer _ =>
      split at hgrant
      case h_1 verified hverified =>
        rw [← Except.ok.inj hgrant]
        exact CapabilitySigner.verify_eq_ok hverified
      case h_2 => cases hgrant
  subst hsigned
  split
  case h_1 => exact fun _ _ _ => trivial
  case h_2 registry _ =>
    have hget : (rules calls).Safe process
        (fun authority => Checked execution.signed.grant.agentId authority.authorityEpoch
          process) (fun _ _ => True) (registry.get execution.signed.grant.agentId) timed :=
      safe_getAuthority registry execution.signed.grant.agentId
    apply (hget.mapError htimely).andThen _ (fun _ _ _ _ => trivial) htimely
    intro authority compared _ hread
    apply Rules.Safe.ofExcept (fun _ _ _ _ _ => trivial)
    intro _ hcompared
    have hepoch : execution.signed.grant.authorityEpoch = authority.authorityEpoch := by
      rw [ExecutionGate.checkAuthority] at hcompared
      split at hcompared
      · cases hcompared
      · rename_i hsame
        exact not_not.mp hsame
    have hchecked : GrantChecked execution.signed.grant process compared := by
      rw [GrantChecked, hepoch]
      exact hread
    exact safe_checked hcall _ hchecked

theorem safe_execute {gate : ExecutionGate} {execution : Execution}
    (hcall : calls process = some (.execute gate execution))
    (htimely : Timely calls history) :
    (rules calls).Safe process (fun _ _ => True) (fun _ _ => True)
      (gate.execute execution) history := by
  apply (safe_authorize hcall htimely).andThen _ (fun _ _ _ _ => trivial) htimely
  intro grant later _ hchecked
  exact (safe_checked hcall _ hchecked).weaken (fun _ _ _ _ => trivial)
    fun _ _ _ _ => trivial

/-- Only `execute` owes anything for a consumption. -/
theorem safe_body {call : SystemCall} (hcall : calls process = some call)
    (htimely : Timely calls history) :
    (rules calls).Safe process (fun _ _ => True) (fun _ _ => True) call.body history := by
  by_cases hexecute : ∃ gate execution, call = .execute gate execution
  · obtain ⟨gate, execution, rfl⟩ := hexecute
    apply (safe_execute hcall htimely).andThen _ (fun _ _ _ _ => trivial) htimely
    exact fun _ _ _ _ _ _ _ => trivial
  · apply Rules.safe_of_within _ (Program.within_true call.body)
    intro statement last _ _ _ _ gate execution hother
    rw [hcall, Option.some.injEq] at hother
    exact absurd ⟨gate, execution, hother⟩ hexecute

/-! ## Every interleaving -/

/-- A call starts its executor although a withdrawal of the grant's authority had
committed before the call consumed the grant. -/
def StartsWithdrawn (pool : SystemPool) : Prop :=
  ∃ index gate execution later consumption earlier,
    pool.call? index = some (.execute gate execution) ∧
      pool.history.trace = later ++ consumption :: earlier ∧
        consumption.process = index ∧ isConsumption consumption.statement = true ∧
          (∃ event ∈ earlier, withdraws execution.signed.grant.agentId
            execution.signed.grant.authorityEpoch event = true) ∧
            ∃ event ∈ later, event.process = index ∧
              starts execution.signed.grant.grantId event = true

theorem timely_of_reaches {start : World} {pool : SystemPool}
    (hreaches : Pool.Reaches execute SystemCall.body currentAuthority (Pool.idle start) pool) :
    Timely pool.call? pool.history := by
  have hidle : Timely pool.call? (⟨start, []⟩ : SystemHistory) := by
    constructor <;> simp
  have hsound : Rules.Sound (rules pool.call?)
      (fun _ (_ : SystemCall) (_ : Answer) _ => True) (fun _ _ _ _ => True) pool := by
    refine Rules.Sound.reaches ?_ ?_ (Rules.Sound.idle hidle) hreaches.foreseen
    · exact fun _ _ _ hpermits => hpermits
    · intro before call hstarts htimely _
      exact safe_body hstarts.2 htimely
  exact hsound.invariant

/-- If every grant is consumed while the registry row that its call read is
stored, no executor starts on authority that was withdrawn before. -/
theorem not_startsWithdrawn_of_currentAuthority {start : World} {pool : SystemPool}
    (hreaches : Pool.Reaches execute SystemCall.body currentAuthority (Pool.idle start) pool) :
    ¬StartsWithdrawn pool := by
  have htimely := timely_of_reaches hreaches
  rintro ⟨index, gate, execution, later, consumption, earlier, hcall, htrace, rfl,
    hconsumption, ⟨withdrawal, hwithdrawal, hwithdraws⟩, -⟩
  have hmem : consumption ∈ pool.history.trace := by
    rw [htrace]
    exact List.mem_append_right later List.mem_cons_self
  have hfound := htimely.found
  rw [htrace, List.pairwise_append, List.pairwise_cons] at hfound
  obtain ⟨row, hrow, houtdated⟩ :=
    hfound.2.1.1 withdrawal hwithdrawal _ _ hwithdraws
  obtain ⟨current, hcurrent, hepoch⟩ :=
    htimely.consumed consumption hmem hconsumption gate execution hcall
  rw [hrow, Option.some.injEq] at hcurrent
  rw [hcurrent] at houtdated
  omega

/-! ## Suspension between the check and the consumption -/

/-- A run of the grant and a suspension of its agent. -/
def sampleStarts : List (Move SystemCall) :=
  [.start (.execute Sample.gate (Sample.execution "key-1" "1")),
    .start (.authority "agent-1" (.suspend {} "critical_failure"))]

/-- The agent is suspended when the run has ended. -/
def orderlyMoves : List (Move SystemCall) :=
  sampleStarts ++ (Sample.advance 0 28 ++ Sample.advance 1 20)

theorem not_startsWithdrawn_orderlyMoves : ¬StartsWithdrawn (Sample.pool orderlyMoves) :=
  not_startsWithdrawn_of_currentAuthority (Sample.reaches_pool (by decide +kernel))

/-- The agent is suspended when the run has been authorized. -/
def lateMoves : List (Move SystemCall) :=
  sampleStarts ++ (Sample.advance 0 8 ++ Sample.advance 1 20 ++ Sample.advance 0 20)

/-- The suspension returns, and the executor starts all the same. -/
theorem startsWithdrawn_lateMoves :
    ¬∀ (start : World) (pool : SystemPool), SystemPool.Reachable start pool →
      ¬StartsWithdrawn pool := by
  intro hall
  apply hall Sample.world (Sample.pool lateMoves) (Sample.reachable_pool lateMoves)
  have hcall : (Sample.pool lateMoves).call? 0 =
      some (.execute Sample.gate (Sample.execution "key-1" "1")) :=
    Sample.call?_pool sampleStarts _ rfl
  obtain ⟨consumption, htrace, hconsumption⟩ :=
    Sample.exists_split (Sample.pool lateMoves).history.trace 11
      (fun event => event.process = 0 && isConsumption event.statement) (by decide +kernel)
  have hwithdraws : ((Sample.pool lateMoves).history.trace.drop 12).any
      (withdraws "agent-1" 1) = true := by decide +kernel
  have hstarts : ((Sample.pool lateMoves).history.trace.take 11).any (fun event =>
      event.process = 0 && starts "grant-1" event) = true := by decide +kernel
  simp only [Bool.and_eq_true, decide_eq_true_eq] at hconsumption
  simp only [List.any_eq_true, Bool.and_eq_true, decide_eq_true_eq] at hstarts
  exact ⟨0, Sample.gate, Sample.execution "key-1" "1", _, consumption, _, hcall, htrace,
    hconsumption.1, hconsumption.2, List.any_eq_true.mp hwithdraws, hstarts⟩

end AegisForge.Shared.WithdrawnAuthority
