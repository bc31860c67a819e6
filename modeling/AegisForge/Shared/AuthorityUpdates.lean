import AegisForge.Concurrency.Linearization
import AegisForge.Shared.AgentAuthority
import AegisForge.Shared.Effects

/-!
# Concurrent authority updates

Calls on one agent by any number of registries over one database.  The stored
authority is the policy version with the record; a run is serializable when it
is what the calls that returned leave when they run one after the other.
-/

namespace AegisForge.Shared.AuthorityUpdates

open AegisForge.Core AegisForge.Concurrency

inductive AuthorityCall
  | register (registry : AgentAuthorityRegistry) (policyVersion : Option String)
  | recordTrust (registry : AgentAuthorityRegistry) (trustDecision : Option TrustDecision)
  | governancePromoteElevated (registry : AgentAuthorityRegistry)
      (reason proofId : String)
  | suspend (registry : AgentAuthorityRegistry) (reason : String)
  | governanceReset (registry : AgentAuthorityRegistry) (reason : String)
  | rotatePolicy (registry : AgentAuthorityRegistry) (policyVersion : String)

/-- Drop the transition that an operation answers beside the authority. -/
def authorityOf (action : Action (AgentAuthority × AuthorityTransition)) :
    Action AgentAuthority := do
  let (authority, _) ← action
  pure authority

def body (agentId : String) : AuthorityCall → Action AgentAuthority
  | .register registry policyVersion => registry.register agentId policyVersion
  | .recordTrust registry trustDecision =>
      authorityOf (registry.recordTrust agentId trustDecision)
  | .governancePromoteElevated registry reason proofId =>
      authorityOf (registry.governancePromoteElevated agentId reason proofId)
  | .suspend registry reason => authorityOf (registry.suspend agentId reason)
  | .governanceReset registry reason =>
      authorityOf (registry.governanceReset agentId reason)
  | .rotatePolicy registry policyVersion => registry.rotatePolicy agentId policyVersion

abbrev AuthorityPool : Type := Pool AuthorityCall Statement.Reply World Raised AgentAuthority

/-- The policy version and the record of a registered agent. -/
abbrev Stored : Type := Option (String × AuthorityStateRecord)

def stored (agentId : String) (world : World) : Stored :=
  (world.registry.lookup agentId).map fun row =>
    (row.policyVersion, (world.authority.lookup agentId).getD { agentId := agentId })

/-- The calls run one after the other, each of them returning. -/
inductive SerialRun (agentId : String) : List AuthorityCall → World → World → Prop
  | nil (world : World) : SerialRun agentId [] world world
  | cons {call : AuthorityCall} {calls : List AuthorityCall} {authority : AgentAuthority}
      {world between after : World}
      (hrun : (body agentId call).run execute world = (.ok authority, between))
      (hrest : SerialRun agentId calls between after) :
      SerialRun agentId (call :: calls) world after

/-- The stored authority is what exactly the calls that returned leave in some
serial order. -/
def Serializable (agentId : String) (start : World) (pool : AuthorityPool) : Prop :=
  ∃ (order : List (ℕ × AuthorityCall)) (after : World),
    (order.map Prod.fst).Perm pool.returned ∧
      (∀ pair ∈ order, pool.call? pair.1 = some pair.2) ∧
        SerialRun agentId (order.map Prod.snd) start after ∧
          stored agentId pool.history.store = stored agentId after

/-! ## The effect of a call that runs alone -/

def rewriteEffect (registry : AgentAuthorityRegistry)
    (operation : AuthorityStateMachine.Operation) : Stored → Option Stored
  | none => none
  | some (version, record) =>
      (AuthorityStateMachine.recordAfter registry.transitionPolicy operation record).map
        fun after => some (version, after)

/-- The version that `register` writes. -/
def registeredVersion (policyVersion : Option String) : String :=
  (policyVersion.filter (· ≠ "")).getD CapabilityPolicy.version

/-- The stored authority after a call, if the call returns. -/
def effect (agentId : String) (call : AuthorityCall) (state : Stored) : Option Stored :=
  if agentId = "" then none
  else match call with
    | .register _ policyVersion =>
        some (some (state.getD (registeredVersion policyVersion, { agentId := agentId })))
    | .recordTrust registry trustDecision =>
        rewriteEffect registry (.applyTrust trustDecision) state
    | .governancePromoteElevated registry reason proofId =>
        rewriteEffect registry (.governancePromoteElevated reason proofId) state
    | .suspend registry reason => rewriteEffect registry (.suspend reason) state
    | .governanceReset registry reason =>
        if reason = "" then none else rewriteEffect registry .governanceReset state
    | .rotatePolicy _ policyVersion =>
        if policyVersion = "" then none
        else state.map fun current => some (policyVersion, current.2)

variable {agentId : String} {world : World}

/-! ### Single statements -/

theorem stored_saveAuthority {record : AuthorityStateRecord}
    (history : List AuthorityTransition) {row : AuthorityRegistryRow}
    (hagent : record.agentId = agentId) (hrow : world.registry.lookup agentId = some row) :
    stored agentId (execute (.saveAuthority record history) world).2 =
      some (row.policyVersion, record) := by
  rw [stored, lookup_registry_execute, lookup_authority_execute]
  simp [registryEffect, authorityEffect, hagent, hrow]

theorem stored_insertRegistryRow (policyVersion : String)
    {record : AuthorityStateRecord} (hrow : world.registry.lookup agentId = none)
    (hrecord : world.authority.lookup agentId = some record) :
    stored agentId (execute (.insertRegistryRow agentId policyVersion) world).2 =
      some (policyVersion, record) := by
  rw [stored, lookup_registry_execute, lookup_authority_execute]
  simp [registryEffect, authorityEffect, hrow, hrecord]

theorem stored_updatePolicyVersion (policyVersion : String) {row : AuthorityRegistryRow}
    (hrow : world.registry.lookup agentId = some row) :
    stored agentId (execute (.updatePolicyVersion agentId policyVersion) world).2 =
      some (policyVersion,
        (world.authority.lookup agentId).getD { agentId := agentId }) := by
  rw [stored, lookup_registry_execute, lookup_authority_execute]
  simp [registryEffect, authorityEffect, hrow, AuthorityRegistryRow.rotate]

theorem stored_incrementEpoch (agentId wanted : String) (world : World) :
    stored agentId (execute (.incrementEpoch wanted) world).2 = stored agentId world := by
  rw [stored, stored, lookup_registry_execute, lookup_authority_execute]
  simp only [registryEffect, authorityEffect]
  split
  case isTrue =>
    rw [Option.map_map]
    rfl
  case isFalse => rfl

/-- The agent has a registry row. -/
def Registered (agentId : String) (world : World) : Prop :=
  ∃ row, world.registry.lookup agentId = some row

theorem registered_execute (statement : Statement)
    (hregistered : Registered agentId world) :
    Registered agentId (execute statement world).2 := by
  obtain ⟨row, hrow⟩ := hregistered
  rw [Registered, lookup_registry_execute, hrow]
  cases statement with
  | insertRegistryRow | incrementEpoch | updatePolicyVersion =>
      simp only [registryEffect]
      split <;> exact ⟨_, rfl⟩
  | _ => exact ⟨row, rfl⟩

/-! ### Whole calls -/

theorem agentId_getD :
    ((world.authority.lookup agentId).getD { agentId := agentId }).agentId = agentId := by
  cases hlookup : world.authority.lookup agentId with
  | none => rfl
  | some record => exact Table.key_of_lookup hlookup

theorem run_load (hagent : agentId ≠ "") (world : World) :
    ∃ machine, (AuthorityStateStore.load agentId).run execute world = (.ok machine, world) ∧
      machine.record = (world.authority.lookup agentId).getD { agentId := agentId } := by
  cases hlookup : world.authority.lookup agentId with
  | none =>
      simp [AuthorityStateStore.load, Program.raiseIf, hagent, send, Program.call, execute,
        hlookup, AuthorityStateMachine.new, Program.ofExcept]
  | some record =>
      simp [AuthorityStateStore.load, Program.raiseIf, hagent, send, Program.call, execute,
        hlookup]

theorem run_get (registry : AgentAuthorityRegistry) (hagent : agentId ≠ "")
    {row : AuthorityRegistryRow} (hrow : world.registry.lookup agentId = some row) :
    ∃ authority, (registry.get agentId).run execute world = (.ok authority, world) := by
  obtain ⟨machine, hload, -⟩ := run_load hagent world
  simp [AgentAuthorityRegistry.get, Program.raiseIf, hagent, send, Program.call, execute,
    hrow, Program.run_bind, hload]

theorem run_machine (registry : AgentAuthorityRegistry) (hagent : agentId ≠ "")
    {row : AuthorityRegistryRow} (hrow : world.registry.lookup agentId = some row) :
    ∃ machine, (registry.machine agentId).run execute world = (.ok machine, world) ∧
      machine.record = (world.authority.lookup agentId).getD { agentId := agentId } ∧
        machine.transitionPolicy = registry.transitionPolicy := by
  obtain ⟨authority, hget⟩ := run_get registry hagent hrow
  obtain ⟨machine, hload, hrecord⟩ := run_load hagent world
  simp [AgentAuthorityRegistry.machine, Program.run_bind, hget, hload, hrecord]

theorem run_settle (registry : AgentAuthorityRegistry) (hagent : agentId ≠ "")
    (hregistered : Registered agentId world) (advance : Bool)
    (applied : AuthorityTransition) :
    ∃ result after, (registry.settle agentId advance applied).run execute world =
        (.ok result, after) ∧ stored agentId after = stored agentId world := by
  cases advance with
  | false =>
      obtain ⟨row, hrow⟩ := hregistered
      obtain ⟨authority, hget⟩ := run_get registry hagent hrow
      exact ⟨(authority, applied), world, by
        simp [AgentAuthorityRegistry.settle, Program.run_bind, hget], rfl⟩
  | true =>
      obtain ⟨row, hrow⟩ := registered_execute (.incrementEpoch agentId) hregistered
      obtain ⟨authority, hget⟩ := run_get registry hagent hrow
      refine ⟨(authority, applied), (execute (.incrementEpoch agentId) world).2, ?_,
        stored_incrementEpoch agentId agentId world⟩
      simp [AgentAuthorityRegistry.settle, send, Program.call, Program.run_bind, hget]

theorem run_rewrite (registry : AgentAuthorityRegistry) (hagent : agentId ≠ "")
    {operation : AuthorityStateMachine.Operation}
    (advances : AuthorityState → AuthorityTransition → Bool) {state after : Stored}
    (hstate : stored agentId world = state)
    (heffect : rewriteEffect registry operation state = some after) :
    ∃ result between, (registry.rewrite agentId operation advances).run execute world = (.ok result, between) ∧
      stored agentId between = after := by
  cases hrow : world.registry.lookup agentId with
  | none => simp [← hstate, stored, hrow, rewriteEffect] at heffect
  | some row =>
      obtain ⟨machine, hmachine, hrecord, hpolicy⟩ := run_machine registry hagent hrow
      simp only [← hstate, stored, hrow, Option.map_some, rewriteEffect, ← hpolicy,
        ← hrecord] at heffect
      rcases machine.apply_cases operation with
        ⟨transition, next, happly, hnext, hafter⟩ | ⟨error, -, hnone⟩
      · rw [hafter, Option.map_some, Option.some.injEq] at heffect
        have hagentId : next.record.agentId = agentId := by
          rw [hnext, hrecord]
          exact agentId_getD
        have hsaved := stored_saveAuthority next.history hagentId hrow
        have hregistered :=
          registered_execute (.saveAuthority next.record next.history) ⟨row, hrow⟩
        generalize hbetween :
          (execute (.saveAuthority next.record next.history) world).2 = between at *
        have hsave : (AuthorityStateStore.save next).run execute world =
            (.ok (), between) := by
          rw [← hbetween]
          rfl
        obtain ⟨result, last, hsettle, hstored⟩ := run_settle registry hagent hregistered
          (advances machine.state transition) transition
        exact ⟨result, last, by
          simp [AgentAuthorityRegistry.rewrite, Program.run_bind, hmachine, happly,
            Program.ofExcept, hsave, hsettle], by rw [hstored, hsaved, heffect]⟩
      · rw [hnone] at heffect
        cases heffect

theorem run_register (registry : AgentAuthorityRegistry) (hagent : agentId ≠ "")
    (policyVersion : Option String) (world : World) :
    ∃ authority after, (registry.register agentId policyVersion).run execute world =
        (.ok authority, after) ∧
      stored agentId after = some ((stored agentId world).getD
        (registeredVersion policyVersion, { agentId := agentId })) := by
  cases hrow : world.registry.lookup agentId with
  | some row =>
      obtain ⟨authority, hget⟩ := run_get registry hagent hrow
      refine ⟨authority, world, ?_, by simp [stored, hrow]⟩
      simp [AgentAuthorityRegistry.register, Program.raiseIf, hagent, send, Program.call,
        execute, hrow, hget]
  | none =>
      generalize hsaved :
        (execute (.saveAuthority { agentId := agentId } []) world).2 = saved
      have hunregistered : saved.registry.lookup agentId = none := by
        rw [← hsaved, lookup_registry_execute, hrow]
        rfl
      have hrecord : saved.authority.lookup agentId = some { agentId := agentId } := by
        rw [← hsaved, lookup_authority_execute]
        simp [authorityEffect]
      have hinserted :
          (execute (.insertRegistryRow agentId (registeredVersion policyVersion)) saved).1 =
            true := by
        rw [insertRegistryRow_reply, hunregistered]
        rfl
      have hstored := stored_insertRegistryRow
        (registeredVersion policyVersion) hunregistered hrecord
      generalize hafter :
        execute (.insertRegistryRow agentId (registeredVersion policyVersion)) saved = result
          at hinserted hstored
      have hregistered : Registered agentId result.2 := by
        cases hlookup : result.2.registry.lookup agentId with
        | none => simp [stored, hlookup] at hstored
        | some row => exact ⟨row, hlookup⟩
      obtain ⟨row, hlookup⟩ := hregistered
      obtain ⟨authority, hget⟩ := run_get registry hagent hlookup
      refine ⟨authority, result.2, ?_, ?_⟩
      · rw [registeredVersion] at hafter
        simp [AgentAuthorityRegistry.register, Program.raiseIf, hagent, send, Program.call,
          hrow, AuthorityStateMachine.new, Program.ofExcept, AuthorityStateStore.save, hsaved,
          hafter, hinserted, hget, execute.eq_5]
      · rw [hstored, stored, hrow]
        rfl

theorem run_rotatePolicy (registry : AgentAuthorityRegistry) (hagent : agentId ≠ "")
    {policyVersion : String} (hversion : policyVersion ≠ "")
    {row : AuthorityRegistryRow} (hrow : world.registry.lookup agentId = some row) :
    ∃ authority after, (registry.rotatePolicy agentId policyVersion).run execute world =
        (.ok authority, after) ∧
      stored agentId after = some (policyVersion,
        (world.authority.lookup agentId).getD { agentId := agentId }) := by
  obtain ⟨authority, hget⟩ := run_get registry hagent hrow
  obtain ⟨updated, hlookup⟩ :=
    registered_execute (.updatePolicyVersion agentId policyVersion) ⟨row, hrow⟩
  obtain ⟨last, hlast⟩ := run_get registry hagent hlookup
  refine ⟨last, _, ?_, stored_updatePolicyVersion policyVersion hrow⟩
  simp [AgentAuthorityRegistry.rotatePolicy, Program.raiseIf, hversion, Program.run_bind,
    hget, send, Program.call, hlast]

theorem run_authorityOf {action : Action (AgentAuthority × AuthorityTransition)}
    {after : Stored}
    (hrun : ∃ result between, action.run execute world = (.ok result, between) ∧
      stored agentId between = after) :
    ∃ authority between, (authorityOf action).run execute world = (.ok authority, between) ∧
      stored agentId between = after := by
  obtain ⟨result, between, hrun, hstored⟩ := hrun
  exact ⟨result.1, between, by simp [authorityOf, Program.run_bind, hrun], hstored⟩

/-- A call that has an effect returns when it runs alone, and has that effect. -/
theorem run_of_effect {call : AuthorityCall} {after : Stored}
    (heffect : effect agentId call (stored agentId world) = some after) :
    ∃ authority between, (body agentId call).run execute world = (.ok authority, between) ∧
      stored agentId between = after := by
  by_cases hagent : agentId = ""
  · simp [effect, hagent] at heffect
  simp only [effect, if_neg hagent] at heffect
  cases call with
  | register registry policyVersion =>
      obtain ⟨authority, between, hrun, hstored⟩ :=
        run_register registry hagent policyVersion world
      exact ⟨authority, between, hrun, hstored.trans (Option.some.inj heffect)⟩
  | recordTrust registry trustDecision =>
      exact run_authorityOf (run_rewrite registry hagent _ rfl heffect)
  | governancePromoteElevated registry reason proofId =>
      exact run_authorityOf (run_rewrite registry hagent _ rfl heffect)
  | suspend registry reason =>
      exact run_authorityOf (run_rewrite registry hagent _ rfl heffect)
  | governanceReset registry reason =>
      by_cases hreason : reason = ""
      · simp [hreason] at heffect
      · simp only [if_neg hreason] at heffect
        refine run_authorityOf ?_
        rw [AgentAuthorityRegistry.governanceReset, Program.raiseIf, if_neg hreason,
          Program.bind_eq, Program.done_bind]
        exact run_rewrite registry hagent _ rfl heffect
  | rotatePolicy registry policyVersion =>
      cases hrow : world.registry.lookup agentId with
      | none => simp [stored, hrow] at heffect
      | some row =>
          by_cases hversion : policyVersion = ""
          · simp [hversion] at heffect
          · obtain ⟨authority, between, hrun, hstored⟩ :=
              run_rotatePolicy registry hagent hversion hrow
            refine ⟨authority, between, hrun, ?_⟩
            rw [hstored]
            simpa [stored, hrow, hversion] using heffect

end AegisForge.Shared.AuthorityUpdates
