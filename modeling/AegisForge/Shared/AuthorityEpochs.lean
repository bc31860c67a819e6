import AegisForge.Shared.AuthorityUpdates
import AegisForge.Shared.ExecutionSystem

/-!
# Authority epochs

Authority calls that run one after the other.  What the gate compares a grant
with is the context of its agent: the epoch, the policy version and the record.
A call changes the context by a pure function, along which the epoch grows with
every change of state or version.
-/

namespace AegisForge.Shared.AuthorityEpochs

open AegisForge.Core AegisForge.Concurrency AuthorityUpdates

structure Context where
  epoch : ℕ
  policyVersion : String
  record : AuthorityStateRecord
  deriving DecidableEq, Repr

/-- The stored context of a registered agent. -/
def context (agentId : String) (world : World) : Option Context :=
  (world.registry.lookup agentId).map fun row =>
    ⟨row.authorityEpoch, row.policyVersion,
      (world.authority.lookup agentId).getD { agentId := agentId }⟩

/-- The calls one after the other, whether they return or raise. -/
def afterCalls (agentId : String) (calls : List AuthorityCall) (start : World) : World :=
  calls.foldl (fun world call => ((body agentId call).run execute world).2) start

/-! ## What a call does to the context -/

/-- The context once the machine is written back; an operation that raises
leaves it as it was. -/
def rewritten (policy : AuthorityTransitionPolicy)
    (operation : AuthorityStateMachine.Operation)
    (advances : AuthorityState → AuthorityState → Bool) (before : Context) : Context :=
  match AuthorityStateMachine.recordAfter policy operation before.record with
  | none => before
  | some record =>
      { before with
        record := record
        epoch := if advances before.record.state record.state then before.epoch + 1
          else before.epoch }

def contextAfter (call : AuthorityCall) (before : Context) : Context :=
  match call with
  | .register _ _ => before
  | .recordTrust registry trustDecision =>
      rewritten registry.transitionPolicy (.applyTrust trustDecision)
        (fun previous current => current ≠ previous) before
  | .governancePromoteElevated registry reason proofId =>
      rewritten registry.transitionPolicy (.governancePromoteElevated reason proofId)
        (fun _ _ => true) before
  | .suspend registry reason =>
      rewritten registry.transitionPolicy (.suspend reason) (fun _ _ => true) before
  | .governanceReset registry reason =>
      if reason = "" then before
      else rewritten registry.transitionPolicy .governanceReset (fun _ _ => true) before
  | .rotatePolicy _ policyVersion =>
      if policyVersion = "" then before
      else { before with epoch := before.epoch + 1, policyVersion := policyVersion }

variable {agentId : String} {world : World} {before : Context}

theorem lookup_of_context (hcontext : context agentId world = some before) :
    ∃ row, world.registry.lookup agentId = some row ∧ row.authorityEpoch = before.epoch ∧
      row.policyVersion = before.policyVersion ∧
        (world.authority.lookup agentId).getD { agentId := agentId } = before.record := by
  obtain ⟨row, hrow, rfl⟩ := Option.map_eq_some_iff.mp hcontext
  exact ⟨row, hrow, rfl, rfl, rfl⟩

theorem context_saveAuthority {record : AuthorityStateRecord}
    (history : List AuthorityTransition) (hagent : record.agentId = agentId)
    (hcontext : context agentId world = some before) :
    context agentId (execute (.saveAuthority record history) world).2 =
      some { before with record := record } := by
  obtain ⟨row, hrow, hepoch, hversion, -⟩ := lookup_of_context hcontext
  rw [context, lookup_registry_execute, lookup_authority_execute]
  simp [registryEffect, authorityEffect, hagent, hrow, hepoch, hversion]

theorem context_incrementEpoch (hcontext : context agentId world = some before) :
    context agentId (execute (.incrementEpoch agentId) world).2 =
      some { before with epoch := before.epoch + 1 } := by
  obtain ⟨row, hrow, hepoch, hversion, hrecord⟩ := lookup_of_context hcontext
  rw [context, lookup_registry_execute, lookup_authority_execute]
  simp [registryEffect, authorityEffect, hrow, AuthorityRegistryRow.nextEpoch, hepoch,
    hversion, hrecord]

theorem context_updatePolicyVersion (policyVersion : String)
    (hcontext : context agentId world = some before) :
    context agentId (execute (.updatePolicyVersion agentId policyVersion) world).2 =
      some { before with epoch := before.epoch + 1, policyVersion := policyVersion } := by
  obtain ⟨row, hrow, hepoch, hversion, hrecord⟩ := lookup_of_context hcontext
  rw [context, lookup_registry_execute, lookup_authority_execute]
  simp [registryEffect, authorityEffect, hrow, AuthorityRegistryRow.rotate, hepoch, hrecord]

theorem run_get_world (registry : AgentAuthorityRegistry) (hagent : agentId ≠ "")
    (hcontext : context agentId world = some before) :
    ∃ authority, (registry.get agentId).run execute world = (.ok authority, world) := by
  obtain ⟨row, hrow, -⟩ := lookup_of_context hcontext
  exact run_get registry hagent hrow

theorem context_settle (registry : AgentAuthorityRegistry) (hagent : agentId ≠ "")
    (hcontext : context agentId world = some before) (advance : Bool)
    (applied : AuthorityTransition) :
    context agentId ((registry.settle agentId advance applied).run execute world).2 =
      some { before with epoch := if advance then before.epoch + 1 else before.epoch } := by
  cases advance with
  | false =>
      obtain ⟨authority, hget⟩ := run_get_world registry hagent hcontext
      simp [AgentAuthorityRegistry.settle, Program.run_bind, hget, hcontext]
  | true =>
      have hadvanced := context_incrementEpoch hcontext
      obtain ⟨authority, hget⟩ := run_get_world registry hagent hadvanced
      simp [AgentAuthorityRegistry.settle, send, Program.call, Program.run_bind, hget,
        hadvanced]

theorem context_rewrite (registry : AgentAuthorityRegistry) (hagent : agentId ≠ "")
    (hcontext : context agentId world = some before)
    (operation : AuthorityStateMachine.Operation)
    {advances : AuthorityState → AuthorityTransition → Bool}
    {changed : AuthorityState → AuthorityState → Bool}
    (hadvances : ∀ previous transition,
      advances previous transition = changed previous transition.newState) :
    context agentId ((registry.rewrite agentId operation advances).run execute world).2 =
      some (rewritten registry.transitionPolicy operation changed before) := by
  obtain ⟨row, hrow, -, -, hrecord⟩ := lookup_of_context hcontext
  obtain ⟨machine, hmachine, hloaded, hpolicy⟩ := run_machine registry hagent hrow
  rw [hrecord] at hloaded
  rw [rewritten, ← hpolicy, ← hloaded]
  rcases machine.apply_cases operation with
    ⟨transition, next, happly, hnext, hafter⟩ | ⟨error, herror, hnone⟩
  · rw [hafter]
    have hagentId : next.record.agentId = agentId := by
      rw [hnext, hloaded, ← hrecord]
      exact agentId_getD
    have hsaved := context_saveAuthority next.history hagentId hcontext
    generalize hbetween :
      (execute (.saveAuthority next.record next.history) world).2 = between at *
    have hsave : (AuthorityStateStore.save next).run execute world = (.ok (), between) := by
      rw [← hbetween]
      rfl
    have hstate : changed machine.record.state next.record.state =
        advances machine.state transition := by
      rw [hadvances, (AuthorityStateMachine.applied_of_apply happly).2]
      rfl
    have hsettled := context_settle registry hagent hsaved
      (advances machine.state transition) transition
    dsimp only
    rw [hstate, ← hsettled]
    simp [AgentAuthorityRegistry.rewrite, Program.run_bind, hmachine, happly,
      Program.ofExcept, hsave]
  · rw [hnone]
    simp [AgentAuthorityRegistry.rewrite, Program.run_bind, hmachine, herror,
      Program.ofExcept, hcontext]

theorem context_register (registry : AgentAuthorityRegistry) (hagent : agentId ≠ "")
    (hcontext : context agentId world = some before) (policyVersion : Option String) :
    ((registry.register agentId policyVersion).run execute world).2 = world := by
  obtain ⟨row, hrow, -⟩ := lookup_of_context hcontext
  obtain ⟨authority, hget⟩ := run_get registry hagent hrow
  simp [AgentAuthorityRegistry.register, Program.raiseIf, hagent, send, Program.call,
    execute, hrow, hget]

theorem context_rotatePolicy (registry : AgentAuthorityRegistry) (hagent : agentId ≠ "")
    (hcontext : context agentId world = some before) {policyVersion : String}
    (hversion : policyVersion ≠ "") :
    context agentId ((registry.rotatePolicy agentId policyVersion).run execute world).2 =
      some { before with epoch := before.epoch + 1, policyVersion := policyVersion } := by
  obtain ⟨authority, hget⟩ := run_get_world registry hagent hcontext
  have hrotated := context_updatePolicyVersion policyVersion hcontext
  obtain ⟨last, hlast⟩ := run_get_world registry hagent hrotated
  simp [AgentAuthorityRegistry.rotatePolicy, Program.raiseIf, hversion, Program.run_bind,
    hget, send, Program.call, hlast, hrotated]

theorem context_authorityOf {action : Action (AgentAuthority × AuthorityTransition)}
    {after : Option Context}
    (haction : context agentId (action.run execute world).2 = after) :
    context agentId ((authorityOf action).run execute world).2 = after := by
  rw [← haction, authorityOf, Program.bind_eq, Program.run_bind]
  split
  case h_1 result last hrun => simp [hrun]
  case h_2 error last hrun => simp [hrun]

/-- A call that runs alone changes the context as `contextAfter` says. -/
theorem context_body (hagent : agentId ≠ "")
    (hcontext : context agentId world = some before) (call : AuthorityCall) :
    context agentId ((body agentId call).run execute world).2 =
      some (contextAfter call before) := by
  cases call with
  | register registry policyVersion =>
      have hsame := context_register registry hagent hcontext policyVersion
      exact (congrArg (context agentId) hsame).trans hcontext
  | recordTrust registry trustDecision =>
      apply context_authorityOf
      rw [AgentAuthorityRegistry.recordTrust, contextAfter]
      apply context_rewrite registry hagent hcontext
      intro previous transition
      rfl
  | governancePromoteElevated registry reason proofId =>
      apply context_authorityOf
      rw [AgentAuthorityRegistry.governancePromoteElevated, contextAfter]
      apply context_rewrite registry hagent hcontext
      intro previous transition
      rfl
  | suspend registry reason =>
      apply context_authorityOf
      rw [AgentAuthorityRegistry.suspend, contextAfter]
      apply context_rewrite registry hagent hcontext
      intro previous transition
      rfl
  | governanceReset registry reason =>
      apply context_authorityOf
      rw [AgentAuthorityRegistry.governanceReset, contextAfter]
      by_cases hreason : reason = ""
      · rw [Program.raiseIf, if_pos hreason, if_pos hreason]
        exact hcontext
      · rw [Program.raiseIf, if_neg hreason, if_neg hreason, Program.bind_eq,
          Program.done_bind]
        apply context_rewrite registry hagent hcontext
        intro previous transition
        rfl
  | rotatePolicy registry policyVersion =>
      rw [contextAfter]
      by_cases hversion : policyVersion = ""
      · rw [if_pos hversion]
        rw [body, AgentAuthorityRegistry.rotatePolicy, Program.raiseIf, if_pos hversion]
        exact hcontext
      · rw [if_neg hversion]
        exact context_rotatePolicy registry hagent hcontext hversion

def contextsAfter (calls : List AuthorityCall) (before : Context) : Context :=
  calls.foldl (fun current call => contextAfter call current) before

theorem context_afterCalls (hagent : agentId ≠ "") (calls : List AuthorityCall)
    (hcontext : context agentId world = some before) :
    context agentId (afterCalls agentId calls world) =
      some (contextsAfter calls before) := by
  induction calls generalizing world before with
  | nil => exact hcontext
  | cons call calls ih => exact ih (context_body hagent hcontext call)

/-! ## Epochs -/

/-- Two contexts in which the gate authorizes by different states or versions. -/
def Context.Differs (first second : Context) : Prop :=
  first.record.state ≠ second.record.state ∨ first.policyVersion ≠ second.policyVersion

theorem rewritten_epoch (policy : AuthorityTransitionPolicy)
    (operation : AuthorityStateMachine.Operation)
    {advances : AuthorityState → AuthorityState → Bool}
    (hadvances : ∀ previous current, previous ≠ current → advances previous current = true)
    (before : Context) :
    before.epoch ≤ (rewritten policy operation advances before).epoch ∧
      (before.Differs (rewritten policy operation advances before) →
        before.epoch < (rewritten policy operation advances before).epoch) := by
  rw [rewritten]
  split
  case h_1 => exact ⟨le_rfl, fun hdiffers => by simp [Context.Differs] at hdiffers⟩
  case h_2 record hrecord =>
    dsimp only
    constructor
    · split
      · exact Nat.le_succ _
      · exact le_rfl
    · rintro (hstate | hversion)
      · rw [if_pos (hadvances _ _ hstate)]
        exact Nat.lt_succ_self _
      · exact absurd rfl hversion

/-- The epoch never falls, and grows with every change of state or version. -/
theorem contextAfter_epoch (call : AuthorityCall) (before : Context) :
    before.epoch ≤ (contextAfter call before).epoch ∧
      (before.Differs (contextAfter call before) →
        before.epoch < (contextAfter call before).epoch) := by
  have hsame : before.epoch ≤ before.epoch ∧
      (before.Differs before → before.epoch < before.epoch) :=
    ⟨le_rfl, fun hdiffers => by simp [Context.Differs] at hdiffers⟩
  cases call with
  | register registry policyVersion => exact hsame
  | recordTrust registry trustDecision =>
      apply rewritten_epoch
      intro previous current hne
      exact decide_eq_true hne.symm
  | governancePromoteElevated registry reason proofId =>
      exact rewritten_epoch _ _ (fun _ _ _ => rfl) before
  | suspend registry reason => exact rewritten_epoch _ _ (fun _ _ _ => rfl) before
  | governanceReset registry reason =>
      rw [contextAfter]
      split
      · exact hsame
      · exact rewritten_epoch _ _ (fun _ _ _ => rfl) before
  | rotatePolicy registry policyVersion =>
      rw [contextAfter]
      split
      · exact hsame
      · exact ⟨Nat.le_succ _, fun _ => Nat.lt_succ_self _⟩

theorem contextsAfter_epoch (calls : List AuthorityCall) (before : Context) :
    before.epoch ≤ (contextsAfter calls before).epoch ∧
      (before.Differs (contextsAfter calls before) →
        before.epoch < (contextsAfter calls before).epoch) := by
  induction calls generalizing before with
  | nil => exact ⟨le_rfl, fun hdiffers => by simp [contextsAfter, Context.Differs] at hdiffers⟩
  | cons call calls ih =>
      obtain ⟨hle, hchanges⟩ := contextAfter_epoch call before
      obtain ⟨hrest, hrestChanges⟩ := ih (contextAfter call before)
      have hunfold : contextsAfter (call :: calls) before =
          contextsAfter calls (contextAfter call before) := rfl
      rw [hunfold]
      refine ⟨hle.trans hrest, fun hdiffers => ?_⟩
      by_cases hfirst : before.Differs (contextAfter call before)
      · exact (hchanges hfirst).trans_le hrest
      · rw [Context.Differs, not_or, not_not, not_not] at hfirst
        apply hle.trans_lt
        apply hrestChanges
        rw [Context.Differs, ← hfirst.1, ← hfirst.2]
        exact hdiffers

/-! ## The gate -/

theorem epoch_of_run_get {registry : AgentAuthorityRegistry} {after : World}
    {authority : AgentAuthority} (hcontext : context agentId world = some before)
    (hget : (registry.get agentId).run execute world = (.ok authority, after)) :
    authority.authorityEpoch = before.epoch := by
  obtain ⟨row, hrow, hepoch, -⟩ := lookup_of_context hcontext
  obtain ⟨_, _, hagent, hread⟩ := Program.run_bind_eq_ok execute hget
  obtain ⟨-, rfl⟩ := Program.run_raiseIf_eq_ok execute hagent
  obtain ⟨found, _, hselect, hfound⟩ := Program.run_bind_eq_ok execute hread
  have hreply : some row = found := by
    rw [← hrow]
    exact Except.ok.inj (Prod.mk.inj hselect).1
  rw [← hreply] at hfound
  obtain ⟨loaded, _, -, hanswer⟩ := Program.run_bind_eq_ok execute hfound
  rw [← Except.ok.inj (Prod.mk.inj hanswer).1, ← hepoch]

theorem run_currentTime_eq_ok {now : Option Time} {time : Time} {after : World}
    (hrun : (currentTime now).run execute world = (.ok time, after)) : after = world := by
  cases now with
  | none => exact (Prod.mk.inj hrun).2.symm
  | some now => exact (Prod.mk.inj hrun).2.symm

/-- A grant of another epoch than the stored one is refused, whatever else the
gate finds. -/
theorem authorize_refuses {signed : SignedCapabilityGrant}
    (hcontext : context signed.grant.agentId world = some before)
    (hepoch : signed.grant.authorityEpoch ≠ before.epoch) (gate : ExecutionGate)
    (intent : ActionIntent) (evidenceIds : List String) (now : Option Time) :
    ∃ error, ((gate.authorize signed intent evidenceIds now).run execute world).1 =
      .error error := by
  rcases hauthorize : (gate.authorize signed intent evidenceIds now).run execute world with
    ⟨error | grant, after⟩
  · exact ⟨error, rfl⟩
  · exfalso
    obtain ⟨verified, _, hgrant, hverify⟩ := Program.run_bind_eq_ok execute hauthorize
    obtain ⟨hverified, rfl⟩ := Program.run_ofExcept_eq_ok execute hgrant
    obtain ⟨verifiedAt, _, hclock, hintent⟩ := Program.run_bind_eq_ok execute hverify
    obtain rfl := run_currentTime_eq_ok hclock
    obtain ⟨_, _, hsigned, hpolicy⟩ := Program.run_bind_eq_ok execute hintent
    obtain ⟨-, rfl⟩ := Program.run_ofExcept_eq_ok execute hsigned
    obtain ⟨_, _, hversion, hregistry⟩ := Program.run_bind_eq_ok execute hpolicy
    obtain ⟨-, rfl⟩ := Program.run_raiseIf_eq_ok execute hversion
    rw [ExecutionGate.grant_eq_ok hverified] at hregistry
    split at hregistry
    case h_1 => cases hregistry
    case h_2 registry _ =>
      obtain ⟨authority, _, hget, hcheck⟩ := Program.run_bind_eq_ok execute hregistry
      have hstored := epoch_of_run_get hcontext (Program.run_mapError_eq_ok execute hget)
      obtain ⟨_, _, hcompare, -⟩ := Program.run_bind_eq_ok execute hcheck
      obtain ⟨hchecked, -⟩ := Program.run_ofExcept_eq_ok execute hcompare
      rw [ExecutionGate.checkAuthority, hstored, if_pos hepoch] at hchecked
      cases hchecked

/-! ## Elevated authority -/

/-- The registry that a call is made on. -/
def registryOf : AuthorityCall → AgentAuthorityRegistry
  | .register registry _ => registry
  | .recordTrust registry _ => registry
  | .governancePromoteElevated registry _ _ => registry
  | .suspend registry _ => registry
  | .governanceReset registry _ => registry
  | .rotatePolicy registry _ => registry

/-- The operation that a call makes on the machine, if it comes that far. -/
def operationOf : AuthorityCall → Option AuthorityStateMachine.Operation
  | .register _ _ => none
  | .recordTrust _ trustDecision => some (.applyTrust trustDecision)
  | .governancePromoteElevated _ reason proofId =>
      some (.governancePromoteElevated reason proofId)
  | .suspend _ reason => some (.suspend reason)
  | .governanceReset _ reason => if reason = "" then none else some .governanceReset
  | .rotatePolicy _ _ => none

/-- An elevated agent meets the thresholds of the policy. -/
def MeetsThresholds (policy : AuthorityTransitionPolicy) (current : Context) : Prop :=
  current.record.state = .elevated →
    policy.minTrustedOutcomesForElevated ≤ current.record.trustedOutcomes ∧
      current.record.failedOutcomes ≤ policy.maxFailedOutcomesForElevated

theorem rewritten_cases (policy : AuthorityTransitionPolicy)
    (operation : AuthorityStateMachine.Operation)
    (advances : AuthorityState → AuthorityState → Bool) (before : Context) :
    (rewritten policy operation advances before).record = before.record ∨
      AuthorityStateMachine.Applied policy before.record operation
        (rewritten policy operation advances before).record := by
  rw [rewritten]
  split
  case h_1 => exact Or.inl rfl
  case h_2 record hrecord =>
    exact Or.inr (AuthorityStateMachine.applied_of_recordAfter hrecord)

/-- The record after a call is the one before or what an operation made of it,
and only a promotion promotes. -/
theorem contextAfter_cases (call : AuthorityCall) (before : Context) :
    (contextAfter call before).record = before.record ∨
      ∃ operation, AuthorityStateMachine.Applied (registryOf call).transitionPolicy
          before.record operation (contextAfter call before).record ∧
        ((∃ reason proofId, operation = .governancePromoteElevated reason proofId) →
          ∃ registry reason proofId,
            call = .governancePromoteElevated registry reason proofId) := by
  cases call with
  | register registry policyVersion => exact Or.inl rfl
  | recordTrust registry trustDecision =>
      refine (rewritten_cases _ _ _ before).imp id fun happlied => ⟨_, happlied, ?_⟩
      rintro ⟨reason, proofId, hoperation⟩
      cases hoperation
  | governancePromoteElevated registry reason proofId =>
      refine (rewritten_cases _ _ _ before).imp id fun happlied => ⟨_, happlied, ?_⟩
      exact fun _ => ⟨registry, reason, proofId, rfl⟩
  | suspend registry reason =>
      refine (rewritten_cases _ _ _ before).imp id fun happlied => ⟨_, happlied, ?_⟩
      rintro ⟨reason, proofId, hoperation⟩
      cases hoperation
  | governanceReset registry reason =>
      rw [contextAfter]
      split
      · exact Or.inl rfl
      · refine (rewritten_cases _ _ _ before).imp id fun happlied => ⟨_, happlied, ?_⟩
        rintro ⟨reason, proofId, hoperation⟩
        cases hoperation
  | rotatePolicy registry policyVersion =>
      rw [contextAfter]
      split <;> exact Or.inl rfl

theorem contextAfter_meets (call : AuthorityCall) {before : Context}
    (hmeets : MeetsThresholds (registryOf call).transitionPolicy before) :
    MeetsThresholds (registryOf call).transitionPolicy (contextAfter call before) := by
  intro helevated
  rcases contextAfter_cases call before with hsame | ⟨operation, happlied, -⟩
  · rw [hsame] at helevated ⊢
    exact hmeets helevated
  · rcases happlied.elevated helevated with ⟨-, hthresholds⟩ | ⟨hbefore, htrusted, hfailed⟩
    · exact hthresholds
    · obtain ⟨hmin, hmax⟩ := hmeets hbefore
      exact ⟨hmin.trans htrusted, hfailed.trans_le hmax⟩

theorem contextsAfter_meets {registry : AgentAuthorityRegistry} {calls : List AuthorityCall}
    (hregistry : ∀ call ∈ calls, registryOf call = registry) {before : Context}
    (hmeets : MeetsThresholds registry.transitionPolicy before) :
    MeetsThresholds registry.transitionPolicy (contextsAfter calls before) := by
  induction calls generalizing before with
  | nil => exact hmeets
  | cons call calls ih =>
      apply ih fun other hother => hregistry other (List.mem_cons_of_mem _ hother)
      have hcall := hregistry call List.mem_cons_self
      rw [← hcall] at hmeets ⊢
      exact contextAfter_meets call hmeets

/-- An agent becomes elevated through a promotion alone. -/
theorem promotes_of_contextAfter {call : AuthorityCall} {before : Context}
    (hbefore : before.record.state ≠ .elevated)
    (helevated : (contextAfter call before).record.state = .elevated) :
    ∃ registry reason proofId, call = .governancePromoteElevated registry reason proofId := by
  rcases contextAfter_cases call before with hsame | ⟨operation, happlied, hpromotes⟩
  · rw [hsame] at helevated
    exact absurd helevated hbefore
  · rcases happlied.elevated helevated with ⟨hpromotion, -⟩ | ⟨hstate, -⟩
    · exact hpromotes hpromotion
    · exact absurd hstate hbefore

/-! ## A registered agent -/

/-- Registering an agent that has no row leaves it in its first context. -/
theorem context_of_register {registry : AgentAuthorityRegistry} {agentId : String}
    {policyVersion : Option String} {authority : AgentAuthority} {world start : World}
    (hfresh : world.registry.lookup agentId = none)
    (hregister : (registry.register agentId policyVersion).run execute world =
      (.ok authority, start)) :
    agentId ≠ "" ∧ ∃ first, context agentId start = some first ∧
      first.record = { agentId := agentId } := by
  have hagent : agentId ≠ "" := by
    obtain ⟨_, _, hcheck, -⟩ := Program.run_bind_eq_ok execute hregister
    exact (Program.run_raiseIf_eq_ok execute hcheck).1
  obtain ⟨_, after, hrun, hstored⟩ := run_register registry hagent policyVersion world
  rw [hregister] at hrun
  obtain rfl := (Prod.mk.inj hrun).2
  refine ⟨hagent, ?_⟩
  simp only [stored, hfresh, Option.map_none, Option.getD_none, Option.map_eq_some_iff,
    Prod.mk.injEq] at hstored
  obtain ⟨row, hrow, -, hrecord⟩ := hstored
  exact ⟨_, by rw [context, hrow]; rfl, hrecord⟩

/-- Calls that run one after the other on a registered agent: a change of state
or policy version outdates every grant issued before it for good, and elevated
authority meets the thresholds and is entered through a promotion alone. -/
theorem superseded_epoch_never_authorizes {registry : AgentAuthorityRegistry}
    {agentId : String} {policyVersion : Option String} {authority : AgentAuthority}
    {world start : World} (hfresh : world.registry.lookup agentId = none)
    (hregister : (registry.register agentId policyVersion).run execute world =
      (.ok authority, start))
    {calls : List AuthorityCall} (hregistry : ∀ call ∈ calls, registryOf call = registry) :
    (∀ earlier middle later, calls = earlier ++ middle ++ later →
      ∃ before between, context agentId (afterCalls agentId earlier start) = some before ∧
        context agentId (afterCalls agentId (earlier ++ middle) start) = some between ∧
          (before.Differs between → before.epoch < between.epoch ∧
            ∀ gate intent evidenceIds now clock, ∀ signed : SignedCapabilityGrant,
              signed.grant.agentId = agentId → signed.grant.authorityEpoch ≤ before.epoch →
                ∃ error, ((ExecutionGate.authorize gate signed intent evidenceIds now).run
                  execute { afterCalls agentId calls start with clock := clock }).1 =
                    .error error)) ∧
    (∃ current, context agentId (afterCalls agentId calls start) = some current ∧
      MeetsThresholds registry.transitionPolicy current) ∧
    ∀ call before after, context agentId (afterCalls agentId calls start) = some before →
      context agentId (afterCalls agentId (calls ++ [call]) start) = some after →
        before.record.state ≠ .elevated → after.record.state = .elevated →
          ∃ on reason proofId, call = .governancePromoteElevated on reason proofId := by
  obtain ⟨hagent, first, hfirst, hrecord⟩ := context_of_register hfresh hregister
  have hafter : ∀ made, context agentId (afterCalls agentId made start) =
      some (contextsAfter made first) := fun made => context_afterCalls hagent made hfirst
  refine ⟨fun earlier middle later hsplit => ?_, ⟨_, hafter calls, ?_⟩, ?_⟩
  · refine ⟨_, _, hafter earlier, hafter (earlier ++ middle), fun hdiffers => ?_⟩
    have hmiddle : contextsAfter (earlier ++ middle) first =
        contextsAfter middle (contextsAfter earlier first) := List.foldl_append
    have hlater : contextsAfter calls first =
        contextsAfter later (contextsAfter (earlier ++ middle) first) := by
      rw [hsplit]
      exact List.foldl_append
    have hgrows : (contextsAfter earlier first).epoch <
        (contextsAfter (earlier ++ middle) first).epoch := by
      rw [hmiddle] at hdiffers ⊢
      exact (contextsAfter_epoch middle _).2 hdiffers
    refine ⟨hgrows, fun gate intent evidenceIds now clock signed hsigned hissued => ?_⟩
    have hlast : (contextsAfter (earlier ++ middle) first).epoch ≤
        (contextsAfter calls first).epoch := by
      rw [hlater]
      exact (contextsAfter_epoch later _).1
    have hstored : context signed.grant.agentId
        { afterCalls agentId calls start with clock := clock } =
          some (contextsAfter calls first) := by
      rw [hsigned]
      exact hafter calls
    exact authorize_refuses hstored (by omega) gate intent evidenceIds now
  · apply contextsAfter_meets hregistry
    rw [MeetsThresholds, hrecord]
    exact fun helevated => by cases helevated
  · intro call before after hbefore hafterCall hnot helevated
    rw [hafter] at hbefore hafterCall
    obtain rfl := Option.some.inj hbefore
    obtain rfl := Option.some.inj hafterCall
    apply promotes_of_contextAfter hnot
    rw [contextsAfter, List.foldl_append] at helevated
    exact helevated

/-- The world of the samples is the one after a registration. -/
theorem register_sample : ∃ authority,
    (({} : AgentAuthorityRegistry).register "agent-1" none).run execute (World.initial 0) =
      (.ok authority, Sample.world) := by
  have hrun : ((({} : AgentAuthorityRegistry).register "agent-1" none).run execute
      (World.initial 0)).1.isOk = true := by decide +kernel
  rw [Sample.world, body]
  revert hrun
  rcases (({} : AgentAuthorityRegistry).register "agent-1" none).run execute
    (World.initial 0) with ⟨error | authority, after⟩
  · intro hrun
    cases hrun
  · exact fun _ => ⟨authority, rfl⟩

/-- Trusted, suspended, reset and trusted again: the same state and version as
after the first outcome. -/
def standardAgain : List AuthorityCall :=
  [.recordTrust {} (some ⟨.trusted, "proof-1"⟩), .suspend {} "incident",
    .governanceReset {} "cleared", .recordTrust {} (some ⟨.trusted, "proof-2"⟩)]

/-- The grant of the first outcome's context is refused in the last one. -/
theorem superseded_standardAgain :
    ∃ error, ((Sample.gate.authorize (Sample.signer.sign { Sample.grant with
        authorityEpoch := 2
        authorityState := .standard }) Sample.intent [] none).run execute
      { afterCalls "agent-1" standardAgain Sample.world with clock := 0 }).1 =
        .error error := by
  obtain ⟨authority, hregister⟩ := register_sample
  have hregistry : ∀ call ∈ standardAgain, registryOf call = {} := by
    simp [standardAgain, registryOf]
  obtain ⟨before, between, hbefore, hbetween, hsuperseded⟩ :=
    (superseded_epoch_never_authorizes rfl hregister hregistry).1
      (standardAgain.take 1) [.suspend {} "incident"] (standardAgain.drop 2) rfl
  have hstandard : (context "agent-1" (afterCalls "agent-1" (standardAgain.take 1)
      Sample.world)).map (fun current => (current.epoch, current.record.state)) =
        some (2, .standard) := by
    decide +kernel
  have hsuspended : (context "agent-1" (afterCalls "agent-1"
      (standardAgain.take 1 ++ [.suspend {} "incident"]) Sample.world)).map
        (fun current => current.record.state) = some .suspended := by
    decide +kernel
  rw [hbefore, Option.map_some, Option.some.injEq, Prod.mk.injEq] at hstandard
  rw [hbetween, Option.map_some, Option.some.injEq] at hsuspended
  have hdiffers : before.Differs between := by
    left
    rw [hstandard.2, hsuspended]
    decide
  exact (hsuperseded hdiffers).2 Sample.gate Sample.intent [] none 0 _ rfl (by
    rw [hstandard.1]
    exact le_rfl)

end AegisForge.Shared.AuthorityEpochs
