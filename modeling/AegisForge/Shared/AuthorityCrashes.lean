import AegisForge.Concurrency.Crash
import AegisForge.Shared.AuthorityEpochs

/-!
# Crashes of authority calls

What a crash leaves of a call on the registry.  `save` commits on its own, and
the epoch is advanced by a second commit, so a crash between the two leaves the
new record under the old epoch.
-/

namespace AegisForge.Shared.AuthorityCrashes

open AegisForge.Core AegisForge.Concurrency AuthorityUpdates AuthorityEpochs
open AuthorityStateMachine (Operation recordAfter apply_cases)

/-- The statements that write, each in a commit of its own. -/
def isCommit : Statement → Bool
  | .readClock => false
  | .selectRegistryRow _ => false
  | .selectAuthorityState _ => false
  | .selectAuthorityTransitions _ => false
  | .selectGrantStatus _ => false
  | .selectGrantPayload _ => false
  | .selectLatestAttemptId _ => false
  | .selectAttemptIdByGrant _ => false
  | .selectAttempt _ => false
  | .selectExpiredLeases _ => false
  | .selectStaleRunning _ _ => false
  | .selectReviewIdByAttempt _ => false
  | .selectReview _ => false
  | .selectOperation _ => false
  | .selectLastEventHash _ => false
  | .selectEvidence _ => false
  | _ => true

theorem execute_of_not_isCommit (statement : Statement) (world : World)
    (hreads : isCommit statement = false) : (execute statement world).2 = world := by
  cases statement with
  | readClock | selectRegistryRow | selectAuthorityState | selectAuthorityTransitions
  | selectGrantStatus | selectGrantPayload | selectLatestAttemptId | selectAttemptIdByGrant
  | selectAttempt | selectExpiredLeases | selectStaleRunning | selectReviewIdByAttempt
  | selectReview | selectOperation | selectLastEventHash | selectEvidence => rfl
  | _ => cases hreads

/-- All that the database holds about the authority of a registered agent. -/
structure CompleteAuthority where
  row : AuthorityRegistryRow
  record : Option AuthorityStateRecord
  history : List AuthorityTransition
  deriving DecidableEq

def historyOf (agentId : String) (world : World) : List AuthorityTransition :=
  world.transitions.filter fun transition => transition.agentId = agentId

def complete (agentId : String) (world : World) : Option CompleteAuthority :=
  (world.registry.lookup agentId).map fun row =>
    ⟨row, world.authority.lookup agentId, historyOf agentId world⟩

/-- Whether a call that changed the state goes on to advance the epoch. -/
def advances : AuthorityCall → AuthorityState → AuthorityState → Bool
  | .recordTrust _ _, previous, current => current ≠ previous
  | _, _, _ => true

/-- The call is accepted in this context and advances the epoch after its save. -/
def bumpsEpoch (call : AuthorityCall) (before : Context) : Bool :=
  (operationOf call).any fun operation =>
    (recordAfter (registryOf call).transitionPolicy operation before.record).any fun record =>
      advances call before.record.state record.state

/-- The commits of a call before a crash. -/
def commitsBefore (agentId : String) (call : AuthorityCall) (count : ℕ) (world : World) : ℕ :=
  (body agentId call).committed execute isCommit count world

/-- The crash comes after the save of a call that would have advanced the epoch. -/
def Interrupts (agentId : String) (call : AuthorityCall) (count : ℕ) (world : World) : Prop :=
  commitsBefore agentId call count world = 1 ∧
    ∃ before, context agentId world = some before ∧ bumpsEpoch call before = true

/-- A crash leaves the complete old authority or the complete new one. -/
def LeavesComplete (agentId : String) (call : AuthorityCall) (count : ℕ) (world : World) :
    Prop :=
  complete agentId ((body agentId call).crash execute count world) = complete agentId world ∨
    complete agentId ((body agentId call).crash execute count world) =
      complete agentId ((body agentId call).run execute world).2

variable {agentId : String} {world : World}

/-! ## Reading a machine -/

/-- The call commits nothing. -/
abbrev Reads {Value : Type} (action : Action Value) : Prop :=
  action.Within fun statement => isCommit statement = false

theorem reads_send {statement : Statement} (hreads : isCommit statement = false) :
    Reads (send statement) :=
  within_send hreads

theorem reads_load (agentId : String) : Reads (AuthorityStateStore.load agentId) := by
  apply Program.within_raiseIf.bind
  intro _
  apply (reads_send rfl).bind
  intro record
  cases record with
  | none => exact Program.within_ofExcept
  | some record => exact (reads_send rfl).bind fun _ => trivial

theorem reads_get (registry : AgentAuthorityRegistry) (agentId : String) :
    Reads (registry.get agentId) := by
  apply Program.within_raiseIf.bind
  intro _
  apply (reads_send rfl).bind
  intro row
  cases row with
  | none => trivial
  | some row => exact (reads_load agentId).bind fun _ => trivial

theorem reads_machine (registry : AgentAuthorityRegistry) (agentId : String) :
    Reads (registry.machine agentId) :=
  (reads_get registry agentId).bind fun _ => (reads_load agentId).bind fun _ => trivial

/-- The machine as it is stored. -/
def storedMachine (registry : AgentAuthorityRegistry) (agentId : String) (world : World) :
    AuthorityStateMachine where
  record := (world.authority.lookup agentId).getD { agentId := agentId }
  history := if (world.authority.lookup agentId).isSome then historyOf agentId world else []
  transitionPolicy := registry.transitionPolicy

theorem run_machine_eq (registry : AgentAuthorityRegistry) (hagent : agentId ≠ "")
    {row : AuthorityRegistryRow} (hrow : world.registry.lookup agentId = some row) :
    (registry.machine agentId).run execute world =
      (.ok (storedMachine registry agentId world), world) := by
  obtain ⟨authority, hget⟩ := run_get registry hagent hrow
  cases hrecord : world.authority.lookup agentId with
  | none =>
      simp [AgentAuthorityRegistry.machine, Program.run_bind, hget, AuthorityStateStore.load,
        Program.raiseIf, hagent, send, Program.call, execute, hrecord,
        AuthorityStateMachine.new, Program.ofExcept, storedMachine]
  | some record =>
      simp [AgentAuthorityRegistry.machine, Program.run_bind, hget, AuthorityStateStore.load,
        Program.raiseIf, hagent, send, Program.call, execute, hrecord, storedMachine,
        historyOf]

/-- An operation that answers appends its transition to the history. -/
theorem history_of_apply {machine after : AuthorityStateMachine} {operation : Operation}
    {transition : AuthorityTransition}
    (happly : machine.apply operation = .ok (transition, after)) :
    after.history = machine.history ++ [transition] ∧
      transition.agentId = machine.record.agentId := by
  cases operation with
  | governanceReset =>
      cases happly
      exact ⟨rfl, rfl⟩
  | suspend reason =>
      simp only [AuthorityStateMachine.apply, AuthorityStateMachine.suspend] at happly
      split at happly
      · cases happly
      · cases happly
        exact ⟨rfl, rfl⟩
  | governancePromoteElevated reason proofId =>
      simp only [AuthorityStateMachine.apply,
        AuthorityStateMachine.governancePromoteElevated] at happly
      split at happly
      · cases happly
      · split at happly
        · cases happly
        · split at happly
          · cases happly
            exact ⟨rfl, rfl⟩
          · cases happly
  | applyTrust trustDecision =>
      cases trustDecision with
      | none => cases happly
      | some decision =>
          simp only [AuthorityStateMachine.apply, AuthorityStateMachine.applyTrust] at happly
          split at happly
          · cases happly
          · cases hstatus : decision.status <;> rw [hstatus] at happly <;> cases happly <;>
              exact ⟨rfl, rfl⟩

/-! ## The two commits -/

theorem complete_saveAuthority {record : AuthorityStateRecord}
    {history : List AuthorityTransition} {row : AuthorityRegistryRow}
    (hagent : record.agentId = agentId)
    (hhistory : ∀ transition ∈ history, transition.agentId = agentId)
    (hrow : world.registry.lookup agentId = some row) :
    complete agentId (execute (.saveAuthority record history) world).2 =
      some ⟨row, some record, history⟩ := by
  have hkept : historyOf agentId (execute (.saveAuthority record history) world).2 =
      history := by
    rw [historyOf, execute, List.filter_append, List.filter_filter, hagent]
    have hothers : (world.transitions.filter fun transition =>
        (decide (transition.agentId = agentId)) &&
          decide (transition.agentId ≠ agentId)) = [] := by
      simp
    have hown : history.filter (fun transition => transition.agentId = agentId) = history :=
      List.filter_eq_self.mpr fun transition hmem => by simp [hhistory transition hmem]
    rw [hothers, hown, List.nil_append]
  rw [complete, lookup_registry_execute, lookup_authority_execute, hkept]
  simp [registryEffect, authorityEffect, hagent, hrow]

theorem complete_incrementEpoch {current : CompleteAuthority}
    (hcurrent : complete agentId world = some current) :
    complete agentId (execute (.incrementEpoch agentId) world).2 =
      some { current with row := current.row.nextEpoch } := by
  obtain ⟨row, hrow, rfl⟩ := Option.map_eq_some_iff.mp hcurrent
  rw [complete, lookup_registry_execute, lookup_authority_execute]
  simp [registryEffect, authorityEffect, hrow, historyOf, execute]

/-- The database after the save of an operation, and after the epoch behind it. -/
def saved (next : AuthorityStateMachine) (world : World) : World :=
  (execute (.saveAuthority next.record next.history) world).2

def advanced (agentId : String) (next : AuthorityStateMachine) (world : World) : World :=
  (execute (.incrementEpoch agentId) (saved next world)).2

theorem lookup_registry_saved (next : AuthorityStateMachine) (world : World) :
    (saved next world).registry.lookup agentId = world.registry.lookup agentId := by
  rw [saved, lookup_registry_execute]
  rfl

/-- What a number of commits leaves of an operation on a registered agent. -/
theorem afterCommits_rewrite (registry : AgentAuthorityRegistry) (hagent : agentId ≠ "")
    {row : AuthorityRegistryRow} (hrow : world.registry.lookup agentId = some row)
    (operation : Operation) (advances : AuthorityState → AuthorityTransition → Bool)
    (count : ℕ) :
    Program.afterCommits execute isCommit count (registry.rewrite agentId operation advances)
        world =
      match (storedMachine registry agentId world).apply operation with
      | .error _ => world
      | .ok (transition, next) =>
          if count = 0 then world
          else if advances (storedMachine registry agentId world).state transition ∧
              count ≠ 1 then advanced agentId next world
          else saved next world := by
  rw [AgentAuthorityRegistry.rewrite, Program.bind_eq,
    Program.afterCommits_bind (reads_machine registry agentId),
    run_machine_eq registry hagent hrow]
  dsimp only
  rw [Program.bind_eq, Program.afterCommits_bind Program.within_ofExcept]
  cases happly : (storedMachine registry agentId world).apply operation with
  | error error => rfl
  | ok answer =>
      obtain ⟨transition, next⟩ := answer
      dsimp only [Program.ofExcept, Program.run_done]
      rw [AuthorityStateStore.save, Program.bind_eq, send, Program.afterCommits_commit rfl]
      cases count with
      | zero => rfl
      | succ count =>
          have hread : ∀ (store : World) (row : AuthorityRegistryRow) (count : ℕ),
              store.registry.lookup agentId = some row →
              Program.afterCommits execute isCommit count
                ((registry.get agentId).bind fun authority =>
                  Program.done (authority, transition)) store = store := by
            intro store row count hstore
            obtain ⟨authority, hget⟩ := run_get registry hagent hstore
            rw [Program.afterCommits_bind_done,
              Program.afterCommits_of_within (reads_get registry agentId), hget]
          have hsaved := (lookup_registry_saved next world).trans hrow
          dsimp only
          rw [AgentAuthorityRegistry.settle]
          cases hadvances : advances (storedMachine registry agentId world).state transition with
          | false =>
              rw [if_neg count.succ_ne_zero, if_neg Bool.false_ne_true,
                if_neg fun hboth => Bool.false_ne_true hboth.1]
              exact hread (saved next world) row count hsaved
          | true =>
              simp only [if_true, Program.bind_eq]
              rw [send, Program.afterCommits_commit rfl]
              cases count with
              | zero => rfl
              | succ count =>
                  have hadvanced : (advanced agentId next world).registry.lookup agentId =
                      some row.nextEpoch := by
                    rw [advanced, lookup_registry_execute, hsaved]
                    simp [registryEffect]
                  rw [if_neg (Nat.succ_ne_zero _), if_pos ⟨trivial, by omega⟩]
                  exact hread (advanced agentId next world) row.nextEpoch count hadvanced

/-- A crash between the two commits leaves neither the old nor the new authority:
the history has grown and the epoch has not. -/
theorem complete_saved_ne {registry : AgentAuthorityRegistry} {row : AuthorityRegistryRow}
    (hrow : world.registry.lookup agentId = some row) {operation : Operation}
    {transition : AuthorityTransition} {next : AuthorityStateMachine}
    (happly : (storedMachine registry agentId world).apply operation =
      .ok (transition, next)) :
    complete agentId (saved next world) ≠ complete agentId world ∧
      complete agentId (saved next world) ≠ complete agentId (advanced agentId next world) := by
  have hloaded : (storedMachine registry agentId world).record.agentId = agentId :=
    agentId_getD
  obtain ⟨hhistory, htransition⟩ := history_of_apply happly
  have hagent : next.record.agentId = agentId := by
    rcases AuthorityStateMachine.apply_cases (storedMachine registry agentId world) operation
      with ⟨other, after, hother, hkept, -⟩ | ⟨error, herror, -⟩
    · rw [happly] at hother
      cases hother
      rw [hkept, hloaded]
    · rw [happly] at herror
      cases herror
  have hall : ∀ entry ∈ next.history, entry.agentId = agentId := by
    intro entry hentry
    rw [hhistory, List.mem_append, List.mem_singleton] at hentry
    rcases hentry with hentry | rfl
    · rw [storedMachine] at hentry
      split at hentry
      · simpa using (List.mem_filter.mp hentry).2
      · cases hentry
    · rw [htransition, hloaded]
  have hsaved := complete_saveAuthority hagent hall hrow
  constructor
  · rw [saved, hsaved, complete, hrow]
    intro hsame
    simp only [Option.map_some, Option.some.injEq, CompleteAuthority.mk.injEq] at hsame
    obtain ⟨-, hrecord, hsame⟩ := hsame
    have hlength := congrArg List.length hsame
    rw [hhistory, storedMachine, ← hrecord] at hlength
    simp at hlength
  · rw [advanced, saved, hsaved, complete_incrementEpoch hsaved]
    intro hsame
    have hrows := congrArg CompleteAuthority.row (Option.some.inj hsame)
    exact absurd (congrArg AuthorityRegistryRow.authorityEpoch hrows) (Nat.succ_ne_self _).symm

/-! ## Whole calls -/

/-- What the commits of a call leave. -/
def leaves (agentId : String) (call : AuthorityCall) (count : ℕ) (world : World) : World :=
  Program.afterCommits execute isCommit count (body agentId call) world

theorem crash_eq_leaves (agentId : String) (call : AuthorityCall) (count : ℕ)
    (world : World) :
    (body agentId call).crash execute count world =
      leaves agentId call (commitsBefore agentId call count world) world :=
  Program.crash_eq_afterCommits execute_of_not_isCommit _ count world

theorem afterCommits_authorityOf (action : Action (AgentAuthority × AuthorityTransition))
    (count : ℕ) (world : World) :
    Program.afterCommits execute isCommit count (authorityOf action) world =
      Program.afterCommits execute isCommit count action world :=
  Program.afterCommits_bind_done action Prod.fst count world

/-- An operation of a call commits twice if it is accepted and advances the
epoch, and at most once otherwise. -/
theorem leaves_rewrite (registry : AgentAuthorityRegistry) (hagent : agentId ≠ "")
    {before : Context} (hcontext : context agentId world = some before)
    (operation : Operation) {advances : AuthorityState → AuthorityTransition → Bool}
    {changed : AuthorityState → AuthorityState → Bool}
    (hadvances : ∀ previous transition,
      advances previous transition = changed previous transition.newState) :
    (((recordAfter registry.transitionPolicy operation before.record).any fun record =>
        changed before.record.state record.state) = true ∧
      ∃ next, complete agentId (saved next world) ≠ complete agentId world ∧
        complete agentId (saved next world) ≠ complete agentId (advanced agentId next world) ∧
        ∀ count, Program.afterCommits execute isCommit count
          (authorityOf (registry.rewrite agentId operation advances)) world =
            if count = 0 then world else if count = 1 then saved next world
            else advanced agentId next world) ∨
    (((recordAfter registry.transitionPolicy operation before.record).any fun record =>
        changed before.record.state record.state) = false ∧
      ∃ last, ∀ count, Program.afterCommits execute isCommit count
        (authorityOf (registry.rewrite agentId operation advances)) world =
          if count = 0 then world else last) := by
  obtain ⟨row, hrow, -, -, hrecord⟩ := lookup_of_context hcontext
  simp only [afterCommits_authorityOf, afterCommits_rewrite registry hagent hrow]
  have hloaded : (storedMachine registry agentId world).record = before.record := hrecord
  rcases AuthorityStateMachine.apply_cases (storedMachine registry agentId world) operation
    with ⟨transition, next, happly, -, hafter⟩ | ⟨error, herror, hnone⟩
  · have hstate : advances (storedMachine registry agentId world).state transition =
        changed before.record.state next.record.state := by
      rw [hadvances, (AuthorityStateMachine.applied_of_apply happly).2, ← hloaded]
      rfl
    have hafter : recordAfter registry.transitionPolicy operation before.record =
        some next.record := by
      rw [← hloaded]
      exact hafter
    simp only [happly, hafter, Option.any_some, hstate]
    cases hchanged : changed before.record.state next.record.state with
    | true =>
        obtain ⟨hold, hnew⟩ := complete_saved_ne hrow happly
        refine Or.inl ⟨rfl, next, hold, hnew, fun count => ?_⟩
        split_ifs <;> simp_all
    | false =>
        refine Or.inr ⟨rfl, saved next world, fun count => ?_⟩
        split_ifs <;> simp_all
  · have hafter : recordAfter registry.transitionPolicy operation before.record = none := by
      rw [← hloaded]
      exact hnone
    simp only [herror, hafter, Option.any_none]
    exact Or.inr ⟨trivial, world, fun count => by split <;> rfl⟩

theorem leaves_of_context (hagent : agentId ≠ "") {before : Context}
    (hcontext : context agentId world = some before) (call : AuthorityCall) :
    (bumpsEpoch call before = true ∧
      ∃ next, complete agentId (saved next world) ≠ complete agentId world ∧
        complete agentId (saved next world) ≠ complete agentId (advanced agentId next world) ∧
        ∀ count, leaves agentId call count world =
          if count = 0 then world else if count = 1 then saved next world
          else advanced agentId next world) ∨
    (bumpsEpoch call before = false ∧
      ∃ last, ∀ count, leaves agentId call count world =
        if count = 0 then world else last) := by
  obtain ⟨row, hrow, -⟩ := lookup_of_context hcontext
  cases call with
  | recordTrust registry trustDecision =>
      exact leaves_rewrite registry hagent hcontext _ fun _ _ => rfl
  | governancePromoteElevated registry reason proofId =>
      exact leaves_rewrite registry hagent hcontext _ fun _ _ => rfl
  | suspend registry reason =>
      exact leaves_rewrite registry hagent hcontext _ fun _ _ => rfl
  | governanceReset registry reason =>
      by_cases hreason : reason = ""
      · refine Or.inr ⟨by simp [bumpsEpoch, operationOf, hreason], world, fun count => ?_⟩
        cases count <;> simp [leaves, body, authorityOf,
          AgentAuthorityRegistry.governanceReset, Program.raiseIf, hreason,
          Program.afterCommits]
      · have hbody : body agentId (.governanceReset registry reason) =
            authorityOf (registry.rewrite agentId .governanceReset fun _ _ => true) := by
          simp [body, AgentAuthorityRegistry.governanceReset, Program.raiseIf, hreason]
        have hoperation : operationOf (.governanceReset registry reason) =
            some .governanceReset := if_neg hreason
        rw [bumpsEpoch, hoperation, Option.any_some]
        simp only [leaves, hbody]
        exact leaves_rewrite registry hagent hcontext _ fun _ _ => rfl
  | register registry policyVersion =>
      refine Or.inr ⟨rfl, world, fun count => ?_⟩
      obtain ⟨authority, hget⟩ := run_get registry hagent hrow
      have hselect : (send (.selectRegistryRow agentId)).run execute world =
          (.ok (some row), world) := by
        rw [← hrow]
        rfl
      rw [leaves, body, AgentAuthorityRegistry.register, Program.raiseIf, if_neg hagent,
        Program.bind_eq, Program.done_bind, Program.bind_eq,
        Program.afterCommits_bind (reads_send rfl), hselect]
      dsimp only
      rw [Program.afterCommits_of_within (reads_get registry agentId), hget, ite_self]
  | rotatePolicy registry policyVersion =>
      by_cases hversion : policyVersion = ""
      · refine Or.inr ⟨rfl, world, fun count => ?_⟩
        cases count <;> simp [leaves, body, AgentAuthorityRegistry.rotatePolicy,
          Program.raiseIf, hversion, Program.afterCommits]
      · refine Or.inr ⟨rfl, (execute (.updatePolicyVersion agentId policyVersion) world).2,
          fun count => ?_⟩
        obtain ⟨authority, hget⟩ := run_get registry hagent hrow
        rw [leaves, body, AgentAuthorityRegistry.rotatePolicy, Program.raiseIf,
          if_neg hversion, Program.bind_eq, Program.done_bind, Program.bind_eq,
          Program.afterCommits_bind (reads_get registry agentId), hget]
        dsimp only
        rw [Program.bind_eq, send, Program.afterCommits_commit rfl]
        cases count with
        | zero => rfl
        | succ count =>
            have hlookup : (execute (.updatePolicyVersion agentId policyVersion)
                world).2.registry.lookup agentId = some (row.rotate policyVersion) := by
              rw [lookup_registry_execute, hrow]
              simp [registryEffect]
            obtain ⟨last, hlast⟩ := run_get registry hagent hlookup
            dsimp only
            rw [Program.afterCommits_of_within (reads_get registry agentId), hlast,
              if_neg count.succ_ne_zero]

theorem complete_of_unregistered (hrow : world.registry.lookup agentId = none) :
    complete agentId world = none := by
  rw [complete, hrow, Option.map_none]

theorem run_get_of_unregistered (registry : AgentAuthorityRegistry)
    (hrow : world.registry.lookup agentId = none) :
    ∃ error, (registry.get agentId).run execute world = (.error error, world) := by
  by_cases hagent : agentId = ""
  · exact ⟨_, by simp [AgentAuthorityRegistry.get, Program.raiseIf, hagent]; rfl⟩
  · refine ⟨AgentAuthorityRegistry.agentAuthorityError "agent_not_registered", ?_⟩
    simp [AgentAuthorityRegistry.get, Program.raiseIf, hagent, send, Program.call, execute, hrow]

theorem leaves_rewrite_of_unregistered (registry : AgentAuthorityRegistry)
    (hrow : world.registry.lookup agentId = none) (operation : Operation)
    (advances : AuthorityState → AuthorityTransition → Bool) (count : ℕ) :
    Program.afterCommits execute isCommit count
      (authorityOf (registry.rewrite agentId operation advances)) world = world := by
  obtain ⟨error, hget⟩ := run_get_of_unregistered registry hrow
  have hmachine : (registry.machine agentId).run execute world = (.error error, world) := by
    simp [AgentAuthorityRegistry.machine, Program.run_bind, hget]
  rw [afterCommits_authorityOf, AgentAuthorityRegistry.rewrite, Program.bind_eq,
    Program.afterCommits_bind (reads_machine registry agentId), hmachine]

/-- An agent that no row registers has no authority until a second commit. -/
theorem leaves_of_unregistered (hrow : world.registry.lookup agentId = none)
    (call : AuthorityCall) :
    ∃ last, ∀ count,
      (count < 2 → complete agentId (leaves agentId call count world) = none) ∧
        (2 ≤ count → leaves agentId call count world = last) := by
  have hnone := complete_of_unregistered hrow
  have hsame : (∀ count, leaves agentId call count world = world) →
      ∃ last, ∀ count,
        (count < 2 → complete agentId (leaves agentId call count world) = none) ∧
          (2 ≤ count → leaves agentId call count world = last) := by
    intro hkept
    exact ⟨world, fun count => ⟨fun _ => by rw [hkept count, hnone], fun _ => hkept count⟩⟩
  cases call with
  | recordTrust registry trustDecision =>
      exact hsame (leaves_rewrite_of_unregistered registry hrow _ _)
  | governancePromoteElevated registry reason proofId =>
      exact hsame (leaves_rewrite_of_unregistered registry hrow _ _)
  | suspend registry reason =>
      exact hsame (leaves_rewrite_of_unregistered registry hrow _ _)
  | governanceReset registry reason =>
      apply hsame
      intro count
      by_cases hreason : reason = ""
      · cases count <;> simp [leaves, body, authorityOf,
          AgentAuthorityRegistry.governanceReset, Program.raiseIf, hreason,
          Program.afterCommits]
      · have hbody : body agentId (.governanceReset registry reason) =
            authorityOf (registry.rewrite agentId .governanceReset fun _ _ => true) := by
          simp [body, AgentAuthorityRegistry.governanceReset, Program.raiseIf, hreason]
        rw [leaves, hbody]
        exact leaves_rewrite_of_unregistered registry hrow _ _ count
  | rotatePolicy registry policyVersion =>
      apply hsame
      intro count
      obtain ⟨error, hget⟩ := run_get_of_unregistered registry hrow
      by_cases hversion : policyVersion = ""
      · cases count <;> simp [leaves, body, AgentAuthorityRegistry.rotatePolicy,
          Program.raiseIf, hversion, Program.afterCommits]
      · rw [leaves, body, AgentAuthorityRegistry.rotatePolicy, Program.raiseIf,
          if_neg hversion, Program.bind_eq, Program.done_bind, Program.bind_eq,
          Program.afterCommits_bind (reads_get registry agentId), hget]
  | register registry policyVersion =>
      by_cases hagent : agentId = ""
      · apply hsame
        intro count
        cases count <;> simp [leaves, body, AgentAuthorityRegistry.register,
          Program.raiseIf, hagent, Program.afterCommits]
      · have hselect : (send (.selectRegistryRow agentId)).run execute world =
            (.ok none, world) := by
          rw [← hrow]
          rfl
        have hnew : AuthorityStateMachine.new agentId registry.transitionPolicy =
            .ok ⟨{ agentId := agentId }, [], registry.transitionPolicy⟩ := if_neg hagent
        generalize hmachine : (⟨{ agentId := agentId }, [], registry.transitionPolicy⟩ :
          AuthorityStateMachine) = machine at hnew
        generalize hversion : (policyVersion.filter (· ≠ "")).getD CapabilityPolicy.version =
          version
        -- what is left to do once the row is inserted reads only
        have hreads : ∀ inserted : Bool, Reads ((Program.raiseIf (inserted = false)
            ⟨.integrityError, "UNIQUE constraint failed: agent_authority_registry.agent_id"⟩ :
              Action PUnit).bind fun _ => registry.get agentId) :=
          fun inserted => Program.within_raiseIf.bind fun _ => reads_get registry agentId
        let inserting := execute (.insertRegistryRow agentId version) (saved machine world)
        refine ⟨(((Program.raiseIf (inserting.1 = false) ⟨.integrityError,
          "UNIQUE constraint failed: agent_authority_registry.agent_id"⟩ :
            Action PUnit).bind fun _ => registry.get agentId).run execute inserting.2).2,
          fun count => ?_⟩
        rw [leaves, body, AgentAuthorityRegistry.register, Program.raiseIf, if_neg hagent,
          Program.bind_eq, Program.done_bind, Program.bind_eq,
          Program.afterCommits_bind (reads_send rfl), hselect]
        dsimp only
        rw [hnew, hversion, Program.ofExcept, Program.bind_eq, Program.done_bind,
          AuthorityStateStore.save, Program.bind_eq, send, Program.afterCommits_commit rfl]
        cases count with
        | zero => exact ⟨fun _ => hnone, fun htwo => absurd htwo (by omega)⟩
        | succ count =>
            dsimp only
            rw [Program.bind_eq, send, Program.afterCommits_commit rfl]
            cases count with
            | zero =>
                refine ⟨fun _ => complete_of_unregistered ?_, fun htwo => absurd htwo (by omega)⟩
                exact (lookup_registry_saved machine world).trans hrow
            | succ count =>
                refine ⟨fun hless => absurd hless (by omega), fun _ => ?_⟩
                exact Program.afterCommits_of_within (hreads _) count _

/-- Once more commits change nothing, they have left what the whole run leaves. -/
theorem leaves_eq_run {call : AuthorityCall} (count : ℕ)
    (hsettled : ∀ more, count ≤ more →
      leaves agentId call more world = leaves agentId call count world) :
    leaves agentId call count world = ((body agentId call).run execute world).2 := by
  obtain ⟨bound, hbound⟩ :=
    Program.exists_afterCommits_eq_run (body agentId call) world
  rw [← hsettled (max bound count) (le_max_right _ _)]
  exact hbound (max bound count) (le_max_left _ _)

/-- Without an agent id every call raises at once. -/
theorem body_emptyAgent (call : AuthorityCall) : ∃ error, body "" call = .fail error := by
  cases call with
  | governanceReset registry reason =>
      by_cases hreason : reason = "" <;>
        simp [body, authorityOf, AgentAuthorityRegistry.governanceReset,
          AgentAuthorityRegistry.rewrite, AgentAuthorityRegistry.machine,
          AgentAuthorityRegistry.get, Program.raiseIf, hreason]
  | rotatePolicy registry policyVersion =>
      by_cases hversion : policyVersion = "" <;>
        simp [body, AgentAuthorityRegistry.rotatePolicy, AgentAuthorityRegistry.get,
          Program.raiseIf, hversion]
  | _ =>
      simp [body, authorityOf, AgentAuthorityRegistry.register,
        AgentAuthorityRegistry.recordTrust, AgentAuthorityRegistry.suspend,
        AgentAuthorityRegistry.governancePromoteElevated, AgentAuthorityRegistry.rewrite,
        AgentAuthorityRegistry.machine, AgentAuthorityRegistry.get, Program.raiseIf]

/-- A crash leaves a complete authority unless it comes between the two commits
of a call that advances the epoch. -/
theorem leavesComplete_iff_not_interrupts (agentId : String) (call : AuthorityCall)
    (count : ℕ) (world : World) :
    LeavesComplete agentId call count world ↔ ¬Interrupts agentId call count world := by
  by_cases hagent : agentId = ""
  · subst hagent
    obtain ⟨error, hbody⟩ := body_emptyAgent call
    refine iff_of_true (Or.inl ?_) fun hinterrupts => ?_
    · rw [hbody]
      cases count <;> rfl
    · have hcommits := hinterrupts.1
      rw [commitsBefore, hbody] at hcommits
      cases count <;> cases hcommits
  rw [LeavesComplete, Interrupts, crash_eq_leaves]
  generalize commitsBefore agentId call count world = commits
  cases hrow : world.registry.lookup agentId with
  | none =>
      have hcontext : context agentId world = none := by
        rw [context, hrow, Option.map_none]
      obtain ⟨last, hleaves⟩ := leaves_of_unregistered hrow call
      refine iff_of_true ?_ fun hinterrupts => ?_
      · rcases Nat.lt_or_ge commits 2 with hless | htwo
        · have hnone := (hleaves commits).1 hless
          exact Or.inl (hnone.trans (complete_of_unregistered hrow).symm)
        · refine Or.inr (congrArg (complete agentId) (leaves_eq_run commits fun more hmore => ?_))
          rw [(hleaves more).2 (htwo.trans hmore), (hleaves commits).2 htwo]
      · obtain ⟨-, before, hbefore, -⟩ := hinterrupts
        rw [hcontext] at hbefore
        cases hbefore
  | some row =>
      obtain ⟨before, hcontext⟩ : ∃ before, context agentId world = some before := by
        rw [context, hrow]
        exact ⟨_, rfl⟩
      have hbumps : (∃ found, context agentId world = some found ∧
          bumpsEpoch call found = true) ↔ bumpsEpoch call before = true := by
        simp [hcontext]
      rw [hbumps]
      rcases leaves_of_context hagent hcontext call with
        ⟨hbump, next, hold, hnew, hleaves⟩ | ⟨hkeeps, last, hleaves⟩
      · have hrun : ((body agentId call).run execute world).2 = advanced agentId next world := by
          have hsettled := leaves_eq_run 2 fun more hmore => by
            rw [hleaves, hleaves, if_neg (by omega), if_neg (by omega)]
            rfl
          rw [← hsettled, hleaves]
          rfl
        rw [hleaves, hrun, hbump]
        split_ifs with hzero hone
        · simp [hzero]
        · simp [hone, hold, hnew]
        · simp [hone]
      · refine iff_of_true ?_ (by simp [hkeeps])
        by_cases hzero : commits = 0
        · exact Or.inl (by rw [hleaves, if_pos hzero])
        · refine Or.inr (congrArg (complete agentId)
            (leaves_eq_run commits fun more hmore => ?_))
          rw [hleaves, hleaves, if_neg hzero, if_neg (by omega)]

/-! ## Runs -/

/-- A call that runs to its end, or that crashes after a number of statements. -/
structure Step where
  call : AuthorityCall
  crashedAfter : Option ℕ := none

def Step.apply (agentId : String) (world : World) (step : Step) : World :=
  match step.crashedAfter with
  | none => ((body agentId step.call).run execute world).2
  | some count => (body agentId step.call).crash execute count world

def after (agentId : String) (steps : List Step) (start : World) : World :=
  steps.foldl (Step.apply agentId) start

/-- The call is made on this database and crashes after `count` statements. -/
def Crashes (agentId : String) (start : World) (steps : List Step) (call : AuthorityCall)
    (count : ℕ) (found : World) : Prop :=
  ∃ earlier later, steps = earlier ++ ⟨call, some count⟩ :: later ∧
    after agentId earlier start = found

/-- The epoch moves with the authority: every crash leaves a complete authority,
a step that changes the state changes the epoch, and the run comes back to no
state and version that it has left without a change of epoch. -/
structure MovesTogether (agentId : String) (start : World) (steps : List Step) : Prop where
  crashes : ∀ call count found, Crashes agentId start steps call count found →
    LeavesComplete agentId call count found
  changes : ∀ earlier step later before current, steps = earlier ++ step :: later →
    context agentId (after agentId earlier start) = some before →
      context agentId (after agentId (earlier ++ [step]) start) = some current →
        before.record.state ≠ current.record.state → before.epoch ≠ current.epoch
  returns : ∀ earlier middle later rest first between last,
    steps = earlier ++ middle ++ later ++ rest →
      context agentId (after agentId earlier start) = some first →
        context agentId (after agentId (earlier ++ middle) start) = some between →
          context agentId (after agentId (earlier ++ middle ++ later) start) = some last →
            first.Differs between → ¬first.Differs last → first.epoch ≠ last.epoch

theorem after_append (earlier later : List Step) (start : World) :
    after agentId (earlier ++ later) start = after agentId later (after agentId earlier start) :=
  List.foldl_append

/-- Equal complete authorities have equal contexts. -/
theorem context_eq_of_complete_eq {other : World}
    (hcomplete : complete agentId world = complete agentId other) :
    context agentId world = context agentId other := by
  have hcontext : ∀ world, context agentId world = (complete agentId world).map fun current =>
      ⟨current.row.authorityEpoch, current.row.policyVersion,
        current.record.getD { agentId := agentId }⟩ := by
    intro world
    rw [context, complete, Option.map_map]
    rfl
  rw [hcontext, hcontext, hcomplete]

/-- A step that leaves a complete authority makes its call or none. -/
theorem context_apply {before : Context} (hcontext : context agentId world = some before)
    {step : Step} (hcomplete : ∀ count, step.crashedAfter = some count →
      LeavesComplete agentId step.call count world) :
    ∃ calls, context agentId (step.apply agentId world) = some (contextsAfter calls before) := by
  by_cases hagent : agentId = ""
  · subst hagent
    obtain ⟨error, hbody⟩ := body_emptyAgent step.call
    refine ⟨[], ?_⟩
    rw [Step.apply, hbody]
    split
    · exact hcontext
    case h_2 count _ => cases count <;> exact hcontext
  · have hrun := context_body hagent hcontext step.call
    rw [Step.apply]
    split
    case h_1 => exact ⟨[step.call], hrun⟩
    case h_2 count hcrashed =>
      rcases hcomplete count hcrashed with hold | hnew
      · exact ⟨[], (context_eq_of_complete_eq hold).trans hcontext⟩
      · exact ⟨[step.call], (context_eq_of_complete_eq hnew).trans hrun⟩

theorem context_after {start : World} {before : Context}
    (hcontext : context agentId start = some before) {steps : List Step}
    (hcomplete : ∀ call count found, Crashes agentId start steps call count found →
      LeavesComplete agentId call count found) :
    ∃ calls, context agentId (after agentId steps start) =
      some (contextsAfter calls before) := by
  induction steps generalizing start before with
  | nil => exact ⟨[], hcontext⟩
  | cons step steps ih =>
      obtain ⟨made, hmade⟩ := context_apply hcontext fun count hcrashed =>
        hcomplete step.call count start ⟨[], steps, by rw [← hcrashed]; rfl, rfl⟩
      obtain ⟨calls, hcalls⟩ := ih hmade fun call count found hcrashes => by
        obtain ⟨earlier, later, hsplit, hfound⟩ := hcrashes
        exact hcomplete call count found ⟨step :: earlier, later, by rw [hsplit]; rfl, hfound⟩
      refine ⟨made ++ calls, hcalls.trans ?_⟩
      rw [contextsAfter, contextsAfter, contextsAfter, List.foldl_append]

theorem Crashes.append {start : World} {earlier middle later : List Step}
    {call : AuthorityCall} {count : ℕ} {found : World}
    (hcrashes : Crashes agentId (after agentId earlier start) middle call count found) :
    Crashes agentId start (earlier ++ middle ++ later) call count found := by
  obtain ⟨before, rest, rfl, rfl⟩ := hcrashes
  refine ⟨earlier ++ before, rest ++ later, by simp, ?_⟩
  rw [after_append]

/-- The epoch moves with the authority in exactly the runs in which no crash
comes between the save and the increment of the epoch. -/
theorem movesTogether_iff (agentId : String) (start : World) (steps : List Step) :
    MovesTogether agentId start steps ↔
      ∀ call count found, Crashes agentId start steps call count found →
        ¬Interrupts agentId call count found := by
  constructor
  · intro hmoves call count found hcrashes
    exact (leavesComplete_iff_not_interrupts agentId call count found).mp
      (hmoves.crashes call count found hcrashes)
  · intro hnever
    have hcomplete : ∀ call count found, Crashes agentId start steps call count found →
        LeavesComplete agentId call count found := fun call count found hcrashes =>
      (leavesComplete_iff_not_interrupts agentId call count found).mpr
        (hnever call count found hcrashes)
    -- any part of the run changes the context by some of its calls
    have hpart : ∀ earlier middle later before current, steps = earlier ++ middle ++ later →
        context agentId (after agentId earlier start) = some before →
          context agentId (after agentId (earlier ++ middle) start) = some current →
            before.epoch ≤ current.epoch ∧
              (before.Differs current → before.epoch < current.epoch) := by
      intro earlier middle later before current hsplit hbefore hcurrent
      have hmiddle : ∀ call count found,
          Crashes agentId (after agentId earlier start) middle call count found →
            LeavesComplete agentId call count found := by
        intro call count found hcrashes
        apply hcomplete call count found
        rw [hsplit]
        exact hcrashes.append
      obtain ⟨calls, hcalls⟩ := context_after hbefore hmiddle
      rw [after_append, hcalls] at hcurrent
      obtain rfl := Option.some.inj hcurrent
      exact contextsAfter_epoch calls before
    refine ⟨hcomplete, ?_, ?_⟩
    · intro earlier step later before current hsplit hbefore hcurrent hstate
      have hgrows := hpart earlier [step] later before current (by simp [hsplit]) hbefore hcurrent
      exact (hgrows.2 (Or.inl hstate)).ne
    · intro earlier middle later rest first between last hsplit hfirst hbetween hlast hdiffers _
      have hleft := hpart earlier middle (later ++ rest) first between (by simp [hsplit]) hfirst
        hbetween
      have hback := hpart (earlier ++ middle) later rest between last hsplit hbetween hlast
      exact ((hleft.2 hdiffers).trans_le hback.1).ne

/-- A suspension and a reset that both crash between their two commits. -/
def interruptedSteps : List Step :=
  [⟨.suspend {} "incident", some 6⟩, ⟨.governanceReset {} "cleared", some 6⟩]

/-- The agent is suspended and in probation again, all under the first epoch. -/
theorem not_movesTogether_interruptedSteps :
    ¬MovesTogether "agent-1" Sample.world interruptedSteps := by
  intro hmoves
  let inState (state : AuthorityState) : Context :=
    ⟨1, CapabilityPolicy.version, { agentId := "agent-1", state := state }⟩
  have hfirst : context "agent-1" Sample.world = some (inState .probation) := by
    decide +kernel
  have hbetween : context "agent-1" (after "agent-1" (interruptedSteps.take 1) Sample.world) =
      some (inState .suspended) := by decide +kernel
  have hlast : context "agent-1" (after "agent-1" interruptedSteps Sample.world) =
      some (inState .probation) := by decide +kernel
  have hdiffers : (inState .probation).Differs (inState .suspended) := Or.inl (by decide)
  have hsame : ¬(inState .probation).Differs (inState .probation) := by
    simp [Context.Differs]
  exact hmoves.returns [] (interruptedSteps.take 1) (interruptedSteps.drop 1) [] _ _ _ rfl hfirst
    hbetween hlast hdiffers hsame rfl

end AegisForge.Shared.AuthorityCrashes
