import Mathlib.Data.List.Permutation
import AegisForge.Concurrency.Safety
import AegisForge.Shared.AuthorityUpdates

/-!
# Serializability of authority updates

No update is lost in a run in which every rewrite of a record finds the record
it is based on.  One stale rewrite is enough to undo a suspension.
-/

namespace AegisForge.Shared.AuthorityUpdates

open AegisForge.Core AegisForge.Concurrency

variable {agentId : String} {world : World}

/-! ## Runs without stale rewrites -/

/-- Whether the event is a load of the agent's record. -/
def isLoad (agentId : String) (event : Event Statement World) : Bool :=
  match event.statement with
  | .selectAuthorityState wanted => wanted = agentId
  | _ => false

/-- The latest load of the agent's record by a process. -/
def lastLoad (agentId : String) (process : ℕ) (history : History Statement World) :
    Option (Event Statement World) :=
  (history.own process).find? (isLoad agentId)

/-- The stored record is still the one that the process loaded, or, for
`register`, which loads none, the agent has no registry row. -/
def IsCurrent (agentId : String) (process : ℕ) (history : History Statement World) : Prop :=
  match lastLoad agentId process history with
  | some load =>
      history.store.authority.lookup agentId = load.found.authority.lookup agentId
  | none => history.store.registry.lookup agentId = none

instance (agentId : String) (process : ℕ) (history : History Statement World) :
    Decidable (IsCurrent agentId process history) :=
  match hload : lastLoad agentId process history with
  | some load => decidable_of_iff (history.store.authority.lookup agentId =
      load.found.authority.lookup agentId) (by rw [IsCurrent, hload])
  | none => decidable_of_iff (history.store.registry.lookup agentId = none)
      (by rw [IsCurrent, hload])

def isSave : Statement → Bool
  | .saveAuthority _ _ => true
  | _ => false

/-- A process writes a record back only while it is current. -/
def RewritesCurrent (agentId : String) (process : ℕ) (statement : Statement)
    (history : History Statement World) : Prop :=
  isSave statement = true → IsCurrent agentId process history

/-- Every rewrite of the run is current. -/
def currentRewrites (agentId : String) :
    Schedule AuthorityCall Statement.Reply World Raised AgentAuthority where
  starts := fun _ _ => True
  permits := RewritesCurrent agentId

instance (agentId : String) (pool : AuthorityPool) (call : AuthorityCall) :
    Decidable ((currentRewrites agentId).starts pool call) :=
  .isTrue trivial

instance (agentId : String) (process : ℕ) (statement : Statement)
    (history : History Statement World) :
    Decidable ((currentRewrites agentId).permits process statement history) :=
  inferInstanceAs (Decidable (isSave statement = true → IsCurrent agentId process history))

/-- Whether the event changed the stored authority of the agent. -/
def writes (agentId : String) (event : Event Statement World) : Bool :=
  match event.statement with
  | .saveAuthority record _ =>
      record.agentId = agentId && (event.found.registry.lookup agentId).isSome
  | .insertRegistryRow wanted _ =>
      wanted = agentId && (event.found.registry.lookup agentId).isNone
  | .updatePolicyVersion wanted _ =>
      wanted = agentId && (event.found.registry.lookup agentId).isSome
  | _ => false

/-- The writes of one process. -/
def writesOf (agentId : String) (process : ℕ) (history : History Statement World) :
    List (Event Statement World) :=
  (history.own process).filter (writes agentId)

/-- Statements other than writes leave the stored authority alone. -/
theorem stored_after_of_not_writes {event : Event Statement World}
    (hwrites : writes agentId event = false) :
    stored agentId (event.after execute) = stored agentId event.found := by
  obtain ⟨process, statement, found⟩ := event
  rw [Event.after, stored, stored, lookup_registry_execute, lookup_authority_execute]
  cases statement with
  | saveAuthority record transitions =>
      simp only [writes, registryEffect, authorityEffect] at hwrites ⊢
      by_cases hagent : record.agentId = agentId
      · cases hrow : found.registry.lookup agentId with
        | none => rfl
        | some row => simp [hagent, hrow] at hwrites
      · rw [if_neg hagent]
  | insertRegistryRow wanted policyVersion =>
      simp only [writes, registryEffect, authorityEffect] at hwrites ⊢
      by_cases hagent : wanted = agentId
      · cases hrow : found.registry.lookup agentId with
        | none => simp [hagent, hrow] at hwrites
        | some row => simp [hagent]
      · rw [if_neg hagent]
  | updatePolicyVersion wanted policyVersion =>
      simp only [writes, registryEffect, authorityEffect] at hwrites ⊢
      by_cases hagent : wanted = agentId
      · cases hrow : found.registry.lookup agentId with
        | none => simp [hagent]
        | some row => simp [hagent, hrow] at hwrites
      · rw [if_neg hagent]
  | incrementEpoch wanted =>
      have hstored := stored_incrementEpoch agentId wanted found
      rw [stored, stored, lookup_registry_execute, lookup_authority_execute] at hstored
      exact hstored
  | _ => rfl

theorem writesOf_record_quiet {process : ℕ} {statement : Statement}
    {history : History Statement World}
    (hwrites : writes agentId ⟨process, statement, history.store⟩ = false) :
    writesOf agentId process (history.record execute process statement) =
      writesOf agentId process history := by
  rw [writesOf, History.own_record_self, List.filter_cons, hwrites]
  rfl

theorem writesOf_record_write (agentId : String) (process : ℕ) (statement : Statement)
    (history : History Statement World)
    (hwrites : writes agentId ⟨process, statement, history.store⟩ = true) :
    writesOf agentId process (history.record execute process statement) =
      ⟨process, statement, history.store⟩ :: writesOf agentId process history := by
  rw [writesOf, History.own_record_self, List.filter_cons, hwrites]
  rfl

/-- Before the agent is registered, only `register` writes its record, and only
the initial one. -/
def rules (agentId : String) : Rules execute where
  invariant := fun _ => True
  permits := RewritesCurrent agentId
  requires := fun _ statement history =>
    ∀ record transitions, statement = .saveAuthority record transitions →
      Registered agentId history.store ∨ record = { agentId := agentId }
  rely := fun process before after =>
    after.own process = before.own process ∧
      (Registered agentId before.store → Registered agentId after.store) ∧
        (¬Registered agentId after.store →
          before.store.authority.lookup agentId = some { agentId := agentId } →
            after.store.authority.lookup agentId = some { agentId := agentId })
  rely_refl := fun _ _ => ⟨rfl, id, fun _ => id⟩
  rely_trans := fun hfirst hsecond =>
    ⟨hsecond.1.trans hfirst.1, hsecond.2.1 ∘ hfirst.2.1, fun hnot hrecord =>
      hsecond.2.2 hnot (hfirst.2.2 (fun h => hnot (hsecond.2.1 h)) hrecord)⟩
  invariant_record := fun _ _ _ => trivial
  rely_record := by
    intro process other statement history hne _ _ hrequires
    refine ⟨History.own_record_of_ne execute history statement hne,
      registered_execute statement, fun hnot hrecord => ?_⟩
    rw [History.record_store, lookup_authority_execute, hrecord]
    cases statement with
    | saveAuthority record transitions =>
        rcases hrequires record transitions rfl with hregistered | rfl
        · exact absurd (registered_execute _ hregistered) hnot
        · simp [authorityEffect]
    | _ => rfl

variable {process : ℕ} {history : History Statement World}
variable {list : List (Event Statement World)}

/-- Nothing written since, and the agent still registered if it was. -/
def Untouched (agentId : String) (process : ℕ) (list : List (Event Statement World))
    (registered : Prop) (later : History Statement World) : Prop :=
  writesOf agentId process later = list ∧ (registered → Registered agentId later.store)

theorem Untouched.rely {registered : Prop} {later : History Statement World}
    (huntouched : Untouched agentId process list registered history)
    (hrely : (rules agentId).rely process history later) :
    Untouched agentId process list registered later :=
  ⟨by rw [writesOf, hrely.1]; exact huntouched.1, fun h => hrely.2.1 (huntouched.2 h)⟩

theorem Untouched.record {registered : Prop} (statement : Statement)
    (huntouched : Untouched agentId process list registered history)
    (hwrites : writes agentId ⟨process, statement, history.store⟩ = false) :
    Untouched agentId process list registered
      (history.record execute process statement) :=
  ⟨(writesOf_record_quiet hwrites).trans huntouched.1,
    fun h => registered_execute statement (huntouched.2 h)⟩

theorem lastLoad_rely {later : History Statement World}
    (hrely : (rules agentId).rely process history later) :
    lastLoad agentId process later = lastLoad agentId process history := by
  rw [lastLoad, lastLoad, hrely.1]

theorem lastLoad_record {statement : Statement}
    (hload : isLoad agentId ⟨process, statement, history.store⟩ = false) :
    lastLoad agentId process (history.record execute process statement) =
      lastLoad agentId process history := by
  rw [lastLoad, History.own_record_self, List.find?_cons_of_neg (by simp [hload])]
  rfl

/-- The record of a loaded machine is the one that the latest load found. -/
theorem safe_load (hagent : agentId ≠ "") {registered : Prop}
    (huntouched : Untouched agentId process list registered history) :
    (rules agentId).Safe process
      (fun machine later => Untouched agentId process list registered later ∧
        ∃ load, lastLoad agentId process later = some load ∧
          machine.record = (load.found.authority.lookup agentId).getD { agentId := agentId })
      (fun _ _ => False) (AuthorityStateStore.load agentId) history := by
  refine Rules.Safe.raiseIf (fun h => absurd h hagent) fun _ => ?_
  refine Rules.Safe.call fun later hrely _ _ => ⟨by rintro _ _ ⟨⟩, ?_⟩
  have hlater := (huntouched.rely hrely).record (.selectAuthorityState agentId) rfl
  have hload : lastLoad agentId process
      (later.record execute process (.selectAuthorityState agentId)) =
        some ⟨process, .selectAuthorityState agentId, later.store⟩ := by
    rw [lastLoad, History.own_record_self, List.find?_cons_of_pos (by simp [isLoad])]
  generalize later.record execute process (.selectAuthorityState agentId) = loaded at *
  cases hrecord : later.store.authority.lookup agentId with
  | none =>
      simp only [execute, hrecord, AuthorityStateMachine.new, if_neg hagent]
      intro last hlast _
      exact ⟨hlater.rely hlast, _, (lastLoad_rely hlast).trans hload, by simp [hrecord]⟩
  | some record =>
      simp only [execute, hrecord]
      refine Rules.Safe.call fun last hlast _ _ => ⟨by rintro _ _ ⟨⟩, ?_⟩
      intro final hfinal _
      have hfinalLoad := ((lastLoad_rely hfinal).trans (lastLoad_record rfl)).trans
        ((lastLoad_rely hlast).trans hload)
      exact ⟨((hlater.rely hlast).record _ rfl).rely hfinal, _, hfinalLoad, by simp [hrecord]⟩

/-- `get` writes nothing, and raises only for an agent without a registry row. -/
theorem safe_get (registry : AgentAuthorityRegistry) (registered : Prop)
    (huntouched : Untouched agentId process list registered history) :
    (rules agentId).Safe process
      (fun _ later => agentId ≠ "" ∧ Untouched agentId process list True later)
      (fun _ later => Untouched agentId process list registered later ∧
        (agentId ≠ "" → ¬registered))
      (registry.get agentId) history := by
  refine Rules.Safe.raiseIf (fun hagent last hlast _ =>
    ⟨huntouched.rely hlast, fun hne => absurd hagent hne⟩) fun hagent => ?_
  refine Rules.Safe.call fun later hrely _ _ => ⟨nofun, ?_⟩
  have hlater := huntouched.rely hrely
  cases hrow : later.store.registry.lookup agentId with
  | none =>
      simp only [execute, hrow]
      intro last hlast _
      refine ⟨(hlater.record _ rfl).rely hlast, fun _ hregistered => ?_⟩
      obtain ⟨row, hlookup⟩ := hlater.2 hregistered
      rw [hrow] at hlookup
      cases hlookup
  | some row =>
      simp only [execute, hrow]
      have hrecorded : Untouched agentId process list True
          (later.record execute process (.selectRegistryRow agentId)) :=
        ⟨(hlater.record _ rfl).1, fun _ => registered_execute _ ⟨row, hrow⟩⟩
      refine Rules.Safe.bind ((safe_load hagent hrecorded).weaken ?_ ?_) trivial
      · intro machine loaded _ hloaded last hlast _
        exact ⟨hagent, hloaded.1.rely hlast⟩
      · exact fun _ _ _ hfalse => hfalse.elim

theorem safe_settle (registry : AgentAuthorityRegistry) (hagent : agentId ≠ "")
    (advance : Bool) (applied : AuthorityTransition)
    (huntouched : Untouched agentId process list True history) :
    (rules agentId).Safe process (fun _ later => writesOf agentId process later = list)
      (fun _ _ => False) (registry.settle agentId advance applied) history := by
  have hget : ∀ middle, Untouched agentId process list True middle →
      (rules agentId).Safe process (fun _ later => writesOf agentId process later = list)
        (fun _ _ => False)
        ((registry.get agentId).bind fun authority => .done (authority, applied)) middle := by
    intro middle hmiddle
    refine Rules.Safe.bind ((safe_get registry True hmiddle).weaken ?_ ?_) trivial
    · intro authority later _ hlater last hlast _
      exact (hlater.2.rely hlast).1
    · exact fun _ _ _ hraised => (hraised.2 hagent trivial).elim
  cases advance with
  | false => exact hget history huntouched
  | true =>
      refine Rules.Safe.call fun later hrely _ _ => ⟨nofun, ?_⟩
      exact hget _ ((huntouched.rely hrely).record _ rfl)

theorem safe_machine (registry : AgentAuthorityRegistry) {registered : Prop}
    (huntouched : Untouched agentId process list registered history) :
    (rules agentId).Safe process
      (fun machine later => agentId ≠ "" ∧ Untouched agentId process list True later ∧
        machine.transitionPolicy = registry.transitionPolicy ∧
          ∃ load, lastLoad agentId process later = some load ∧
            machine.record =
              (load.found.authority.lookup agentId).getD { agentId := agentId })
      (fun _ later => writesOf agentId process later = list)
      (registry.machine agentId) history := by
  refine Rules.Safe.bind ((safe_get registry _ huntouched).weaken ?_ ?_) trivial
  · rintro authority later - ⟨hagent, hlater⟩
    refine Rules.Safe.bind ((safe_load hagent hlater).weaken ?_ ?_) trivial
    · rintro machine loaded - ⟨hloaded, load, hload, hrecord⟩ last hlast _
      exact ⟨hagent, hloaded.rely hlast, rfl, load, (lastLoad_rely hlast).trans hload, hrecord⟩
    · exact fun _ _ _ hfalse => hfalse.elim
  · exact fun _ _ _ hraised => hraised.1.1

/-- What a call that rewrites the machine leaves in its own history: nothing
when it raised, and one write with the effect of the operation when it
returned. -/
theorem safe_rewrite (registry : AgentAuthorityRegistry)
    (operation : AuthorityStateMachine.Operation)
    (advances : AuthorityState → AuthorityTransition → Bool)
    (huntouched : Untouched agentId process [] False history) :
    (rules agentId).Safe process
      (fun _ later => ∃ event, writesOf agentId process later = [event] ∧ agentId ≠ "" ∧
        rewriteEffect registry operation (stored agentId event.found) =
          some (stored agentId (event.after execute)))
      (fun _ later => writesOf agentId process later = [])
      (registry.rewrite agentId operation advances) history := by
  refine Rules.Safe.bind ((safe_machine registry huntouched).weaken ?_ ?_) trivial
  · rintro machine later - ⟨hagent, hlater, hpolicy, load, hload, hrecord⟩
    rcases machine.apply_cases operation with
      ⟨applied, next, happly, hnext, hafter⟩ | ⟨error, happly, -⟩
    · rw [happly]
      refine Rules.Safe.call fun saving hrely _ hpermits =>
        ⟨fun _ _ _ => Or.inl ((hlater.rely hrely).2 trivial), ?_⟩
      have hsaving := hlater.rely hrely
      obtain ⟨row, hrow⟩ := hsaving.2 trivial
      have hcurrent : IsCurrent agentId process saving := hpermits rfl
      rw [IsCurrent, (lastLoad_rely hrely).trans hload] at hcurrent
      have hagentId : next.record.agentId = agentId := by
        rw [hnext, hrecord]
        exact agentId_getD
      have hwritten := writesOf_record_write agentId process
        (.saveAuthority next.record next.history) saving (by simp [writes, hagentId, hrow])
      rw [hsaving.1] at hwritten
      have hregistered : Registered agentId
          (saving.record execute process (.saveAuthority next.record next.history)).store :=
        registered_execute _ ⟨row, hrow⟩
      refine (safe_settle registry hagent (advances machine.state applied) applied
        ⟨hwritten, fun _ => hregistered⟩).weaken ?_ fun _ _ _ hfalse => hfalse.elim
      intro result last _ hlast
      refine ⟨_, hlast, hagent, ?_⟩
      rw [Event.after, stored_saveAuthority next.history hagentId hrow]
      simp [stored, hrow, rewriteEffect, hcurrent, ← hrecord, ← hpolicy, hafter]
    · rw [happly]
      exact fun last hlast _ => (hlater.rely hlast).1
  · exact fun _ _ _ hraised => hraised

/-- What a call that returned leaves in its own history. -/
def Returned (agentId : String) (process : ℕ) (call : AuthorityCall)
    (_ : AgentAuthority) (history : History Statement World) : Prop :=
  (∃ event, writesOf agentId process history = [event] ∧
      effect agentId call (stored agentId event.found) =
        some (stored agentId (event.after execute))) ∨
    (writesOf agentId process history = [] ∧
      effect agentId call (stored agentId history.store) =
        some (stored agentId history.store))

theorem safe_rotatePolicy (registry : AgentAuthorityRegistry) (policyVersion : String)
    (huntouched : Untouched agentId process [] False history) :
    (rules agentId).Safe process
      (Returned agentId process (.rotatePolicy registry policyVersion))
      (fun _ later => writesOf agentId process later = [])
      (registry.rotatePolicy agentId policyVersion) history := by
  refine Rules.Safe.raiseIf (fun _ last hlast _ => (huntouched.rely hlast).1)
    fun hversion => ?_
  refine Rules.Safe.bind ((safe_get registry _ huntouched).weaken ?_ ?_) trivial
  · rintro authority later - ⟨hagent, hlater⟩
    refine Rules.Safe.call fun updating hrely _ _ => ⟨nofun, ?_⟩
    have hupdating := hlater.rely hrely
    obtain ⟨row, hrow⟩ := hupdating.2 trivial
    have hwritten := writesOf_record_write agentId process
      (.updatePolicyVersion agentId policyVersion) updating (by simp [writes, hrow])
    rw [hupdating.1] at hwritten
    refine (safe_get registry True ⟨hwritten, fun _ =>
      registered_execute _ ⟨row, hrow⟩⟩).weaken ?_ ?_
    · rintro result last - ⟨-, hlast⟩
      refine Or.inl ⟨_, hlast.1, ?_⟩
      rw [Event.after, stored_updatePolicyVersion policyVersion hrow]
      simp [effect, hagent, hversion, stored, hrow]
    · exact fun _ _ _ hraised => (hraised.2 hagent trivial).elim
  · exact fun _ _ _ hraised => hraised.1.1

/-- `register` either finds the agent registered and changes nothing, or writes
once, when it inserts the registry row. -/
theorem safe_register (registry : AgentAuthorityRegistry) (policyVersion : Option String)
    (hown : history.own process = []) :
    (rules agentId).Safe process
      (Returned agentId process (.register registry policyVersion))
      (fun _ later => writesOf agentId process later = [])
      (registry.register agentId policyVersion) history := by
  have huntouched : Untouched agentId process [] False history :=
    ⟨by rw [writesOf, hown]; rfl, False.elim⟩
  refine Rules.Safe.raiseIf (fun _ last hlast _ => (huntouched.rely hlast).1)
    fun hagent => ?_
  refine Rules.Safe.call fun later hrely _ _ => ⟨by rintro _ _ ⟨⟩, ?_⟩
  have hlater := huntouched.rely hrely
  cases hrow : later.store.registry.lookup agentId with
  | some row =>
      simp only [execute, hrow]
      refine (safe_get registry True
        ⟨(hlater.record (.selectRegistryRow agentId) rfl).1,
          fun _ => registered_execute _ ⟨row, hrow⟩⟩).weaken ?_ ?_
      · rintro result last - ⟨-, hlast⟩
        obtain ⟨final, hfinal⟩ := hlast.2 trivial
        exact Or.inr ⟨hlast.1, by simp [effect, hagent, stored, hfinal]⟩
      · exact fun _ _ _ hraised => (hraised.2 hagent trivial).elim
  | none =>
      simp only [execute, hrow, AuthorityStateMachine.new, if_neg hagent]
      refine Rules.Safe.call fun saving hsavingRely _ hpermits =>
        ⟨fun record transitions hsave => Or.inr ?_, ?_⟩
      · cases hsave
        rfl
      have hselected := hlater.record (.selectRegistryRow agentId) rfl
      have hsaving := hselected.rely hsavingRely
      have hnoLoad : lastLoad agentId process saving = none := by
        rw [lastLoad_rely hsavingRely, lastLoad_record rfl, lastLoad_rely hrely, lastLoad,
          hown]
        rfl
      have hunregistered : IsCurrent agentId process saving := hpermits rfl
      rw [IsCurrent, hnoLoad] at hunregistered
      have hsaved := hsaving.record (.saveAuthority { agentId := agentId } [])
        (by simp [writes, hunregistered])
      have hrecord : (saving.record execute process
          (.saveAuthority { agentId := agentId } [])).store.authority.lookup agentId =
            some { agentId := agentId } := by
        rw [History.record_store, lookup_authority_execute]
        simp [authorityEffect]
      refine Rules.Safe.call fun inserting hinsertingRely _ _ => ⟨by rintro _ _ ⟨⟩, ?_⟩
      have hinserting := hsaved.rely hinsertingRely
      rw [insertRegistryRow_reply]
      cases hfresh : inserting.store.registry.lookup agentId with
      | some row =>
          have hquiet := hinserting.record (.insertRegistryRow agentId
            (registeredVersion policyVersion)) (by simp [writes, hfresh])
          exact fun last hlast _ => (hquiet.rely hlast).1
      | none =>
          have hfreshRecord := hinsertingRely.2.2
            (by rintro ⟨row, hlookup⟩; rw [hfresh] at hlookup; cases hlookup) hrecord
          have hwritten := writesOf_record_write agentId process
            (.insertRegistryRow agentId (registeredVersion policyVersion)) inserting
            (by simp [writes, hfresh])
          rw [hinserting.1] at hwritten
          have hstored := stored_insertRegistryRow
            (registeredVersion policyVersion) hfresh hfreshRecord
          refine (safe_get registry True ⟨hwritten, fun _ => ?_⟩).weaken ?_ ?_
          · cases hlookup : (inserting.record execute process (.insertRegistryRow agentId
                (registeredVersion policyVersion))).store.registry.lookup agentId with
            | none =>
                rw [History.record_store] at hlookup
                simp [stored, hlookup] at hstored
            | some row => exact ⟨row, hlookup⟩
          · rintro result last - ⟨-, hlast⟩
            refine Or.inl ⟨_, hlast.1, ?_⟩
            rw [Event.after, hstored]
            simp [effect, hagent, stored, hfresh]
          · exact fun _ _ _ hraised => (hraised.2 hagent trivial).elim

theorem safe_authorityOf {action : Action (AgentAuthority × AuthorityTransition)}
    {returns : History Statement World → Prop}
    {raises : Raised → History Statement World → Prop}
    (hstable : ∀ later last, returns later → (rules agentId).rely process later last →
      returns last)
    (hsafe : (rules agentId).Safe process (fun _ later => returns later) raises action
      history) :
    (rules agentId).Safe process (fun _ later => returns later) raises
      (authorityOf action) history :=
  Rules.Safe.bind (hsafe.weaken
    (fun _ later _ hlater last hlast _ => hstable later last hlater hlast)
    fun _ _ _ hraised => hraised) trivial

/-- Every call keeps to the rules. -/
theorem safe_body (call : AuthorityCall) (hown : history.own process = []) :
    (rules agentId).Safe process (Returned agentId process call)
      (fun _ later => writesOf agentId process later = []) (body agentId call) history := by
  have huntouched : Untouched agentId process [] False history :=
    ⟨by rw [writesOf, hown]; rfl, False.elim⟩
  have hrewrites : ∀ (registry : AgentAuthorityRegistry)
      (operation : AuthorityStateMachine.Operation)
      (advances : AuthorityState → AuthorityTransition → Bool),
      (∀ state after, agentId ≠ "" → rewriteEffect registry operation state = some after →
        effect agentId call state = some after) →
      (rules agentId).Safe process (Returned agentId process call)
        (fun _ later => writesOf agentId process later = [])
        (authorityOf (registry.rewrite agentId operation advances)) history := by
    intro registry operation advances heffect
    refine (safe_authorityOf (fun later last hlater hlast => ?_)
      (safe_rewrite registry operation advances huntouched)).weaken ?_
        fun _ _ _ hraised => hraised
    · rw [writesOf, hlast.1]
      exact hlater
    · rintro _ later - ⟨event, hevent, hagent, hwritten⟩
      exact Or.inl ⟨event, hevent, heffect _ _ hagent hwritten⟩
  cases call with
  | register registry policyVersion => exact safe_register registry policyVersion hown
  | recordTrust registry trustDecision =>
      exact hrewrites registry _ _ fun _ _ hagent heffect => by simp [effect, hagent, heffect]
  | governancePromoteElevated registry reason proofId =>
      exact hrewrites registry _ _ fun _ _ hagent heffect => by simp [effect, hagent, heffect]
  | suspend registry reason =>
      exact hrewrites registry _ _ fun _ _ hagent heffect => by simp [effect, hagent, heffect]
  | governanceReset registry reason =>
      by_cases hreason : reason = ""
      · simp only [body, authorityOf, AgentAuthorityRegistry.governanceReset,
          Program.raiseIf, if_pos hreason]
        exact fun last hlast _ => (huntouched.rely hlast).1
      · simp only [body, AgentAuthorityRegistry.governanceReset, Program.raiseIf,
          if_neg hreason, Program.bind_eq, Program.done_bind]
        exact hrewrites registry _ _ fun _ _ hagent heffect => by
          simp [effect, hagent, hreason, heffect]
  | rotatePolicy registry policyVersion =>
      exact safe_rotatePolicy registry policyVersion huntouched

/-- Effects one after the other are the effects of serial runs. -/
theorem serialRun_of_effects {calls : List AuthorityCall} {after : Stored}
    (world : World)
    (heffects : effects (effect agentId) calls (stored agentId world) = some after) :
    ∃ last, SerialRun agentId calls world last ∧ stored agentId last = after := by
  induction calls generalizing world with
  | nil => exact ⟨world, SerialRun.nil world, Option.some.inj heffects⟩
  | cons call calls ih =>
      rw [effects, List.foldlM_cons] at heffects
      cases hnext : effect agentId call (stored agentId world) with
      | none =>
          rw [hnext] at heffects
          cases heffects
      | some next =>
          rw [hnext] at heffects
          obtain ⟨authority, between, hrun, hstored⟩ := run_of_effect hnext
          obtain ⟨last, hserial, hlast⟩ := ih between (by
            rw [hstored]
            exact heffects)
          exact ⟨last, SerialRun.cons hrun hserial, hlast⟩

/-- When every rewrite finds the record it is based on, no update is lost: the
final authority is that of a serial order of the calls that returned. -/
theorem serializable_of_currentRewrites (agentId : String) (start : World)
    (pool : AuthorityPool)
    (hreaches : Pool.Reaches execute (body agentId) (currentRewrites agentId)
      (Pool.idle start) pool)
    (hfinished : pool.Finished) : Serializable agentId start pool := by
  have hsound : Rules.Sound (rules agentId) (Returned agentId)
      (fun process _ _ history => writesOf agentId process history = []) pool :=
    Rules.Sound.reaches (fun _ _ _ hpermits => hpermits)
      (fun pool call _ _ hown => safe_body call hown) (Rules.Sound.idle trivial) hreaches
  have hchained : Chained execute start pool.history.trace pool.history.store :=
    hreaches.chained rfl
  obtain ⟨order, hperm, hcalls, heffects⟩ :=
    Pool.exists_linearization (stored agentId) (effect agentId) (writes agentId) hchained
      (fun event _ hwrites => stored_after_of_not_writes hwrites)
      (fun index hreturned => by
        obtain ⟨call, authority, hprocess⟩ := Pool.hasReturned_iff.mp hreturned
        refine ⟨call, by rw [Pool.call?, hprocess]; rfl, ?_⟩
        exact hsound.of_done hprocess)
      (fun index hreturned => by
        rcases Pool.finished_cases hfinished hreturned with
          hnone | ⟨call, error, hprocess⟩
        · exact List.filter_eq_nil_iff.mpr fun event hevent => by
            have hknown := hsound.known event (History.mem_own.mp hevent).1
            rw [(History.mem_own.mp hevent).2] at hknown
            omega
        · exact hsound.of_fail hprocess)
  obtain ⟨last, hserial, hlast⟩ := serialRun_of_effects start heffects
  exact ⟨order, last, hperm, hcalls, hserial, hlast.symm⟩

/-! ## A stale rewrite -/

/-- A database in which one agent is registered. -/
def registeredWorld : World :=
  ((body "agent-1" (.register {} none)).run execute (World.initial 0)).2

def trustedCall : AuthorityCall := .recordTrust {} (some ⟨.trusted, "proof-1"⟩)

def suspendCall : AuthorityCall := .suspend {} "critical_failure"

/-- The two calls, the second made after the first has returned. -/
def orderlyPool : AuthorityPool :=
  (Pool.idle registeredWorld).run execute (body "agent-1")
    (.start trustedCall :: .start suspendCall ::
      (List.replicate 10 (.advance 0) ++ List.replicate 10 (.advance 1)))

theorem serializable_orderlyPool : Serializable "agent-1" registeredWorld orderlyPool :=
  serializable_of_currentRewrites "agent-1" registeredWorld orderlyPool
    (Pool.reaches_run_of_allows (by decide +kernel)) (by decide +kernel)

/-- The trust decision is recorded on the machine that was loaded before the
suspension: five reads, then the whole suspension, then the save. -/
def stalePool : AuthorityPool :=
  (Pool.idle registeredWorld).run execute (body "agent-1")
    (.start trustedCall :: .start suspendCall ::
      (List.replicate 5 (.advance 0) ++ List.replicate 10 (.advance 1) ++
        List.replicate 5 (.advance 0)))

/-- The database after the calls have run one after the other. -/
def serialWorld (agentId : String) (calls : List AuthorityCall) (world : World) : World :=
  calls.foldl (fun world call => ((body agentId call).run execute world).2) world

theorem SerialRun.eq_serialWorld {calls : List AuthorityCall} {after : World}
    (hserial : SerialRun agentId calls world after) :
    after = serialWorld agentId calls world := by
  induction hserial with
  | nil => rfl
  | cons hrun hrest ih => rw [ih, serialWorld, serialWorld, List.foldl_cons, hrun]

/-- A suspension that returned is undone by a trust decision that was loaded
before it: no serial order of the two calls ends in `STANDARD`. -/
theorem not_serializable_stalePool :
    ¬∀ (agentId : String) (start : World) (pool : AuthorityPool),
      Pool.Reaches execute (body agentId) .unrestricted (Pool.idle start) pool →
        pool.Finished → Serializable agentId start pool := by
  intro hall
  obtain ⟨order, after, hperm, hcalls, hserial, hstored⟩ :=
    hall "agent-1" registeredWorld stalePool (Pool.reaches_run _ _) (by decide +kernel)
  rw [hserial.eq_serialWorld] at hstored
  have hreturned : stalePool.returned = [0, 1] := by decide +kernel
  have hfirst : stalePool.call? 0 = some trustedCall := rfl
  have hsecond : stalePool.call? 1 = some suspendCall := rfl
  have horder := Pool.map_some_calls hcalls
  rw [hreturned, List.perm_pair] at hperm
  have hcases : order.map Prod.snd = [trustedCall, suspendCall] ∨
      order.map Prod.snd = [suspendCall, trustedCall] := by
    rcases hperm with hperm | hperm
    · rw [hperm, List.map_cons, List.map_cons, List.map_nil, hfirst, hsecond] at horder
      exact Or.inl (Function.Injective.list_map (Option.some_injective _) horder)
    · rw [hperm, List.map_cons, List.map_cons, List.map_nil, hfirst, hsecond] at horder
      exact Or.inr (Function.Injective.list_map (Option.some_injective _) horder)
  have hstate := congrArg (Option.map fun pair => pair.2.state) hstored
  rcases hcases with hcase | hcase
  · rw [hcase] at hstate
    exact absurd hstate (by decide +kernel)
  · rw [hcase] at hstate
    exact absurd hstate (by decide +kernel)

end AegisForge.Shared.AuthorityUpdates
