import AegisForge.Core.Runs
import AegisForge.Shared.RecoveryTrust

/-!
# Registries on one store

Registries are opened at any time and their calls interleave.  A store
operation is one transaction; opening a registry takes one read for the rows
and one more for the history of each of them.
-/

namespace AegisForge.Shared.RecoveryTrust

open AegisForge.Core

structure System where
  store : RecoveryAttestorStore
  registries : List RecoveryAttestorRegistry

/-- What may happen next; registries are named by the order of their opening. -/
inductive Call
  | opens
  | readsNext (index : ℕ)
  | register (index : ℕ) (attestor : RecoveryAttestor) (occurredAt : String)
  | transition (index : ℕ) (keyId newStatus : String) (reason : Json) (occurredAt : String)

namespace System

def empty : System := ⟨.empty, []⟩

/-- A registry whose opening is complete. -/
def opened? (system : System) (index : ℕ) : Option RecoveryAttestorRegistry :=
  system.registries[index]?.filter fun registry => registry.IsOpen

/-- A call that raises leaves the store and the registry as they were. -/
def put (system : System) (index : ℕ) :
    Except Raised (RecoveryAttestorStore × RecoveryAttestorRegistry) → System
  | .ok (store, registry) => ⟨store, system.registries.set index registry⟩
  | .error _ => system

def step (primitives : Primitives) (system : System) : Call → System
  | .opens =>
      { system with registries := system.registries ++ [.opened system.store] }
  | .readsNext index =>
      match system.registries[index]? with
      | none => system
      | some registry =>
          { system with
            registries := system.registries.set index (registry.readNext system.store) }
  | .register index attestor occurredAt =>
      match system.opened? index with
      | none => system
      | some registry =>
          system.put index (registry.register primitives system.store attestor occurredAt)
  | .transition index keyId newStatus reason occurredAt =>
      match system.opened? index with
      | none => system
      | some registry =>
          system.put index
            (registry.transition primitives system.store keyId newStatus reason occurredAt)

/-- The entry of a registry through which the store records a transition, and
the status that it records. -/
def recorded? (system : System) (index : ℕ) (keyId newStatus : String) (reason : Json) :
    Option (Entry × RecoveryAttestorStatus) := do
  let registry ← system.opened? index
  let entry ← registry.entries keyId
  let status ← RecoveryAttestorStatus.ofText newStatus
  let row ← system.store.attestors.lookup keyId
  if status ∈ entry.status.allowed ∧ reason.filledText?.isSome = true ∧
      row.status = entry.status then
    some (entry, status)
  else none

end System

/-! ## What a call does -/

/-- The public key is one, the key id belongs to it, and there is a name. -/
structure ValidAttestor (primitives : Primitives) (attestor : RecoveryAttestor) : Prop where
  key : checkKey primitives attestor.keyId attestor.publicKey = .ok ⟨⟩
  name : isBlank attestor.name = false

/-- The status of an attestor when it is registered. -/
def firstStatus (attestor : RecoveryAttestor) : RecoveryAttestorStatus :=
  if attestor.enabled then .active else .suspended

def firstChange (attestor : RecoveryAttestor) (occurredAt : String) : StatusChange :=
  ⟨none, firstStatus attestor, occurredAt, "registered"⟩

section Steps

variable {primitives : Primitives} {store after : RecoveryAttestorStore}
variable {registry registry' : RecoveryAttestorRegistry}

theorem RecoveryAttestorRegistry.register_eq_ok {attestor : RecoveryAttestor}
    {occurredAt : String}
    (hregister : registry.register primitives store attestor occurredAt =
      .ok (after, registry')) :
    (after = store ∧ registry' = registry) ∨
      (ValidAttestor primitives attestor ∧ registry.entries attestor.keyId = none ∧
        ∃ eventHash, store.insert primitives attestor (firstStatus attestor) occurredAt =
            .ok (after, eventHash) ∧
          registry' = registry.set attestor.keyId ⟨attestor, firstStatus attestor,
            [⟨firstChange attestor occurredAt, genesisHash, eventHash⟩]⟩) := by
  obtain ⟨_, hkey, hnamed⟩ := bind_eq_ok hregister
  obtain ⟨hname, hentry⟩ := check_bind_eq_ok hnamed
  split at hentry
  case h_1 existing _ =>
    obtain ⟨-, hsame⟩ := check_bind_eq_ok hentry
    obtain ⟨rfl, rfl⟩ := Prod.mk.inj (Except.ok.inj hsame)
    exact Or.inl ⟨rfl, rfl⟩
  case h_2 hnone =>
    obtain ⟨⟨store', eventHash⟩, hinsert, hset⟩ := bind_eq_ok hentry
    obtain ⟨rfl, rfl⟩ := Prod.mk.inj (Except.ok.inj hset)
    exact Or.inr ⟨⟨hkey, hname⟩, hnone, eventHash, hinsert, rfl⟩

theorem RecoveryAttestorRegistry.transition_eq_ok {keyId newStatus occurredAt : String}
    {reason : Json}
    (htransition : registry.transition primitives store keyId newStatus reason occurredAt =
      .ok (after, registry')) :
    ∃ entry status text eventHash, registry.entries keyId = some entry ∧
      RecoveryAttestorStatus.ofText newStatus = some status ∧
        status ∈ entry.status.allowed ∧ reason.filledText? = some text ∧
          store.transition primitives keyId entry.status status (strip text) occurredAt =
              .ok (after, eventHash) ∧
            registry' = registry.set keyId { entry with
              status := status
              history := entry.history ++ [⟨⟨some entry.status, status, occurredAt,
                strip text⟩, lastHash entry.history, eventHash⟩] } := by
  obtain ⟨entry, hentry, hnamed⟩ := orRaise_bind_eq_ok htransition
  obtain ⟨status, hstatus, hchecked⟩ := orRaise_bind_eq_ok hnamed
  obtain ⟨hallowed, hreason⟩ := check_bind_eq_ok hchecked
  obtain ⟨text, htext, hstore⟩ := orRaise_bind_eq_ok hreason
  obtain ⟨⟨store', eventHash⟩, hrecorded, hset⟩ := bind_eq_ok hstore
  obtain ⟨rfl, rfl⟩ := Prod.mk.inj (Except.ok.inj hset)
  exact ⟨entry, status, text, eventHash, hentry, hstatus, hallowed, htext, hrecorded, rfl⟩

end Steps

/-- Everything that a call can do to the system. -/
inductive Stepped (primitives : Primitives) (system : System) : Call → System → Prop
  | unchanged (call : Call) : Stepped primitives system call system
  | opened :
      Stepped primitives system .opens
        ⟨system.store, system.registries ++ [.opened system.store]⟩
  | read {index : ℕ} {registry : RecoveryAttestorRegistry} {row : AttestorRow}
      {rest : List AttestorRow} (hregistry : system.registries[index]? = some registry)
      (hunread : registry.unread = row :: rest) :
      Stepped primitives system (.readsNext index)
        ⟨system.store, system.registries.set index
          ({ registry with unread := rest }.set row.keyId
            ⟨row.attestor, row.status, system.store.history row.keyId⟩)⟩
  | registered {index : ℕ} {registry : RecoveryAttestorRegistry}
      {attestor : RecoveryAttestor} {occurredAt eventHash : String}
      {store : RecoveryAttestorStore} (hregistry : system.registries[index]? = some registry)
      (hvalid : ValidAttestor primitives attestor)
      (hunknown : registry.entries attestor.keyId = none)
      (hinsert : system.store.insert primitives attestor (firstStatus attestor) occurredAt =
        .ok (store, eventHash)) :
      Stepped primitives system (.register index attestor occurredAt)
        ⟨store, system.registries.set index (registry.set attestor.keyId
          ⟨attestor, firstStatus attestor,
            [⟨firstChange attestor occurredAt, genesisHash, eventHash⟩]⟩)⟩
  | transitioned {index : ℕ} {registry : RecoveryAttestorRegistry}
      {keyId newStatus occurredAt text eventHash : String} {reason : Json} {entry : Entry}
      {status : RecoveryAttestorStatus} {store : RecoveryAttestorStore}
      (hregistry : system.registries[index]? = some registry) (hopen : registry.IsOpen)
      (hentry : registry.entries keyId = some entry)
      (hallowed : status ∈ entry.status.allowed)
      (hrecorded : system.recorded? index keyId newStatus reason = some (entry, status))
      (htransition : system.store.transition primitives keyId entry.status status text
        occurredAt = .ok (store, eventHash)) :
      Stepped primitives system (.transition index keyId newStatus reason occurredAt)
        ⟨store, system.registries.set index (registry.set keyId { entry with
          status := status
          history := entry.history ++
            [⟨⟨some entry.status, status, occurredAt, text⟩, lastHash entry.history,
              eventHash⟩] })⟩

namespace System

variable {primitives : Primitives} {system : System}

theorem registry_of_opened? {index : ℕ} {registry : RecoveryAttestorRegistry}
    (hopened : system.opened? index = some registry) :
    system.registries[index]? = some registry ∧ registry.IsOpen := by
  obtain ⟨hregistry, hopen⟩ := Option.filter_eq_some_iff.mp hopened
  exact ⟨hregistry, of_decide_eq_true hopen⟩

private theorem set_back {registries : List RecoveryAttestorRegistry} {index : ℕ}
    {registry : RecoveryAttestorRegistry} (hregistry : registries[index]? = some registry) :
    registries.set index registry = registries := by
  obtain ⟨hlength, rfl⟩ := List.getElem?_eq_some_iff.mp hregistry
  exact List.set_getElem_self hlength

theorem step_stepped (call : Call) :
    Stepped primitives system call (system.step primitives call) := by
  cases call with
  | opens => exact .opened
  | readsNext index =>
      rw [step]
      split
      case h_1 => exact .unchanged _
      case h_2 registry hregistry =>
        rcases hunread : registry.unread with - | ⟨row, rest⟩
        · have hsame : registry.readNext system.store = registry := by
            rw [RecoveryAttestorRegistry.readNext, hunread]
          rw [hsame, set_back hregistry]
          exact .unchanged _
        · have hread : registry.readNext system.store =
              { registry with unread := rest }.set row.keyId
                ⟨row.attestor, row.status, system.store.history row.keyId⟩ := by
            rw [RecoveryAttestorRegistry.readNext, hunread]
          rw [hread]
          exact .read hregistry hunread
  | register index attestor occurredAt =>
      rw [step]
      split
      case h_1 => exact .unchanged _
      case h_2 registry hopened =>
        obtain ⟨hregistry, -⟩ := registry_of_opened? hopened
        rcases hresult : registry.register primitives system.store attestor occurredAt with
          - | ⟨store, registry'⟩
        · exact .unchanged _
        · rw [put]
          rcases RecoveryAttestorRegistry.register_eq_ok hresult with
            ⟨rfl, rfl⟩ | ⟨hvalid, hunknown, eventHash, hinsert, rfl⟩
          · rw [set_back hregistry]
            exact .unchanged _
          · exact .registered hregistry hvalid hunknown hinsert
  | transition index keyId newStatus reason occurredAt =>
      rw [step]
      split
      case h_1 => exact .unchanged _
      case h_2 registry hopened =>
        obtain ⟨hregistry, hopen⟩ := registry_of_opened? hopened
        rcases hresult : registry.transition primitives system.store keyId newStatus reason
          occurredAt with - | ⟨store, registry'⟩
        · exact .unchanged _
        · obtain ⟨entry, status, text, eventHash, hentry, hstatus, hallowed, htext,
            htransition, rfl⟩ := RecoveryAttestorRegistry.transition_eq_ok hresult
          obtain ⟨row, hrow, hcurrent, -⟩ :=
            RecoveryAttestorStore.transition_eq_ok htransition
          have hrecorded : system.recorded? index keyId newStatus reason =
              some (entry, status) := by
            simp [recorded?, hopened, hentry, hstatus, hrow, hallowed, htext, hcurrent]
          exact .transitioned hregistry hopen hentry hallowed hrecorded htransition

end System

/-! ## What every run keeps -/

section Invariants

variable {primitives : Primitives}

/-- Each key's history is a chain of allowed transitions to the stored status. -/
structure RecoveryAttestorStore.Sound (primitives : Primitives)
    (store : RecoveryAttestorStore) : Prop where
  valid : ∀ keyId row, store.attestors.lookup keyId = some row →
    ValidAttestor primitives row.attestor
  linked : ∀ keyId, Linked (changeHash primitives keyId) genesisHash (store.history keyId)
    (lastHash (store.history keyId))
  lifecycle : ∀ keyId, Lifecycle none ((store.history keyId).map Link.body)
  status : ∀ keyId, ((store.history keyId).getLast?.map fun event => event.body.toStatus) =
    (store.attestors.lookup keyId).map AttestorRow.status

/-- Attestors stay, and histories only grow. -/
structure RecoveryAttestorStore.Extends (store after : RecoveryAttestorStore) : Prop where
  attestors : ∀ keyId row, store.attestors.lookup keyId = some row →
    ∃ row', after.attestors.lookup keyId = some row' ∧ row'.attestor = row.attestor
  history : ∀ keyId, store.history keyId <+: after.history keyId

/-- What a registry holds is about attestors of the store. -/
structure RecoveryAttestorRegistry.Known (store : RecoveryAttestorStore)
    (registry : RecoveryAttestorRegistry) : Prop where
  entries : ∀ keyId entry, registry.entries keyId = some entry →
    ∃ row, store.attestors.lookup keyId = some row ∧ row.attestor = entry.attestor
  unread : ∀ row ∈ registry.unread,
    ∃ row', store.attestors.lookup row.keyId = some row' ∧ row'.attestor = row.attestor

structure System.Sound (primitives : Primitives) (system : System) : Prop where
  store : system.store.Sound primitives
  registries : ∀ registry ∈ system.registries, registry.Known system.store

namespace RecoveryAttestorStore

variable {store after : RecoveryAttestorStore} {eventHash : String}

theorem sound_empty : empty.Sound primitives where
  valid := nofun
  linked := fun _ => Linked.nil genesisHash
  lifecycle := fun _ => trivial
  status := fun _ => rfl

theorem Sound.history_eq_nil (hsound : store.Sound primitives) {keyId : String}
    (hfresh : store.attestors.lookup keyId = none) : store.history keyId = [] := by
  have hstatus := hsound.status keyId
  rw [hfresh, Option.map_none, Option.map_eq_none_iff] at hstatus
  exact List.getLast?_eq_none_iff.mp hstatus

theorem extends_refl (store : RecoveryAttestorStore) : store.Extends store where
  attestors := fun _ row hrow => ⟨row, hrow, rfl⟩
  history := fun _ => List.prefix_refl _

theorem Extends.trans {last : RecoveryAttestorStore} (hextends : store.Extends after)
    (hlast : after.Extends last) : store.Extends last := by
  constructor
  · intro keyId row hrow
    obtain ⟨row', hrow', hsame⟩ := hextends.attestors keyId row hrow
    obtain ⟨row'', hrow'', hsame'⟩ := hlast.attestors keyId row' hrow'
    exact ⟨row'', hrow'', hsame'.trans hsame⟩
  · intro keyId
    exact (hextends.history keyId).trans (hlast.history keyId)

theorem extends_of_insert {attestor : RecoveryAttestor} {status : RecoveryAttestorStatus}
    {occurredAt : String}
    (hinsert : store.insert primitives attestor status occurredAt = .ok (after, eventHash)) :
    store.Extends after := by
  obtain ⟨hfresh, hlookup, hhistory, -⟩ := insert_eq_ok hinsert
  constructor
  · intro keyId row hrow
    have hne : attestor.keyId ≠ keyId := by
      rintro rfl
      rw [hfresh] at hrow
      cases hrow
    exact ⟨row, by rw [hlookup, if_neg hne, hrow], rfl⟩
  · intro keyId
    rw [hhistory]
    split
    · exact List.prefix_append _ _
    · exact List.prefix_refl _

theorem extends_of_transition {keyId reason occurredAt : String}
    {expectedStatus newStatus : RecoveryAttestorStatus}
    (htransition : store.transition primitives keyId expectedStatus newStatus reason
      occurredAt = .ok (after, eventHash)) : store.Extends after := by
  obtain ⟨row, hrow, -, hlookup, hhistory, -⟩ := transition_eq_ok htransition
  constructor
  · intro wanted other hother
    by_cases hwanted : wanted = keyId
    · subst hwanted
      obtain rfl := Option.some.inj (hrow.symm.trans hother)
      exact ⟨{ row with status := newStatus }, by rw [hlookup, if_pos rfl], rfl⟩
    · exact ⟨other, by rw [hlookup, if_neg hwanted, hother], rfl⟩
  · intro wanted
    rw [hhistory]
    split
    · exact List.prefix_append _ _
    · exact List.prefix_refl _

theorem sound_of_insert {attestor : RecoveryAttestor} {status : RecoveryAttestorStatus}
    {occurredAt : String} (hsound : store.Sound primitives)
    (hvalid : ValidAttestor primitives attestor)
    (hinsert : store.insert primitives attestor status occurredAt = .ok (after, eventHash)) :
    after.Sound primitives := by
  obtain ⟨hfresh, hlookup, hhistory, -⟩ := insert_eq_ok hinsert
  have hnil := hsound.history_eq_nil hfresh
  have hfirst : after.history attestor.keyId =
      [chained primitives attestor.keyId ⟨none, status, occurredAt, "registered"⟩
        genesisHash] := by
    rw [hhistory, if_pos rfl, hnil, List.nil_append]
  have hother : ∀ keyId, attestor.keyId ≠ keyId →
      after.history keyId = store.history keyId := by
    intro keyId hne
    rw [hhistory, if_neg hne]
  constructor
  · intro keyId row hrow
    rw [hlookup] at hrow
    split at hrow
    · obtain rfl := Option.some.inj hrow
      exact hvalid
    · exact hsound.valid keyId row hrow
  · intro keyId
    by_cases hkey : attestor.keyId = keyId
    · subst hkey
      rw [hfirst]
      exact linked_concat_chained (Linked.nil genesisHash) _
    · rw [hother keyId hkey]
      exact hsound.linked keyId
  · intro keyId
    by_cases hkey : attestor.keyId = keyId
    · subst hkey
      rw [hfirst]
      exact ⟨rfl, fun held hheld => absurd hheld (Option.not_mem_none held), trivial⟩
    · rw [hother keyId hkey]
      exact hsound.lifecycle keyId
  · intro keyId
    by_cases hkey : attestor.keyId = keyId
    · subst hkey
      rw [hfirst, hlookup, if_pos rfl]
      rfl
    · rw [hother keyId hkey, hlookup, if_neg hkey]
      exact hsound.status keyId

theorem sound_of_transition {keyId reason occurredAt : String}
    {expectedStatus newStatus : RecoveryAttestorStatus} (hsound : store.Sound primitives)
    (hallowed : newStatus ∈ expectedStatus.allowed)
    (htransition : store.transition primitives keyId expectedStatus newStatus reason
      occurredAt = .ok (after, eventHash)) : after.Sound primitives := by
  obtain ⟨row, hrow, hcurrent, hlookup, hhistory, -⟩ := transition_eq_ok htransition
  have hstatus := hsound.status keyId
  rw [hrow, Option.map_some, hcurrent] at hstatus
  have hother : ∀ wanted, keyId ≠ wanted → after.history wanted = store.history wanted := by
    intro wanted hne
    rw [hhistory, if_neg hne]
  constructor
  · intro wanted other hother
    rw [hlookup] at hother
    split at hother
    · obtain rfl := Option.some.inj hother
      exact hsound.valid keyId row hrow
    · exact hsound.valid wanted other hother
  · intro wanted
    by_cases hkey : keyId = wanted
    · subst hkey
      rw [hhistory, if_pos rfl]
      exact linked_concat_chained (hsound.linked keyId) _
    · rw [hother wanted hkey]
      exact hsound.linked wanted
  · intro wanted
    by_cases hkey : keyId = wanted
    · subst hkey
      rw [hhistory, if_pos rfl, List.map_append, List.map_singleton]
      apply lifecycle_concat (hsound.lifecycle keyId)
      · rw [List.getLast?_map, Option.map_map, Option.or_none]
        exact hstatus.symm
      · intro status hfrom
        obtain rfl := Option.some.inj hfrom
        exact hallowed
    · rw [hother wanted hkey]
      exact hsound.lifecycle wanted
  · intro wanted
    by_cases hkey : keyId = wanted
    · subst hkey
      rw [hhistory, if_pos rfl, hlookup, if_pos rfl, List.getLast?_concat]
      rfl
    · rw [hother wanted hkey, hlookup, if_neg (Ne.symm hkey)]
      exact hsound.status wanted

end RecoveryAttestorStore

namespace RecoveryAttestorRegistry

variable {store after : RecoveryAttestorStore} {registry : RecoveryAttestorRegistry}

theorem known_opened (store : RecoveryAttestorStore) : (opened store).Known store where
  entries := nofun
  unread := fun row hrow =>
    ⟨row, Table.lookup_of_mem (RecoveryAttestorStore.mem_load.mp hrow), rfl⟩

theorem Known.mono (hknown : registry.Known store) (hextends : store.Extends after) :
    registry.Known after := by
  constructor
  · intro keyId entry hentry
    obtain ⟨row, hrow, hattestor⟩ := hknown.entries keyId entry hentry
    obtain ⟨row', hrow', hsame⟩ := hextends.attestors keyId row hrow
    exact ⟨row', hrow', hsame.trans hattestor⟩
  · intro unreadRow hunread
    obtain ⟨row, hrow, hattestor⟩ := hknown.unread unreadRow hunread
    obtain ⟨row', hrow', hsame⟩ := hextends.attestors _ row hrow
    exact ⟨row', hrow', hsame.trans hattestor⟩

theorem entries_set {keyId wanted : String} {entry : Entry} :
    (registry.set keyId entry).entries wanted =
      if wanted = keyId then some entry else registry.entries wanted :=
  Function.update_apply ..

theorem Known.set (hknown : registry.Known store) {keyId : String} {entry : Entry}
    (hrow : ∃ row, store.attestors.lookup keyId = some row ∧ row.attestor = entry.attestor) :
    (registry.set keyId entry).Known store := by
  constructor
  · intro wanted other hother
    rw [entries_set] at hother
    split at hother
    case isTrue hwanted =>
      subst hwanted
      obtain rfl := Option.some.inj hother
      exact hrow
    case isFalse => exact hknown.entries wanted other hother
  · exact hknown.unread

end RecoveryAttestorRegistry

variable {system after : System} {call : Call}

theorem System.forall_mem_set {Property : RecoveryAttestorRegistry → Prop}
    {registries : List RecoveryAttestorRegistry} {index : ℕ}
    {registry : RecoveryAttestorRegistry}
    (hothers : ∀ other ∈ registries, Property other) (hregistry : Property registry) :
    ∀ other ∈ registries.set index registry, Property other := by
  intro other hother
  rcases List.mem_or_eq_of_mem_set hother with hmem | rfl
  · exact hothers other hmem
  · exact hregistry

/-- What holds of every entry still holds after a registry writes one more. -/
theorem System.forall_entries_set {Property : String → Entry → Prop}
    {registries : List RecoveryAttestorRegistry} {index : ℕ}
    {registry : RecoveryAttestorRegistry} {keyId : String} {entry : Entry}
    (unread : List AttestorRow)
    (hentries : ∀ other ∈ registries, ∀ wanted held, other.entries wanted = some held →
      Property wanted held)
    (hregistry : registries[index]? = some registry) (hentry : Property keyId entry) :
    ∀ other ∈ registries.set index ({ registry with unread := unread }.set keyId entry),
      ∀ wanted held, other.entries wanted = some held → Property wanted held := by
  apply System.forall_mem_set hentries
  intro wanted held hheld
  rw [RecoveryAttestorRegistry.entries_set] at hheld
  split at hheld
  case isTrue hwanted =>
    subst hwanted
    obtain rfl := Option.some.inj hheld
    exact hentry
  case isFalse =>
    exact hentries registry (List.mem_of_getElem? hregistry) wanted held hheld

theorem Stepped.extends (hstepped : Stepped primitives system call after) :
    system.store.Extends after.store := by
  cases hstepped with
  | unchanged => exact RecoveryAttestorStore.extends_refl _
  | opened => exact RecoveryAttestorStore.extends_refl _
  | read => exact RecoveryAttestorStore.extends_refl _
  | registered _ _ _ hinsert => exact RecoveryAttestorStore.extends_of_insert hinsert
  | transitioned _ _ _ _ _ htransition =>
      exact RecoveryAttestorStore.extends_of_transition htransition

theorem Stepped.sound (hstepped : Stepped primitives system call after)
    (hsound : system.Sound primitives) : after.Sound primitives := by
  have hextends := hstepped.extends
  have hknown : ∀ registry ∈ system.registries, registry.Known after.store :=
    fun registry hregistry => (hsound.registries registry hregistry).mono hextends
  cases hstepped with
  | unchanged => exact hsound
  | opened =>
      refine ⟨hsound.store, fun registry hregistry => ?_⟩
      rcases List.mem_append.mp hregistry with hmem | hnew
      · exact hknown registry hmem
      · obtain rfl := List.mem_singleton.mp hnew
        exact RecoveryAttestorRegistry.known_opened _
  | @read index registry row rest hregistry hunread =>
      refine ⟨hsound.store, System.forall_mem_set hknown ?_⟩
      have hmem := hknown registry (List.mem_of_getElem? hregistry)
      have hrest : RecoveryAttestorRegistry.Known system.store
          { registry with unread := rest } :=
        ⟨hmem.entries, fun other hother => hmem.unread other (by simp [hunread, hother])⟩
      exact hrest.set (hmem.unread row (by simp [hunread]))
  | @registered index registry attestor _ _ _ hregistry hvalid _ hinsert =>
      refine ⟨RecoveryAttestorStore.sound_of_insert hsound.store hvalid hinsert,
        System.forall_mem_set hknown ?_⟩
      apply (hknown registry (List.mem_of_getElem? hregistry)).set
      obtain ⟨-, hlookup, -⟩ := RecoveryAttestorStore.insert_eq_ok hinsert
      exact ⟨_, by rw [hlookup, if_pos rfl], rfl⟩
  | @transitioned index registry _ _ _ _ _ _ entry _ _ hregistry _ hentry hallowed
      _ htransition =>
      refine ⟨RecoveryAttestorStore.sound_of_transition hsound.store hallowed htransition,
        System.forall_mem_set hknown ?_⟩
      have hmem := hknown registry (List.mem_of_getElem? hregistry)
      exact hmem.set (hmem.entries _ entry hentry)

theorem System.sound_empty : System.empty.Sound primitives :=
  ⟨RecoveryAttestorStore.sound_empty, nofun⟩

/-- Every run keeps the store and what the registries hold sound. -/
theorem System.sound_run (calls : List Call) :
    (run (System.step primitives) System.empty calls).Sound primitives :=
  run_invariant System.sound_empty
    (fun _ call hsound => (System.step_stepped call).sound hsound) calls

end Invariants

/-! ## An attestor to run with -/

namespace Sample

def primitives : Primitives where
  decodeBase64 := fun text => if text = "public_key_1" then some (List.replicate 32 1) else none
  sha256 := fun _ => "0123456789abcdef0123456789abcdef"
  historyEventHash := fun keyId body previous =>
    keyId ++ ":" ++ body.toStatus.text?.getD "" ++ ":" ++ previous

def keyId : String := "ed25519-0123456789abcdef"

def attestor : RecoveryAttestor where
  keyId := keyId
  publicKey := "public_key_1"
  name := "Recovery attestor"

def suspend (index : ℕ) : Call :=
  .transition index keyId "SUSPENDED" (.text "incident review") "2026-01-02"

def activate (index : ℕ) : Call :=
  .transition index keyId "ACTIVE" (.text "review cleared") "2026-01-03"

def revoke (index : ℕ) : Call :=
  .transition index keyId "REVOKED" (.text "key compromise") "2026-01-04"

/-- Two registries on a store in which the first has registered the attestor. -/
def twoRegistries : List Call :=
  [.opens, .register 0 attestor "2026-01-01", .opens, .readsNext 1]

end Sample

end AegisForge.Shared.RecoveryTrust
