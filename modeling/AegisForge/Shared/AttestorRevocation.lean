import AegisForge.Shared.RecoveryTrustSystem

/-!
# Revocation of attestors

`require` answers from the status that the registry holds in memory.  A
registry that still holds a key as active accepts it although the store has
recorded its suspension or revocation through another registry.
-/

namespace AegisForge.Shared.AttestorRevocation

open AegisForge.Core RecoveryTrust

/-- The last recorded change of the key is a transition to another status than
active. -/
def Withdrawn (store : RecoveryAttestorStore) (keyId : String) : Prop :=
  ∃ event, (store.history keyId).getLast? = some event ∧ event.body.fromStatus ≠ none ∧
    event.body.toStatus ≠ .active

/-- No registry accepts a key that was withdrawn. -/
def WithdrawnIsRefused (system : System) : Prop :=
  ∀ keyId, Withdrawn system.store keyId → ∀ registry ∈ system.registries, registry.IsOpen →
    ∀ publicKey attestor, registry.require keyId publicKey ≠ .ok attestor

/-- The registry holds the key as active and enabled, or it is about to. -/
def HoldsActive (registry : RecoveryAttestorRegistry) (keyId : String) : Prop :=
  (∃ entry, registry.entries keyId = some entry ∧ entry.attestor.enabled = true ∧
      entry.status = .active) ∨
    ∃ row ∈ registry.unread, row.keyId = keyId ∧ row.attestor.enabled = true ∧
      row.status = .active

instance (registry : RecoveryAttestorRegistry) (keyId : String) :
    Decidable (HoldsActive registry keyId) :=
  inferInstanceAs (Decidable (_ ∨ _))

/-- The key is withdrawn only when no other registry holds it as active. -/
def HeldByNoOther (system : System) : Call → Prop
  | .transition index keyId newStatus reason _ =>
      ∀ recorded ∈ system.recorded? index keyId newStatus reason, recorded.2 ≠ .active →
        ∀ registry ∈ system.registries.eraseIdx index, ¬HoldsActive registry keyId
  | _ => True

instance HeldByNoOther.decidable (system : System) :
    ∀ call, Decidable (HeldByNoOther system call)
  | .opens => .isTrue trivial
  | .readsNext _ => .isTrue trivial
  | .register .. => .isTrue trivial
  | .transition .. => inferInstanceAs (Decidable (∀ recorded ∈ _, _))

theorem require_eq_ok {registry : RecoveryAttestorRegistry} {keyId publicKey : String}
    {attestor : RecoveryAttestor} (hrequire : registry.require keyId publicKey = .ok attestor) :
    HoldsActive registry keyId := by
  obtain ⟨entry, hentry, hchecked⟩ := orRaise_bind_eq_ok hrequire
  obtain ⟨henabled, hrest⟩ := check_bind_eq_ok hchecked
  obtain ⟨hsuspended, hlast⟩ := check_bind_eq_ok hrest
  obtain ⟨hrevoked, -⟩ := check_bind_eq_ok hlast
  refine Or.inl ⟨entry, hentry, henabled, ?_⟩
  cases hstatus : entry.status with
  | active => rfl
  | suspended => exact absurd hstatus hsuspended
  | revoked => exact absurd hstatus hrevoked

/-- Keys that are not active in the store are active in no registry. -/
def InactiveEverywhere (system : System) : Prop :=
  ∀ keyId row, system.store.attestors.lookup keyId = some row → row.status ≠ .active →
    ∀ registry ∈ system.registries, ¬HoldsActive registry keyId

theorem withdrawnIsRefused_of_inactiveEverywhere {primitives : Primitives} {system : System}
    (hsound : system.Sound primitives) (hinactive : InactiveEverywhere system) :
    WithdrawnIsRefused system := by
  intro keyId hwithdrawn registry hregistry _ publicKey attestor hrequire
  obtain ⟨event, hevent, -, hstatus⟩ := hwithdrawn
  have hstored := hsound.store.status keyId
  rw [hevent, Option.map_some] at hstored
  obtain ⟨row, hrow, hsame⟩ := Option.map_eq_some_iff.mp hstored.symm
  exact hinactive keyId row hrow (hsame ▸ hstatus) registry hregistry (require_eq_ok hrequire)

section Registries

variable {store : RecoveryAttestorStore} {registry : RecoveryAttestorRegistry} {keyId : String}

/-- What a registry holds as active after a write it held before, or wrote. -/
theorem holdsActive_set {written : String} {entry : Entry}
    (hholds : HoldsActive (registry.set written entry) keyId) :
    (keyId = written ∧ entry.attestor.enabled = true ∧ entry.status = .active) ∨
      (∃ row ∈ registry.unread, row.keyId = keyId ∧ row.attestor.enabled = true ∧
        row.status = .active) ∨
      (keyId ≠ written ∧ HoldsActive registry keyId) := by
  rcases hholds with ⟨held, hheld, hactive⟩ | hunread
  · rw [RecoveryAttestorRegistry.entries_set] at hheld
    by_cases hkey : keyId = written
    · rw [if_pos hkey] at hheld
      obtain rfl := Option.some.inj hheld
      exact Or.inl ⟨hkey, hactive⟩
    · rw [if_neg hkey] at hheld
      exact Or.inr (Or.inr ⟨hkey, Or.inl ⟨held, hheld, hactive⟩⟩)
  · exact Or.inr (Or.inl hunread)

theorem not_holdsActive_of_fresh (hknown : registry.Known store)
    (hfresh : store.attestors.lookup keyId = none) : ¬HoldsActive registry keyId := by
  rintro (⟨entry, hentry, -⟩ | ⟨row, hrow, rfl, -⟩)
  · obtain ⟨row, hrow, -⟩ := hknown.entries keyId entry hentry
    rw [hfresh] at hrow
    cases hrow
  · obtain ⟨row', hrow', -⟩ := hknown.unread row hrow
    rw [hfresh] at hrow'
    cases hrow'

/-- A registry that is opened now holds the stored statuses. -/
theorem not_holdsActive_opened {row : AttestorRow}
    (hrow : store.attestors.lookup keyId = some row) (hstatus : row.status ≠ .active) :
    ¬HoldsActive (.opened store) keyId := by
  rintro (⟨entry, hentry, -⟩ | ⟨read, hread, rfl, -, hactive⟩)
  · cases hentry
  · have hstored := Table.lookup_of_mem (RecoveryAttestorStore.mem_load.mp hread)
    obtain rfl := Option.some.inj (hrow.symm.trans hstored)
    exact hstatus hactive

end Registries

section Steps

variable {primitives : Primitives} {system after : System} {call : Call}

theorem inactiveEverywhere_of_stepped (hstepped : Stepped primitives system call after)
    (hsound : system.Sound primitives) (hheld : HeldByNoOther system call)
    (hinactive : InactiveEverywhere system) : InactiveEverywhere after := by
  cases hstepped with
  | unchanged => exact hinactive
  | opened =>
      intro keyId row hrow hstatus registry hregistry
      rcases List.mem_append.mp hregistry with hmem | hnew
      · exact hinactive keyId row hrow hstatus registry hmem
      · obtain rfl := List.mem_singleton.mp hnew
        exact not_holdsActive_opened hrow hstatus
  | @read index registry row rest hregistry hunread =>
      intro keyId stored hstored hstatus
      have hothers := hinactive keyId stored hstored hstatus
      apply System.forall_mem_set hothers
      have hown := hothers registry (List.mem_of_getElem? hregistry)
      intro hholds
      apply hown
      rcases holdsActive_set hholds with ⟨rfl, hactive⟩ | ⟨read, hread, hactive⟩ | ⟨-, hbefore⟩
      · exact Or.inr ⟨row, by simp [hunread], rfl, hactive⟩
      · exact Or.inr ⟨read, by rw [hunread]; exact List.mem_cons_of_mem _ hread, hactive⟩
      · rcases hbefore with hentry | ⟨read, hread, hactive⟩
        · exact Or.inl hentry
        · exact Or.inr ⟨read, by rw [hunread]; exact List.mem_cons_of_mem _ hread, hactive⟩
  | @registered index registry attestor _ _ _ hregistry _ _ hinsert =>
      intro keyId row hrow hstatus
      obtain ⟨hfresh, hlookup, -⟩ := RecoveryAttestorStore.insert_eq_ok hinsert
      rw [hlookup] at hrow
      have hmem := List.mem_of_getElem? hregistry
      by_cases hkey : attestor.keyId = keyId
      · subst hkey
        have hunknown := fun other hother =>
          not_holdsActive_of_fresh (hsound.registries other hother) hfresh
        apply System.forall_mem_set hunknown
        intro hholds
        rcases holdsActive_set hholds with ⟨-, -, hactive⟩ | hunread | ⟨hne, -⟩
        · rw [if_pos rfl] at hrow
          obtain rfl := Option.some.inj hrow
          exact hstatus hactive
        · exact hunknown registry hmem (Or.inr hunread)
        · exact hne rfl
      · rw [if_neg hkey] at hrow
        have hothers := hinactive keyId row hrow hstatus
        apply System.forall_mem_set hothers
        intro hholds
        rcases holdsActive_set hholds with ⟨hsame, -⟩ | hunread | ⟨-, hbefore⟩
        · exact hkey hsame.symm
        · exact hothers registry hmem (Or.inr hunread)
        · exact hothers registry hmem hbefore
  | @transitioned index registry withdrawn _ _ _ _ _ entry status _ hregistry hopen hentry
      hallowed hrecorded htransition =>
      intro keyId row hrow hstatus
      obtain ⟨stored, hstored, -, hlookup, -⟩ :=
        RecoveryAttestorStore.transition_eq_ok htransition
      rw [hlookup] at hrow
      by_cases hkey : keyId = withdrawn
      · subst hkey
        rw [if_pos rfl] at hrow
        obtain rfl := Option.some.inj hrow
        intro other hother hholds
        obtain ⟨position, hposition⟩ := List.mem_iff_getElem?.mp hother
        by_cases hown : position = index
        · subst hown
          have hlength := (List.getElem?_eq_some_iff.mp hregistry).1
          rw [List.getElem?_set_self hlength] at hposition
          obtain rfl := Option.some.inj hposition
          rcases holdsActive_set hholds with ⟨-, -, hactive⟩ | ⟨read, hread, -⟩ | ⟨hne, -⟩
          · exact hstatus hactive
          · rw [hopen] at hread
            cases hread
          · exact hne rfl
        · rw [List.getElem?_set_ne (Ne.symm hown)] at hposition
          exact hheld (entry, status) hrecorded hstatus other
            (List.mem_eraseIdx_iff_getElem?.mpr ⟨position, hown, hposition⟩) hholds
      · rw [if_neg hkey] at hrow
        have hothers := hinactive keyId row hrow hstatus
        have hmem := List.mem_of_getElem? hregistry
        apply System.forall_mem_set hothers
        intro hholds
        rcases holdsActive_set hholds with ⟨hsame, -⟩ | hunread | ⟨-, hbefore⟩
        · exact hkey hsame
        · exact hothers registry hmem (Or.inr hunread)
        · exact hothers registry hmem hbefore

end Steps

/-- In every run that withdraws keys only when no other registry holds them as
active, no registry accepts a withdrawn key. -/
theorem withdrawnIsRefused_of_heldByNoOther (primitives : Primitives) (calls : List Call)
    (hheld : Permitted (System.step primitives) HeldByNoOther System.empty calls) :
    WithdrawnIsRefused (run (System.step primitives) System.empty calls) := by
  have hinvariant : (run (System.step primitives) System.empty calls).Sound primitives ∧
      InactiveEverywhere (run (System.step primitives) System.empty calls) := by
    apply hheld.invariant fun system => system.Sound primitives ∧ InactiveEverywhere system
    · exact ⟨System.sound_empty, nofun⟩
    · rintro system call ⟨hsound, hinactive⟩ hpermits
      have hstepped := @System.step_stepped primitives system call
      exact ⟨hstepped.sound hsound,
        inactiveEverywhere_of_stepped hstepped hsound hpermits hinactive⟩
  exact withdrawnIsRefused_of_inactiveEverywhere hinvariant.1 hinvariant.2

/-- The second registry is opened on the suspended key, reactivates and revokes it. -/
def orderlyCalls : List Call :=
  [.opens, .register 0 Sample.attestor "2026-01-01", Sample.suspend 0, .opens, .readsNext 1,
    Sample.activate 1, Sample.revoke 1]

theorem withdrawnIsRefused_orderlyCalls :
    WithdrawnIsRefused (run (System.step Sample.primitives) System.empty orderlyCalls) :=
  withdrawnIsRefused_of_heldByNoOther Sample.primitives orderlyCalls (by decide +kernel)

/-- The second registry suspends the key while the first still holds it as active. -/
theorem not_withdrawnIsRefused_suspendedElsewhere :
    ¬∀ primitives calls,
      WithdrawnIsRefused (run (System.step primitives) System.empty calls) := by
  intro hrefused
  let system := run (System.step Sample.primitives) System.empty
    (Sample.twoRegistries ++ [Sample.suspend 1])
  have hwithdrawn : Withdrawn system.store Sample.keyId := by
    refine ⟨chained Sample.primitives Sample.keyId
      ⟨some .active, .suspended, "2026-01-02", "incident review"⟩
      (changeHash Sample.primitives Sample.keyId
        ⟨none, .active, "2026-01-01", "registered"⟩ genesisHash), ?_, ?_, ?_⟩
    · decide +kernel
    · decide
    · decide
  have hfirst : ∃ registry, system.registries[0]? = some registry ∧ registry.IsOpen ∧
      registry.require Sample.keyId "public_key_1" = .ok Sample.attestor := by
    decide +kernel
  obtain ⟨registry, hregistry, hopen, hrequire⟩ := hfirst
  exact hrefused Sample.primitives _ Sample.keyId hwithdrawn registry
    (List.mem_of_getElem? hregistry) hopen _ _ hrequire

end AegisForge.Shared.AttestorRevocation
