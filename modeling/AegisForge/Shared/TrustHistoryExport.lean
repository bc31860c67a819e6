import AegisForge.Shared.TrustHistoryVerification

/-!
# Export of trust histories

A registry exports the history that it holds in memory.  Its own transitions
are linked there to the last event in memory, while their hashes come from the
store, which links them to the last recorded event.  The exported chain is
intact as long as the two are the same.
-/

namespace AegisForge.Shared.TrustHistoryExport

open AegisForge.Core RecoveryTrust TrustHistoryVerification

/-- Whatever a registry exports is accepted. -/
def ExportsVerify (primitives : Primitives) (system : System) : Prop :=
  ∀ registry ∈ system.registries, registry.IsOpen → ∀ keyId artifact,
    exportTrustHistoryArtifact primitives system.store registry keyId = .ok artifact →
      ∃ result, verifyTrustHistoryArtifact primitives artifact = .ok result

/-- A transition is made through a registry that holds the last recorded event,
and a history is read while the status that was read with its row is current. -/
def UpToDate (system : System) : Call → Prop
  | .readsNext index =>
      ∀ registry ∈ system.registries[index]?, ∀ row ∈ registry.unread.head?,
        (system.store.attestors.lookup row.keyId).map AttestorRow.status = some row.status
  | .transition index keyId newStatus reason _ =>
      ∀ recorded ∈ system.recorded? index keyId newStatus reason,
        lastHash recorded.1.history = lastHash (system.store.history keyId)
  | _ => True

instance UpToDate.decidable (system : System) : ∀ call, Decidable (UpToDate system call)
  | .opens => .isTrue trivial
  | .readsNext _ => inferInstanceAs (Decidable (∀ registry ∈ _, _))
  | .register .. => .isTrue trivial
  | .transition .. => inferInstanceAs (Decidable (∀ recorded ∈ _, _))

/-- A chained history that leads to the status. -/
structure Entry.Consistent (primitives : Primitives) (keyId : String) (entry : Entry) :
    Prop where
  linked : Linked (changeHash primitives keyId) genesisHash entry.history
    (lastHash entry.history)
  status : (entry.history.getLast?.map fun event => event.body.toStatus) = some entry.status

/-- Every registry holds consistent entries. -/
def Consistent (primitives : Primitives) (system : System) : Prop :=
  ∀ registry ∈ system.registries, ∀ keyId entry, registry.entries keyId = some entry →
    Entry.Consistent primitives keyId entry

section Steps

variable {primitives : Primitives} {system after : System} {call : Call}

theorem exportsVerify_of_consistent (hsound : system.Sound primitives)
    (hconsistent : Consistent primitives system) : ExportsVerify primitives system := by
  intro registry hregistry _ keyId artifact hexport
  obtain ⟨attestor, hattestor, hverify⟩ := orRaise_bind_eq_ok hexport
  obtain ⟨_, -, hhistory⟩ := bind_eq_ok hverify
  obtain ⟨entry, hentry, rfl⟩ := Option.map_eq_some_iff.mp hattestor
  have hartifact : artifact =
      trustHistoryArtifact entry.attestor entry.status entry.history := by
    simp only [RecoveryAttestorRegistry.history, RecoveryAttestorRegistry.status,
      RecoveryAttestorRegistry.entry, hentry] at hhistory
    exact (Except.ok.inj hhistory).symm
  obtain ⟨row, hrow, hsame⟩ := (hsound.registries registry hregistry).entries keyId entry hentry
  have hvalid : ValidAttestor primitives entry.attestor := by
    rw [← hsame]
    exact hsound.store.valid keyId row hrow
  have hrowKey : row.keyId = keyId := Table.key_of_lookup hrow
  have hkey : entry.attestor.keyId = keyId := by
    rw [← hsame]
    exact hrowKey
  obtain ⟨hlinked, hstatus⟩ := hconsistent registry hregistry keyId entry hentry
  rw [hartifact]
  subst hkey
  exact ⟨_, verify_eq_ok_of_intact (intact_trustHistoryArtifact hvalid hlinked hstatus)⟩

/-- A registry exports every attestor that it knows. -/
theorem exportTrustHistoryArtifact_of_sound {store : RecoveryAttestorStore}
    {registry : RecoveryAttestorRegistry} {keyId : String} {entry : Entry}
    (hsound : store.Sound primitives) (hknown : registry.Known store)
    (hentry : registry.entries keyId = some entry) :
    exportTrustHistoryArtifact primitives store registry keyId =
      .ok (trustHistoryArtifact entry.attestor entry.status entry.history) := by
  obtain ⟨row, hrow, -⟩ := hknown.entries keyId entry hentry
  have hnonempty : store.history keyId ≠ [] := by
    intro hnil
    have hstatus := hsound.status keyId
    rw [hnil, hrow] at hstatus
    cases hstatus
  have hchain := verifyEvents_eq_ok_iff.mpr (hsound.linked keyId)
  simp only [exportTrustHistoryArtifact, RecoveryAttestorRegistry.get,
    RecoveryAttestorRegistry.verifyHistory, RecoveryAttestorRegistry.history,
    RecoveryAttestorRegistry.status, RecoveryAttestorRegistry.entry,
    RecoveryAttestorStore.verifyHistory, hentry, check, raiseUnless, if_pos hnonempty, hchain,
    Option.map_some, orRaise, bind, Except.bind, pure, Except.pure]

theorem consistent_of_stepped (hstepped : Stepped primitives system call after)
    (hsound : system.Sound primitives) (hcurrent : UpToDate system call)
    (hconsistent : Consistent primitives system) : Consistent primitives after := by
  cases hstepped with
  | unchanged => exact hconsistent
  | opened =>
      intro registry hregistry keyId entry hentry
      rcases List.mem_append.mp hregistry with hmem | hnew
      · exact hconsistent registry hmem keyId entry hentry
      · obtain rfl := List.mem_singleton.mp hnew
        cases hentry
  | @read index registry row rest hregistry hunread =>
      apply System.forall_entries_set rest hconsistent hregistry
      have hstatus := hcurrent registry hregistry row (by simp [hunread])
      exact ⟨hsound.store.linked row.keyId, (hsound.store.status row.keyId).trans hstatus⟩
  | @registered index registry attestor occurredAt _ _ hregistry _ _ hinsert =>
      apply System.forall_entries_set registry.unread hconsistent hregistry
      obtain ⟨-, -, -, rfl⟩ := RecoveryAttestorStore.insert_eq_ok hinsert
      exact ⟨linked_concat_chained (Linked.nil genesisHash) _, rfl⟩
  | @transitioned index registry keyId _ _ _ _ _ entry status _ hregistry _ hentry _ hrecorded
      htransition =>
      apply System.forall_entries_set registry.unread hconsistent hregistry
      obtain ⟨-, -, -, -, -, rfl⟩ := RecoveryAttestorStore.transition_eq_ok htransition
      have hlast : lastHash entry.history = lastHash (system.store.history keyId) :=
        hcurrent (entry, status) hrecorded
      have hbefore :=
        hconsistent registry (List.mem_of_getElem? hregistry) keyId entry hentry
      constructor
      · rw [← hlast]
        exact linked_concat_chained hbefore.linked _
      · rw [List.getLast?_concat]
        rfl

/-- Every run whose calls are up to date keeps the registries consistent. -/
theorem sound_consistent_of_upToDate {calls : List Call}
    (hcurrent : Permitted (System.step primitives) UpToDate System.empty calls) :
    (run (System.step primitives) System.empty calls).Sound primitives ∧
      Consistent primitives (run (System.step primitives) System.empty calls) := by
  apply hcurrent.invariant fun system =>
    system.Sound primitives ∧ Consistent primitives system
  · exact ⟨System.sound_empty, nofun⟩
  · rintro system call ⟨hsound, hconsistent⟩ hpermits
    have hstepped := @System.step_stepped primitives system call
    exact ⟨hstepped.sound hsound, consistent_of_stepped hstepped hsound hpermits hconsistent⟩

end Steps

/-- In every run whose calls are up to date, every export verifies. -/
theorem exportsVerify_of_upToDate (primitives : Primitives) (calls : List Call)
    (hcurrent : Permitted (System.step primitives) UpToDate System.empty calls) :
    ExportsVerify primitives (run (System.step primitives) System.empty calls) := by
  obtain ⟨hsound, hconsistent⟩ := sound_consistent_of_upToDate hcurrent
  exact exportsVerify_of_consistent hsound hconsistent

/-- The second registry suspends and reactivates the key, and a third one that
is opened afterwards revokes it. -/
def orderlyCalls : List Call :=
  Sample.twoRegistries ++
    [Sample.suspend 1, Sample.activate 1, .opens, .readsNext 2, Sample.revoke 2]

theorem exportsVerify_orderlyCalls :
    ExportsVerify Sample.primitives
      (run (System.step Sample.primitives) System.empty orderlyCalls) :=
  exportsVerify_of_upToDate Sample.primitives orderlyCalls (by decide +kernel)

/-- The second registry suspends and reactivates the key; the first one, which
has seen neither, suspends it again. -/
def detourCalls : List Call :=
  Sample.twoRegistries ++ [Sample.suspend 1, Sample.activate 1, Sample.suspend 0]

theorem not_exportsVerify_detourCalls :
    ¬∀ primitives calls,
      ExportsVerify primitives (run (System.step primitives) System.empty calls) := by
  intro hverify
  let system := run (System.step Sample.primitives) System.empty detourCalls
  have hstale : ∃ registry, system.registries[0]? = some registry ∧ registry.IsOpen ∧
      ∃ entry, registry.entries Sample.keyId = some entry ∧
        verifyTrustHistoryArtifact Sample.primitives
          (trustHistoryArtifact entry.attestor entry.status entry.history) =
            .error (trustError "trust_history_event_hash_mismatch") := by
    decide +kernel
  obtain ⟨registry, hregistry, hopen, entry, hentry, hrejected⟩ := hstale
  have hsound := @System.sound_run Sample.primitives detourCalls
  have hmem := List.mem_of_getElem? hregistry
  have hexport := exportTrustHistoryArtifact_of_sound hsound.store
    (hsound.registries registry hmem) hentry
  obtain ⟨result, haccepted⟩ :=
    hverify Sample.primitives detourCalls registry hmem hopen _ _ hexport
  rw [hrejected] at haccepted
  cases haccepted

end AegisForge.Shared.TrustHistoryExport
