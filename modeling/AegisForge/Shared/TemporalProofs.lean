import AegisForge.Shared.RecoveryTemporal
import AegisForge.Shared.RecoveryTrustSystem

/-!
# Validity of temporal proofs

A proof carries the active trust event as the signing registry holds it.  A
registry that is loaded later finds the event when the store recorded the same
one, with the same link to the event before it.
-/

namespace AegisForge.Shared.TemporalProofs

open AegisForge.Core RecoveryTrust RecoveryTemporal

/-- What a registry signs after the calls `earlier`, every registry that is
opened after that accepts after the calls `later`. -/
def ProofsStayValid (primitives : RecoveryTemporal.Primitives) (earlier later : List Call) :
    Prop :=
  let step := System.step primitives.toPrimitives
  let signing := run step System.empty earlier
  let verifying := run step System.empty (earlier ++ later)
  ∀ signer, SignsCorrectly primitives signer →
    ∀ registry ∈ signing.registries, registry.IsOpen → ∀ artifact proof,
      signTemporalRecoveryProof primitives artifact signer registry = .ok proof →
        ∀ position fresh, signing.registries.length ≤ position →
          verifying.registries[position]? = some fresh → fresh.IsOpen →
            ∃ result, verifyTemporalRecoveryProof primitives proof (some fresh) = .ok result

/-- A transition to active is made through a registry that holds the last
recorded event. -/
def ActivatedUpToDate (system : System) : Call → Prop
  | .transition index keyId newStatus reason _ =>
      ∀ recorded ∈ system.recorded? index keyId newStatus reason, recorded.2 = .active →
        lastHash recorded.1.history = lastHash (system.store.history keyId)
  | _ => True

instance ActivatedUpToDate.decidable (system : System) :
    ∀ call, Decidable (ActivatedUpToDate system call)
  | .opens => .isTrue trivial
  | .readsNext _ => .isTrue trivial
  | .register .. => .isTrue trivial
  | .transition .. => inferInstanceAs (Decidable (∀ recorded ∈ _, _))

/-- The active events that registries hold are recorded in the store. -/
def ActivationsRecorded (system : System) : Prop :=
  ∀ registry ∈ system.registries, ∀ keyId entry, registry.entries keyId = some entry →
    ∀ event ∈ entry.history, event.body.toStatus = .active →
      event ∈ system.store.history keyId

/-- The registry holds the histories of an earlier store, or will have read
them when it is open. -/
def HasRead (earlier : RecoveryAttestorStore) (registry : RecoveryAttestorRegistry) : Prop :=
  ∀ keyId row, earlier.attestors.lookup keyId = some row →
    (∃ entry, registry.entries keyId = some entry ∧ earlier.history keyId ⊆ entry.history) ∨
      ∃ unread ∈ registry.unread, unread.keyId = keyId

section Steps

variable {primitives : RecoveryTrust.Primitives} {system after : System} {call : Call}

theorem activationsRecorded_of_stepped (hstepped : Stepped primitives system call after)
    (hcurrent : ActivatedUpToDate system call) (hrecorded : ActivationsRecorded system) :
    ActivationsRecorded after := by
  have hextends := hstepped.extends
  have hkept : ∀ registry ∈ system.registries, ∀ keyId entry,
      registry.entries keyId = some entry → ∀ event ∈ entry.history,
        event.body.toStatus = .active → event ∈ after.store.history keyId :=
    fun registry hregistry keyId entry hentry event hevent hactive =>
      (hextends.history keyId).subset
        (hrecorded registry hregistry keyId entry hentry event hevent hactive)
  cases hstepped with
  | unchanged => exact hrecorded
  | opened =>
      intro registry hregistry keyId entry hentry
      rcases List.mem_append.mp hregistry with hmem | hnew
      · exact hrecorded registry hmem keyId entry hentry
      · obtain rfl := List.mem_singleton.mp hnew
        cases hentry
  | @read index registry row rest hregistry _ =>
      exact System.forall_entries_set rest hkept hregistry fun event hevent _ => hevent
  | @registered index registry attestor _ _ _ hregistry _ _ hinsert =>
      apply System.forall_entries_set registry.unread hkept hregistry
      intro event hevent _
      obtain ⟨-, -, hhistory, rfl⟩ := RecoveryAttestorStore.insert_eq_ok hinsert
      obtain rfl := List.mem_singleton.mp hevent
      rw [hhistory, if_pos rfl]
      exact List.mem_append_right _ (List.mem_singleton.mpr rfl)
  | @transitioned index registry keyId _ _ _ _ _ entry status _ hregistry _ hentry _ hoccurs
      htransition =>
      apply System.forall_entries_set registry.unread hkept hregistry
      intro event hevent hactive
      rcases List.mem_append.mp hevent with hbefore | hnew
      · exact hkept registry (List.mem_of_getElem? hregistry) keyId entry hentry event hbefore
          hactive
      · obtain ⟨-, -, -, -, hhistory, rfl⟩ :=
          RecoveryAttestorStore.transition_eq_ok htransition
        obtain rfl := List.mem_singleton.mp hnew
        have hlast : lastHash entry.history = lastHash (system.store.history keyId) :=
          hcurrent (entry, status) hoccurs hactive
        rw [hhistory, if_pos rfl, hlast]
        exact List.mem_append_right _ (List.mem_singleton.mpr rfl)

/-- A registry keeps what it has read when it writes one more entry. -/
theorem hasRead_set {earlier : RecoveryAttestorStore} {registry : RecoveryAttestorRegistry}
    {written : String} {entry : Entry} (hread : HasRead earlier registry)
    (hentry : ∀ held, registry.entries written = some held → held.history ⊆ entry.history) :
    HasRead earlier (registry.set written entry) := by
  intro keyId row hrow
  rcases hread keyId row hrow with ⟨held, hheld, hsubset⟩ | hunread
  · by_cases hkey : keyId = written
    · subst hkey
      refine Or.inl ⟨entry, ?_, List.Subset.trans hsubset (hentry held hheld)⟩
      rw [RecoveryAttestorRegistry.entries_set, if_pos rfl]
    · refine Or.inl ⟨held, ?_, hsubset⟩
      rw [RecoveryAttestorRegistry.entries_set, if_neg hkey, hheld]
  · exact Or.inr hunread

/-- Every registry that was opened after the first `count` ones has read the
histories of the earlier store. -/
structure ReadLater (earlier : RecoveryAttestorStore) (count : ℕ) (system : System) : Prop where
  extended : earlier.Extends system.store
  opened : count ≤ system.registries.length
  read : ∀ position registry, count ≤ position →
    system.registries[position]? = some registry → HasRead earlier registry

theorem readLater_set {earlier : RecoveryAttestorStore} {count index : ℕ}
    {store : RecoveryAttestorStore} {registry registry' : RecoveryAttestorRegistry}
    (hlater : ReadLater earlier count system) (hstore : system.store.Extends store)
    (hregistry : system.registries[index]? = some registry)
    (hread : HasRead earlier registry → HasRead earlier registry') :
    ReadLater earlier count ⟨store, system.registries.set index registry'⟩ := by
  refine ⟨hlater.extended.trans hstore, by simpa using hlater.opened, ?_⟩
  intro position other hposition hother
  by_cases hown : position = index
  · subst hown
    have hlength := (List.getElem?_eq_some_iff.mp hregistry).1
    have hsame : registry' = other :=
      Option.some.inj ((List.getElem?_set_self hlength).symm.trans hother)
    subst hsame
    exact hread (hlater.read position registry hposition hregistry)
  · have hbefore : system.registries[position]? = some other :=
      (List.getElem?_set_ne (Ne.symm hown)).symm.trans hother
    exact hlater.read position other hposition hbefore

theorem readLater_of_stepped {earlier : RecoveryAttestorStore} {count : ℕ}
    (hstepped : Stepped primitives system call after) (hlater : ReadLater earlier count system) :
    ReadLater earlier count after := by
  have hextends := hstepped.extends
  cases hstepped with
  | unchanged => exact hlater
  | opened =>
      refine ⟨hlater.extended, by have := hlater.opened; simp; omega, ?_⟩
      intro position registry hposition hregistry
      rcases Nat.lt_or_ge position system.registries.length with hbefore | hafter
      · rw [List.getElem?_append_left hbefore] at hregistry
        exact hlater.read position registry hposition hregistry
      · rw [List.getElem?_append_right hafter] at hregistry
        obtain rfl := List.mem_singleton.mp (List.mem_of_getElem? hregistry)
        intro keyId row hrow
        obtain ⟨row', hrow', -⟩ := hlater.extended.attestors keyId row hrow
        exact Or.inr ⟨row', RecoveryAttestorStore.mem_load.mpr (Table.mem_of_lookup hrow'),
          Table.key_of_lookup hrow'⟩
  | @read index registry row rest hregistry hunread =>
      apply readLater_set hlater hextends hregistry
      intro hread keyId stored hstored
      by_cases hkey : keyId = row.keyId
      · subst hkey
        refine Or.inl ⟨⟨row.attestor, row.status, system.store.history row.keyId⟩, ?_,
          (hlater.extended.history row.keyId).subset⟩
        rw [RecoveryAttestorRegistry.entries_set, if_pos rfl]
      · rcases hread keyId stored hstored with ⟨held, hheld, hsubset⟩ | ⟨other, hother, hsame⟩
        · refine Or.inl ⟨held, ?_, hsubset⟩
          rw [RecoveryAttestorRegistry.entries_set, if_neg hkey, hheld]
        · rw [hunread] at hother
          rcases List.mem_cons.mp hother with rfl | hrest
          · exact absurd hsame.symm hkey
          · exact Or.inr ⟨other, hrest, hsame⟩
  | @registered index registry attestor _ _ _ hregistry _ hunknown hinsert =>
      apply readLater_set hlater hextends hregistry
      intro hread
      apply hasRead_set hread
      intro held hheld
      rw [hunknown] at hheld
      cases hheld
  | @transitioned index registry keyId _ _ _ _ _ entry status _ hregistry _ hentry _ _ _ =>
      apply readLater_set hlater hextends hregistry
      intro hread
      apply hasRead_set hread
      intro held hheld
      obtain rfl := Option.some.inj (hentry.symm.trans hheld)
      exact List.subset_append_left _ _

end Steps

/-- When the transitions to active before the signing were made through
registries that were up to date, proofs stay valid whatever happens later. -/
theorem proofsStayValid_of_activatedUpToDate (primitives : RecoveryTemporal.Primitives)
    (earlier later : List Call)
    (hcurrent : Permitted (System.step primitives.toPrimitives) ActivatedUpToDate System.empty
      earlier) : ProofsStayValid primitives earlier later := by
  intro signer hsigns registry hregistry _ artifact proof hsigned position fresh hposition
    hfresh hopen
  let step := System.step primitives.toPrimitives
  let signing := run step System.empty earlier
  let verifying := run step System.empty (earlier ++ later)
  have hrecorded : ActivationsRecorded signing := by
    apply hcurrent.invariant ActivationsRecorded nofun
    intro system call hbefore hpermits
    exact activationsRecorded_of_stepped (System.step_stepped call) hpermits hbefore
  have hsigning : signing.Sound primitives.toPrimitives := System.sound_run earlier
  have hverifying : verifying.Sound primitives.toPrimitives := System.sound_run _
  have hlater : ReadLater signing.store signing.registries.length verifying := by
    have hstart : ReadLater signing.store signing.registries.length signing := by
      refine ⟨RecoveryAttestorStore.extends_refl _, le_refl _, ?_⟩
      intro other known hother hknown
      have hlength := (List.getElem?_eq_some_iff.mp hknown).1
      omega
    have hsplit : verifying = run step signing later := run_append earlier later
    rw [hsplit]
    exact run_invariant hstart
      (fun _ call hread => readLater_of_stepped (System.step_stepped call) hread) later
  obtain ⟨context, verdict, rfl, hobject, hverdict, hcontext, hmatches⟩ :=
    signTemporalRecoveryProof_eq_ok hsigned
  obtain ⟨entry, hentry, hkey, hevent, hactive, heventId⟩ := currentTrustContext_eq_ok hcontext
  obtain ⟨row, hrow, hattestor⟩ :=
    (hsigning.registries registry hregistry).entries signer.keyId entry hentry
  have hrowKey : row.keyId = signer.keyId := Table.key_of_lookup hrow
  have hpublicKey : row.attestor.publicKey = signer.publicKey := by
    rw [hattestor, ← hkey, hmatches]
  have hvalid := (hsigning.store.valid signer.keyId row hrow).key
  have hread := hlater.read position fresh hposition hfresh signer.keyId row hrow
  rcases hread with ⟨held, hheld, hsubset⟩ | ⟨unread, hunread, -⟩
  · obtain ⟨row', hrow', hsame⟩ := hlater.extended.attestors signer.keyId row hrow
    obtain ⟨row'', hrow'', hheldRow⟩ :=
      (hverifying.registries fresh (List.mem_of_getElem? hfresh)).entries signer.keyId held
        hheld
    have hheldKey : held.attestor.publicKey = signer.publicKey := by
      obtain rfl := Option.some.inj (hrow'.symm.trans hrow'')
      rw [← hheldRow, hsame, hpublicKey]
    have hstored := hrecorded registry hregistry signer.keyId entry hentry context.event hevent
      hactive
    have htrusted : ensureTrusted primitives (signedProof primitives signer context artifact)
        fresh = .ok ⟨⟩ :=
      ensureTrusted_signedProof hheld hheldKey hactive heventId (hsubset hstored)
    have hshape := validateShape_signedProof hobject hverdict heventId
    have hsignerKey : checkKey primitives.toPrimitives signer.keyId signer.publicKey =
        .ok ⟨⟩ := by
      rw [← hrowKey, ← hpublicKey]
      exact hvalid
    exact ⟨_, verify_signedProof hsigns hsignerKey hshape htrusted⟩
  · rw [hopen] at hunread
    cases hunread

/-! ## Two runs -/

def sampleSignature : AttestorRegistry.Bytes := List.replicate 64 2

def samplePrimitives : RecoveryTemporal.Primitives where
  toPrimitives :=
    { Sample.primitives with
      decodeBase64 := fun text =>
        if text = "signature_1" then some sampleSignature else Sample.primitives.decodeBase64 text }
  artifacts := {
    textOf := fun _ => "None"
    equal := fun left right => left.text? = right.text?
    hashEvent := fun recoveryId attemptId eventType _ occurredAt previous =>
      ":".intercalate [recoveryId, attemptId, eventType, occurredAt, previous] }
  canonicalHash := fun payload =>
    ":".intercalate (payload.keys.map fun key => ((payload.get key).text?).getD "")
  encodeBase64 := fun bytes => if bytes = sampleSignature then "signature_1" else ""
  signatureValid := fun _ bytes _ => bytes = sampleSignature

def sampleSigner : PayloadSigner := ⟨Sample.keyId, "public_key_1", fun _ => sampleSignature⟩

theorem signsCorrectly_sampleSigner : SignsCorrectly samplePrimitives sampleSigner where
  length := fun _ => rfl
  encoded := fun _ => rfl
  valid := fun _ _ _ => rfl

/-- The artifact of a recovery without events. -/
def emptyArtifact : Json :=
  .object [
    ("schema_version", .text RecoveryArtifact.schemaVersion),
    ("recovery_id", .text "recovery_1"),
    ("attempt_id", .null),
    ("events", .array []),
    ("head_hash", .text RecoveryArtifact.genesisHash)]

/-- The registry signs after a suspension and a reactivation of its own. -/
def orderlyCalls : List Call :=
  [.opens, .register 0 Sample.attestor "2026-01-01", Sample.suspend 0, Sample.activate 0]

/-- The key is revoked, and a second registry is opened. -/
def laterCalls : List Call := [Sample.revoke 0, .opens, .readsNext 1]

theorem proofStaysValid_orderlyCalls :
    ∃ registry fresh proof result,
      (run (System.step samplePrimitives.toPrimitives) System.empty
          orderlyCalls).registries[0]? = some registry ∧
        (run (System.step samplePrimitives.toPrimitives) System.empty
            (orderlyCalls ++ laterCalls)).registries[1]? = some fresh ∧
          signTemporalRecoveryProof samplePrimitives emptyArtifact sampleSigner registry =
              .ok proof ∧
            verifyTemporalRecoveryProof samplePrimitives proof (some fresh) = .ok result := by
  have hsigning : ∃ registry, (run (System.step samplePrimitives.toPrimitives) System.empty
      orderlyCalls).registries[0]? = some registry ∧ registry.IsOpen ∧
        (signTemporalRecoveryProof samplePrimitives emptyArtifact sampleSigner
          registry).toOption.isSome = true := by
    decide +kernel
  have hverifying : ∃ fresh, (run (System.step samplePrimitives.toPrimitives) System.empty
      (orderlyCalls ++ laterCalls)).registries[1]? = some fresh ∧ fresh.IsOpen := by
    decide +kernel
  obtain ⟨registry, hregistry, hopen, hsigned⟩ := hsigning
  obtain ⟨fresh, hfresh, hready⟩ := hverifying
  rcases hproof : signTemporalRecoveryProof samplePrimitives emptyArtifact sampleSigner
    registry with _ | proof
  · rw [hproof] at hsigned
    cases hsigned
  · obtain ⟨result, hresult⟩ :=
      proofsStayValid_of_activatedUpToDate samplePrimitives orderlyCalls laterCalls
        (by decide +kernel) sampleSigner signsCorrectly_sampleSigner registry
        (List.mem_of_getElem? hregistry) hopen emptyArtifact proof hproof 1 fresh
        (by decide +kernel) hfresh hready
    exact ⟨registry, fresh, proof, result, hregistry, hfresh, hproof, hresult⟩

/-- The second registry reactivates and suspends the key; then the first one,
which has seen neither, reactivates it. -/
def detourCalls : List Call :=
  [.opens, .register 0 Sample.attestor "2026-01-01", Sample.suspend 0, .opens, .readsNext 1,
    Sample.activate 1, Sample.suspend 1, Sample.activate 0]

theorem not_proofsStayValid_detourCalls :
    ¬∀ primitives earlier later, ProofsStayValid primitives earlier later := by
  intro hvalid
  have hsigning : ∃ registry, (run (System.step samplePrimitives.toPrimitives) System.empty
      detourCalls).registries[0]? = some registry ∧ registry.IsOpen ∧
        ∃ fresh, (run (System.step samplePrimitives.toPrimitives) System.empty
          (detourCalls ++ [.opens, .readsNext 2])).registries[2]? = some fresh ∧ fresh.IsOpen ∧
            ((signTemporalRecoveryProof samplePrimitives emptyArtifact sampleSigner
              registry).toOption.map fun proof =>
                (verifyTemporalRecoveryProof samplePrimitives proof
                  (some fresh)).toOption.isSome) = some false := by
    decide +kernel
  obtain ⟨registry, hregistry, hopen, fresh, hfresh, hready, hsigned⟩ := hsigning
  obtain ⟨proof, hproof, hrejected⟩ := Option.map_eq_some_iff.mp hsigned
  rcases hresult : signTemporalRecoveryProof samplePrimitives emptyArtifact sampleSigner
    registry with _ | signed
  · rw [hresult] at hproof
    cases hproof
  · rw [hresult] at hproof
    obtain rfl := Option.some.inj hproof
    obtain ⟨result, haccepted⟩ := hvalid samplePrimitives detourCalls [.opens, .readsNext 2]
      sampleSigner signsCorrectly_sampleSigner registry (List.mem_of_getElem? hregistry) hopen
      emptyArtifact _ hresult 2 fresh (by decide +kernel) hfresh hready
    rw [haccepted] at hrejected
    cases hrejected

end AegisForge.Shared.TemporalProofs
