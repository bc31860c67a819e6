import AegisForge.Shared.AttestationRoundTrip
import AegisForge.Shared.RegistryAppends

/-!
# Registering what was signed

The registry takes its entries from signed attestations.  The signer reads a case
digest as a number in base sixteen; the registry wants the lower-case digits.
-/

namespace AegisForge.Shared.Attestation

open AegisForge.Core
open AttestationRegistry (Entry entryFromAttestation normalizeEntry buildRegistry)

section Registering

variable {PrivateKey : Type} {primitives : Primitives PrivateKey} {now : String}
  {request : Request PrivateKey} {attestation : Attestation}

/-- The dictionaries of a request were decoded from JSON. -/
def IsDecoded (request : Request PrivateKey) : Prop :=
  ∃ case finding reproduction : Json,
    (case.IsCanonical ∧ finding.IsCanonical ∧ reproduction.IsCanonical) ∧
    request.caseRef = .ofJson case ∧ request.findingRef = .ofJson finding ∧
    request.reproduction = .ofJson reproduction

theorem IsDecoded.keysInTextOrder (hdecoded : IsDecoded request) : KeysInTextOrder request := by
  obtain ⟨case, finding, reproduction, hcanonical, hcase, hfinding, hreproduction⟩ := hdecoded
  rw [KeysInTextOrder, hcase, hfinding, hreproduction]
  exact ⟨PyValue.keysInTextOrder_ofJson hcanonical.1,
    PyValue.keysInTextOrder_ofJson hcanonical.2.1, PyValue.keysInTextOrder_ofJson hcanonical.2.2⟩

/-- The registry takes the entry of an attestation and a registry with it. -/
def Registers (primitives : Primitives PrivateKey) (attestation : Attestation) : Prop :=
  ∃ payload entry registry, attestation.toDict = .ok payload ∧
    entryFromAttestation primitives.sha256 payload = .ok entry ∧
    buildRegistry primitives.sha256 (.array [entry]) .null = .ok registry

/-- The case digest as the registry writes digests. -/
def HasDigest (request : Request PrivateKey) : Prop :=
  ∃ digest : Digest, request.caseRef.item "case_digest" = .text digest.text

/-- The case digest as it is written. -/
theorem get_caseDigest {key : PrivateKey} {contents : Contents}
    (hsigned : IsSigned primitives request attestation key contents) :
    ∃ text, request.caseRef.item "case_digest" = .text text ∧
      contents.case.get "case_digest" = .text text := by
  obtain ⟨tree, htree, hget⟩ := exists_item hsigned.isCase hsigned.parts.case
    (show "case_digest" ∈ caseFields by decide)
  have hdigest := hsigned.caseDigest
  cases hitem : request.caseRef.item "case_digest" with
  | text text =>
      rw [hitem] at htree
      obtain rfl := Option.some.inj htree
      exact ⟨text, rfl, hget⟩
  | _ =>
      rw [hitem] at hdigest
      cases hdigest

theorem toDict_of_keysInTextOrder {key : PrivateKey} {contents : Contents}
    (hsigned : IsSigned primitives request attestation key contents)
    (hkeys : KeysInTextOrder request) :
    attestation.toDict = .ok (contents.complete (idOf primitives contents)
      (signatureOf primitives key contents)) := by
  rw [toDict_of_isSigned hsigned,
    Contents.sortKeys_eq_self_iff.mpr (hsigned.parts.isCanonical_iff.mpr hkeys)]

theorem hasDigest_of_registers {key : PrivateKey} {contents : Contents}
    (hsigned : IsSigned primitives request attestation key contents)
    (hkeys : KeysInTextOrder request) (hregisters : Registers primitives attestation) :
    HasDigest request := by
  obtain ⟨payload, entry, registry, hpayload, hentry, -⟩ := hregisters
  rw [toDict_of_keysInTextOrder hsigned hkeys] at hpayload
  obtain rfl := Except.ok.inj hpayload
  obtain ⟨-, hparts⟩ := raiseUnless_bind_eq_ok hentry
  obtain ⟨-, hwritten⟩ := raiseUnless_bind_eq_ok hparts
  obtain ⟨text, -, hnormalized⟩ := orRaise_bind_eq_ok hwritten
  obtain ⟨normalized, hok, -⟩ := bind_eq_ok hnormalized
  obtain ⟨-, -, -, -, -, hcase, -⟩ := AttestationRegistry.normalizeEntry_eq_ok hok
  obtain ⟨digest, hitem, hget⟩ := get_caseDigest hsigned
  have hsame : Json.text digest = .text normalized.caseDigest.text := hget.symm.trans hcase
  exact ⟨normalized.caseDigest, hitem.trans (congrArg PyValue.text (Json.text.inj hsame))⟩

theorem registers_of_hasDigest {key : PrivateKey} {contents : Contents}
    (hsigned : IsSigned primitives request attestation key contents)
    (hkeys : KeysInTextOrder request) (hdigest : HasDigest request) :
    Registers primitives attestation := by
  obtain ⟨digest, hitem⟩ := hdigest
  obtain ⟨text, htext, hget⟩ := get_caseDigest hsigned
  have hcaseDigest : contents.case.get "case_digest" = .text digest.text := by
    rw [hget]
    exact congrArg Json.text (PyValue.text.inj (htext.symm.trans hitem))
  have hcase : contents.case.isObject = true := by
    have hhas := hsigned.isCase
    simp only [PyValue.hasKeys, Bool.and_eq_true] at hhas
    exact PyValue.isObject_of_tree hhas.1 hsigned.parts.case
  let payload := contents.complete (idOf primitives contents)
    (signatureOf primitives key contents)
  let entry : Entry := ⟨0, idOf primitives contents,
    primitives.sha256 (utf8 (payload.encode true)), digest, contents.verdict, contents.issuedAt,
    contents.keyId⟩
  have hmetadata : AttestationRegistry.publicMetadata payload
      (primitives.sha256 (utf8 (payload.encode true))) = entry.metadata := by
    rw [AttestationRegistry.publicMetadata,
      show (payload.get "case_ref").get "case_digest" = .text digest.text from hcaseDigest]
    rfl
  have hentry : entryFromAttestation primitives.sha256 payload = .ok entry.metadata := by
    rw [entryFromAttestation]
    refine raiseUnless_bind_eq_ok_iff.mpr ⟨rfl, ?_⟩
    refine raiseUnless_bind_eq_ok_iff.mpr ⟨⟨hcase, rfl⟩, ?_⟩
    refine orRaise_bind_eq_ok_iff.mpr ⟨payload.encode true, ?_, ?_⟩
    · rw [Json.canonicalText?, if_pos (Contents.isFinite_complete hsigned.parts.isReadable _ _)]
    · rw [hmetadata]
      exact bind_eq_ok_iff.mpr ⟨entry, AttestationRegistry.normalizeEntry_metadata entry, rfl⟩
  have hentries : AttestationRegistry.normalizeEntries 0 [entry.metadata] = .ok [entry] :=
    bind_eq_ok_iff.mpr ⟨entry, AttestationRegistry.normalizeEntry_metadata entry,
      bind_eq_ok_iff.mpr ⟨[], rfl, rfl⟩⟩
  exact ⟨payload, entry.metadata, _, toDict_of_keysInTextOrder hsigned hkeys, hentry,
    AttestationRegistry.Snapshot.buildRegistry_array hentries rfl (List.nodup_singleton _) none⟩

/-- A signed attestation can be registered exactly when its case digest is written in
lower-case hexadecimal digits. -/
theorem registers_iff (hsigned : signAttestation primitives now request = .ok attestation)
    (hdecoded : IsDecoded request) : Registers primitives attestation ↔ HasDigest request := by
  obtain ⟨key, contents, hcontents⟩ := exists_isSigned hsigned
  constructor
  · exact hasDigest_of_registers hcontents hdecoded.keysInTextOrder
  · exact registers_of_hasDigest hcontents hdecoded.keysInTextOrder

end Registering

namespace Sample

/-- A digest in upper case. -/
def upperText : String := String.ofList (List.replicate 64 'A')

/-- The signature of the request with the digest in upper case. -/
def upperSignature : Octets :=
  [253, 58, 40, 98, 10, 34, 152, 249, 248, 220, 130, 31, 68, 140, 43, 196, 55, 180, 184, 84, 234,
    163, 252, 65, 90, 192, 62, 246, 103, 179, 171, 213, 236, 169, 101, 178, 32, 187, 97, 82, 166,
    198, 225, 132, 128, 242, 36, 86, 222, 134, 252, 49, 214, 63, 77, 4, 10, 196, 62, 67, 154, 151,
    21, 6]

theorem isDecoded (caseDigest : String) : IsDecoded (request caseDigest environment) := by
  have hcase : (["case_digest", "case_id", "scope_digest", "scope_url", "target_commit",
    "target_repository"] : List String).IsChain (· < ·) := by decide
  have hfinding : (["affected_component", "claim", "finding_id", "impact_path",
    "source_locations"] : List String).IsChain (· < ·) := by decide
  have hreproduction : (["artifacts", "commands", "completed_at", "environment", "exit_code",
    "network_access", "reproduction_contract_sha256", "started_at"] : List String).IsChain
      (· < ·) := by decide
  refine ⟨.object [("case_digest", .text caseDigest), ("case_id", .text "case-1"),
      ("scope_digest", .text contractText), ("scope_url", .text "u"),
      ("target_commit", .text "c1"), ("target_repository", .text "repo")],
    .object [("affected_component", .text "parser"), ("claim", .text "claim"),
      ("finding_id", .text "f-1"), ("impact_path", .text ""), ("source_locations", .array [])],
    .object [("artifacts", .array []), ("commands", .array [.array [.text "run"]]),
      ("completed_at", .text ""), ("environment", .object [("os", .text "linux")]),
      ("exit_code", .int 0), ("network_access", .bool false),
      ("reproduction_contract_sha256", .text contractText), ("started_at", .text "")],
    ⟨?_, ?_, ?_⟩, rfl, rfl, rfl⟩
  · exact Json.isCanonical_object_iff.mpr ⟨hcase, by simp⟩
  · exact Json.isCanonical_object_iff.mpr ⟨hfinding, by simp⟩
  · exact Json.isCanonical_object_iff.mpr ⟨hreproduction, by simp⟩

end Sample

open Sample

theorem lower_case_registers : ∃ attestation,
    signAttestation (primitives signature) "" (request digestText environment) =
      .ok attestation ∧ Registers (primitives signature) attestation := by
  have hsome : (signAttestation (primitives signature) ""
      (request digestText environment)).toOption.isSome = true := by decide +kernel
  obtain ⟨attestation, hsigned⟩ := Option.isSome_iff_exists.mp hsome
  have hok := eq_ok_of_toOption hsigned
  exact ⟨attestation, hok, (registers_iff hok (isDecoded digestText)).mpr
    ⟨⟨digestText, by decide +kernel⟩, rfl⟩⟩

/-- An attestation with its case digest in upper case is signed and cannot be registered. -/
theorem upper_case_not_registered : ∃ attestation,
    signAttestation (primitives upperSignature) "" (request upperText environment) =
      .ok attestation ∧ IsDecoded (request upperText environment) ∧
    ¬Registers (primitives upperSignature) attestation := by
  have hsome : (signAttestation (primitives upperSignature) ""
      (request upperText environment)).toOption.isSome = true := by decide +kernel
  obtain ⟨attestation, hsigned⟩ := Option.isSome_iff_exists.mp hsome
  have hok := eq_ok_of_toOption hsigned
  obtain ⟨key, contents, hcontents⟩ := exists_isSigned hok
  refine ⟨attestation, hok, isDecoded upperText, ?_⟩
  intro hregisters
  obtain ⟨digest, hdigest⟩ :=
    hasDigest_of_registers hcontents (isDecoded upperText).keysInTextOrder hregisters
  have htext : upperText = digest.text := PyValue.text.inj hdigest
  have hvalid : isDigestText upperText = true := htext ▸ digest.valid
  exact absurd hvalid (by decide +kernel)

end AegisForge.Shared.Attestation
