import AegisForge.Core.Merkle
import AegisForge.Shared.Attestation

/-!
# The registry of attestations

A registry is an untrusted dictionary with public metadata of attestations and a
Merkle root over them.  Entries may leave their index out; what is hashed for the
root are the normalized entries.
-/

namespace AegisForge.Shared.AttestationRegistry

open AegisForge.Core
open Attestation (FilledText Verdict)
open Json (array? int?)

def schemaVersion : String := "aegisforge-attestation-registry-v1"

def proofSchemaVersion : String := "aegisforge-attestation-inclusion-proof-v1"

def hashAlgorithm : String := "SHA-256"

def treeAlgorithm : String := "domain-separated-sha256-duplicate-last-v1"

def registryFields : List String :=
  ["entries", "hash_algorithm", "merkle_root", "previous_checkpoint", "schema_version", "size",
    "tree_algorithm"]

def entryFields : List String :=
  ["attestation_id", "attestation_sha256", "case_digest", "index", "issued_at", "key_id",
    "verdict"]

def entryMetadataFields : List String := entryFields.filter (· ≠ "index")

def checkpointFields : List String := ["merkle_root", "registry_sha256", "size"]

def proofFields : List String :=
  ["entry", "leaf_index", "merkle_root", "schema_version", "siblings", "tree_size"]

def registryError (message : String) : Raised := ⟨.attestationRegistryError, message⟩

/-- `if not condition: raise AttestationRegistryError(message)`. -/
def require (condition : Prop) [Decidable condition] (message : String) :
    Except Raised PUnit :=
  raiseUnless condition (registryError message)

/-- The value that a check found, or `AttestationRegistryError(message)`. -/
def demand {A : Type} (found : Option A) (message : String) : Except Raised A :=
  orRaise (registryError message) found

/-! ## Values -/

/-- `_valid_hash`, with the hash. -/
def digest? (value : Json) : Option Digest := value.text?.bind Digest.ofText?

def verdict? (value : Json) : Option Verdict := value.text?.bind Verdict.ofText?

def filledText? (value : Json) : Option FilledText := value.text?.bind FilledText.ofText?

theorem digest?_eq_some_iff {value : Json} {digest : Digest} :
    digest? value = some digest ↔ value = .text digest.text := by
  rw [digest?, Option.bind_eq_some_iff]
  constructor
  · rintro ⟨text, htext, hdigest⟩
    rw [Json.text?_eq_some_iff.mp htext, Digest.ofText?_eq_some_iff.mp hdigest]
  · rintro rfl
    exact ⟨digest.text, rfl, Digest.ofText?_text digest⟩

theorem verdict?_eq_some_iff {value : Json} {verdict : Verdict} :
    verdict? value = some verdict ↔ value = .text verdict.text := by
  rw [verdict?, Option.bind_eq_some_iff]
  constructor
  · rintro ⟨text, htext, hverdict⟩
    rw [Json.text?_eq_some_iff.mp htext, Verdict.text_of_ofText? hverdict]
  · rintro rfl
    exact ⟨verdict.text, rfl, Verdict.ofText?_text verdict⟩

theorem filledText?_eq_some_iff {value : Json} {filled : FilledText} :
    filledText? value = some filled ↔ value = .text filled.text := by
  rw [filledText?, Option.bind_eq_some_iff]
  constructor
  · rintro ⟨text, htext, hfilled⟩
    rw [Json.text?_eq_some_iff.mp htext, FilledText.text_of_ofText? hfilled]
  · rintro rfl
    exact ⟨filled.text, rfl, FilledText.ofText?_text filled⟩

/-! ## Entries -/

/-- A normalized entry. -/
@[ext]
structure Entry where
  index : ℕ
  attestationId : Digest
  attestationSha256 : Digest
  caseDigest : Digest
  verdict : Verdict
  issuedAt : FilledText
  keyId : FilledText
  deriving DecidableEq

namespace Entry

/-- The fields that do not depend on the place in the registry. -/
def metadata (entry : Entry) : Json :=
  .object [("attestation_id", .text entry.attestationId.text),
    ("attestation_sha256", .text entry.attestationSha256.text),
    ("case_digest", .text entry.caseDigest.text), ("issued_at", .text entry.issuedAt.text),
    ("key_id", .text entry.keyId.text), ("verdict", .text entry.verdict.text)]

def toJson (entry : Entry) : Json :=
  .object [("attestation_id", .text entry.attestationId.text),
    ("attestation_sha256", .text entry.attestationSha256.text),
    ("case_digest", .text entry.caseDigest.text), ("index", .int entry.index),
    ("issued_at", .text entry.issuedAt.text), ("key_id", .text entry.keyId.text),
    ("verdict", .text entry.verdict.text)]

end Entry

/-- An index that is given is the place of the entry. -/
def indexAgrees (entry : Json) (index : ℕ) : Bool :=
  match entry.get? "index" with
  | none => true
  | some supplied => supplied = .int index

/-- `_normalize_entry`. -/
def normalizeEntry (entry : Json) (index : ℕ) : Except Raised Entry := do
  require (entry.isObject = true) "registry_entry_must_be_object"
  require (entry.hasExactly entryFields = true ∨ entry.hasExactly entryMetadataFields = true)
    "registry_entry_fields_invalid"
  require (indexAgrees entry index = true) "registry_entry_index_invalid"
  let attestationId ← demand (digest? (entry.get "attestation_id"))
    "registry_attestation_id_invalid"
  let attestationSha256 ← demand (digest? (entry.get "attestation_sha256"))
    "registry_attestation_digest_invalid"
  let caseDigest ← demand (digest? (entry.get "case_digest")) "registry_case_digest_invalid"
  let verdict ← demand (verdict? (entry.get "verdict")) "registry_verdict_not_allowed"
  let issuedAt ← demand (filledText? (entry.get "issued_at")) "registry_issued_at_invalid"
  let keyId ← demand (filledText? (entry.get "key_id")) "registry_key_id_invalid"
  pure ⟨index, attestationId, attestationSha256, caseDigest, verdict, issuedAt, keyId⟩

/-- `[_normalize_entry(entry, index) for index, entry in enumerate(entries)]`, from
an index on. -/
def normalizeEntries : ℕ → List Json → Except Raised (List Entry)
  | _, [] => pure []
  | index, entry :: rest => do
      let normalized ← normalizeEntry entry index
      let others ← normalizeEntries (index + 1) rest
      pure (normalized :: others)

/-! ## Hashes -/

section Hashes

variable (sha256 : Octets → Digest)

def leafBytes (entry : Json) : Octets := 0 :: entry.canonicalBytes

/-- `_leaf_hash`. -/
def leafHash (entry : Json) : Digest := sha256 (leafBytes entry)

def parentBytes (left right : Digest) : Octets := 1 :: (left.bytes ++ right.bytes)

/-- `_parent_hash`. -/
def parentHash (left right : Digest) : Digest := sha256 (parentBytes left right)

def emptyRootBytes : Octets := utf8 "AegisForge attestation registry empty root v1".toList

def emptyRoot : Digest := sha256 emptyRootBytes

/-- `_root_from_entries`. -/
def rootFromEntries (entries : List Json) : Digest :=
  (Merkle.root (parentHash sha256) (entries.map (leafHash sha256))).getD (emptyRoot sha256)

/-- `registry_sha256`. -/
def registrySha256 (registry : Json) : Digest := sha256 registry.canonicalBytes

end Hashes

/-! ## Registries -/

/-- The checkpoint of a registry that another one continues. -/
structure Checkpoint where
  size : ℕ
  merkleRoot : Digest
  registrySha256 : Digest
  deriving DecidableEq

def Checkpoint.toJson (checkpoint : Checkpoint) : Json :=
  .object [("merkle_root", .text checkpoint.merkleRoot.text),
    ("registry_sha256", .text checkpoint.registrySha256.text),
    ("size", .int checkpoint.size)]

/-- `_validate_checkpoint`, with the checkpoint. -/
def validateCheckpoint (checkpoint : Json) : Except Raised Checkpoint := do
  require (checkpoint.hasExactly checkpointFields = true) "previous_checkpoint_invalid"
  let size ← demand ((int? (checkpoint.get "size")).filter (0 ≤ ·)) "previous_checkpoint_invalid"
  let merkleRoot ← demand (digest? (checkpoint.get "merkle_root")) "previous_checkpoint_invalid"
  let registrySha256 ← demand (digest? (checkpoint.get "registry_sha256"))
    "previous_checkpoint_invalid"
  pure ⟨size.toNat, merkleRoot, registrySha256⟩

/-- A previous checkpoint may be missing. -/
def validatePrevious (previous : Json) : Except Raised (Option Checkpoint) :=
  if previous.isNull = true then pure none
  else do
    let checkpoint ← validateCheckpoint previous
    pure (some checkpoint)

section Registries

variable (sha256 : Octets → Digest)

/-- The dictionary that `entry_from_attestation` normalizes. -/
def publicMetadata (attestation : Json) (attestationSha256 : Digest) : Json :=
  .object [("attestation_id", attestation.get "attestation_id"),
    ("attestation_sha256", .text attestationSha256.text),
    ("case_digest", (attestation.get "case_ref").get "case_digest"),
    ("issued_at", attestation.get "issued_at"),
    ("key_id", (attestation.get "signer").get "key_id"), ("verdict", attestation.get "verdict")]

/-- `entry_from_attestation`. -/
def entryFromAttestation (attestation : Json) : Except Raised Json := do
  require (attestation.isObject = true) "attestation_payload_must_be_object"
  require ((attestation.get "case_ref").isObject = true ∧
    (attestation.get "signer").isObject = true) "attestation_case_or_signer_missing"
  let text ← orRaise (Attestation.attestationError "value_not_canonical_json_serializable")
    attestation.canonicalText?
  let normalized ← normalizeEntry (publicMetadata attestation (sha256 (utf8 text))) 0
  pure normalized.metadata

/-- `build_registry`. -/
def buildRegistry (entries previousCheckpoint : Json) : Except Raised Json := do
  let items ← demand (array? entries) "registry_entries_must_be_list"
  let normalized ← normalizeEntries 0 items
  require (normalized.map Entry.attestationId).Nodup "duplicate_attestation_id"
  let _ ← validatePrevious previousCheckpoint
  pure (.object [("entries", .array (normalized.map Entry.toJson)),
    ("hash_algorithm", .text hashAlgorithm),
    ("merkle_root", .text (rootFromEntries sha256 (normalized.map Entry.toJson)).text),
    ("previous_checkpoint", previousCheckpoint), ("schema_version", .text schemaVersion),
    ("size", .int normalized.length), ("tree_algorithm", .text treeAlgorithm)])

/-- What `verify_registry` answers. -/
structure RegistryReport where
  size : ℕ
  merkleRoot : Digest
  registrySha256 : Digest
  deriving DecidableEq

/-- `verify_registry`. -/
def verifyRegistry (registry : Json) : Except Raised RegistryReport := do
  require (registry.isObject = true) "registry_must_be_object"
  require (registry.hasExactly registryFields = true) "registry_fields_invalid"
  require (registry.get "schema_version" = .text schemaVersion) "unsupported_registry_schema"
  require (registry.get "hash_algorithm" = .text hashAlgorithm)
    "unsupported_registry_hash_algorithm"
  require (registry.get "tree_algorithm" = .text treeAlgorithm)
    "unsupported_registry_tree_algorithm"
  let entries ← demand (array? (registry.get "entries")) "registry_entries_or_size_invalid"
  let size ← demand (int? (registry.get "size")) "registry_entries_or_size_invalid"
  require (size = entries.length) "registry_size_mismatch"
  let normalized ← normalizeEntries 0 entries
  require (normalized.map Entry.attestationId).Nodup "duplicate_attestation_id"
  let expectedRoot := rootFromEntries sha256 (normalized.map Entry.toJson)
  require (registry.get "merkle_root" = .text expectedRoot.text)
    "registry_merkle_root_mismatch"
  let _ ← validatePrevious (registry.get "previous_checkpoint")
  pure ⟨entries.length, expectedRoot, registrySha256 sha256 registry⟩

/-- `checkpoint_for`. -/
def checkpointFor (registry : Json) : Except Raised Json := do
  let _ ← verifyRegistry sha256 registry
  pure (.object [("merkle_root", registry.get "merkle_root"),
    ("registry_sha256", .text (registrySha256 sha256 registry).text),
    ("size", registry.get "size")])

/-- What `verify_registry_chain` answers. -/
structure ChainReport where
  previousSize : ℕ
  currentSize : ℕ
  previousRoot : Digest
  currentRoot : Digest
  deriving DecidableEq

/-- The items of a value that was checked to be a list. -/
def itemsOf (value : Json) : List Json := (array? value).getD []

/-- `verify_registry_chain`. -/
def verifyRegistryChain (registry previousRegistry : Json) : Except Raised ChainReport := do
  let current ← verifyRegistry sha256 registry
  let previous ← verifyRegistry sha256 previousRegistry
  let expected ← checkpointFor sha256 previousRegistry
  require (registry.get "previous_checkpoint" = expected) "previous_checkpoint_mismatch"
  require (previous.size < current.size) "registry_did_not_append"
  require ((itemsOf (registry.get "entries")).take previous.size =
    itemsOf (previousRegistry.get "entries")) "registry_prefix_changed"
  pure ⟨previous.size, current.size, previous.merkleRoot, current.merkleRoot⟩

end Registries

/-! ## Inclusion proofs -/

section Proofs

variable (sha256 : Octets → Digest)

/-- The places of the entries with an attestation id. -/
def matchesOf (entries : List Json) (attestationId : String) : List (ℕ × Json) :=
  (entries.zipIdx.map Prod.swap).filter fun place =>
    place.2.get "attestation_id" = .text attestationId

/-- `build_inclusion_proof`.  It hashes the entries as they are. -/
def buildInclusionProof (registry : Json) (attestationId : String) : Except Raised Json := do
  let _ ← verifyRegistry sha256 registry
  let entries := itemsOf (registry.get "entries")
  match matchesOf entries attestationId with
  | [(leafIndex, entry)] =>
      let siblings :=
        Merkle.path (parentHash sha256) (entries.map (leafHash sha256)) leafIndex
      pure (.object [("entry", entry), ("leaf_index", .int leafIndex),
        ("merkle_root", registry.get "merkle_root"),
        ("schema_version", .text proofSchemaVersion),
        ("siblings", .array (siblings.map fun sibling => .text sibling.text)),
        ("tree_size", registry.get "size")])
  | _ => .error (registryError "attestation_id_not_found")

/-- What `verify_inclusion_proof` answers. -/
structure InclusionReport where
  attestationId : Digest
  leafIndex : ℕ
  treeSize : ℕ
  merkleRoot : Digest
  deriving DecidableEq

def refusalMessage : Merkle.Refusal → String
  | .siblingMissing => "proof_sibling_missing"
  | .duplicateMismatch => "proof_duplicate_last_mismatch"
  | .extraSiblings => "proof_has_extra_siblings"

/-- A list of hashes. -/
def digests? (value : Json) : Option (List Digest) :=
  (array? value).bind fun items => items.mapM digest?

/-- `verify_inclusion_proof`. -/
def verifyInclusionProof (proof : Json) (expectedRoot : String) (expectedSize : Option ℤ) :
    Except Raised InclusionReport := do
  require (proof.isObject = true ∧ proof.get "schema_version" = .text proofSchemaVersion)
    "unsupported_inclusion_proof_schema"
  require (proof.hasExactly proofFields = true) "inclusion_proof_fields_invalid"
  let root ← demand (Digest.ofText? expectedRoot) "expected_root_invalid"
  require (proof.get "merkle_root" = .text expectedRoot) "expected_root_mismatch"
  let treeSize ← demand ((int? (proof.get "tree_size")).filter (1 ≤ ·)) "proof_tree_size_invalid"
  require (expectedSize.all (· = treeSize) = true) "expected_tree_size_mismatch"
  let leafIndex ← demand
    ((int? (proof.get "leaf_index")).filter fun index => 0 ≤ index ∧ index < treeSize)
    "proof_leaf_index_invalid"
  let entry ← normalizeEntry (proof.get "entry") leafIndex.toNat
  let siblings ← demand (digests? (proof.get "siblings")) "proof_siblings_invalid"
  match Merkle.climb (parentHash sha256) treeSize.toNat leafIndex.toNat
      (leafHash sha256 entry.toJson) siblings with
  | .error refusal => .error (registryError (refusalMessage refusal))
  | .ok current =>
      require (current = root) "inclusion_proof_invalid"
      pure ⟨entry.attestationId, leafIndex.toNat, treeSize.toNat, current⟩

end Proofs

end AegisForge.Shared.AttestationRegistry
