import AegisForge.Shared.AttestationRoundTrip
import AegisForge.Shared.RegistryAppends

/-!
# Signed checkpoints of the registry

The signer signs the size, the root and the digest of a registry under the key that
signs attestations.  A verifier may hold the registry against the checkpoint.
-/

namespace AegisForge.Shared.AttestationRegistry

open AegisForge.Core
open Attestation (FilledText GivenKey Primitives TrustedKey)
open Json (array? array?_eq_some_iff int? int?_eq_some_iff)

def checkpointSchemaVersion : String := "aegisforge-registry-checkpoint-v1"

def checkpointRequestSchemaVersion : String := "aegisforge-registry-checkpoint-request-v1"

def summaryFields : List String :=
  ["merkle_root", "previous_checkpoint", "registry_sha256", "size"]

def signedCheckpointFields : List String :=
  ["checkpoint_id", "issued_at", "registry", "schema_version", "signature", "signer"]

def signerFields : List String := ["key_id", "organization", "public_key"]

def signatureFields : List String := ["algorithm", "value"]

/-! ## Summaries -/

/-- What is signed about a registry. -/
structure Summary where
  size : ℕ
  merkleRoot : Digest
  registrySha256 : Digest
  previous : Option Checkpoint
  deriving DecidableEq

def Summary.toJson (summary : Summary) : Json :=
  .object [("merkle_root", .text summary.merkleRoot.text),
    ("previous_checkpoint", previousJson summary.previous),
    ("registry_sha256", .text summary.registrySha256.text), ("size", .int summary.size)]

/-- `_validate_checkpoint_registry_summary`, with the summary. -/
def validateSummary (value : Json) : Except Raised Summary := do
  require (value.hasExactly summaryFields = true) "checkpoint_registry_summary_invalid"
  let size ← demand ((int? (value.get "size")).filter (0 ≤ ·)) "checkpoint_registry_size_invalid"
  let merkleRoot ← demand (digest? (value.get "merkle_root"))
    "checkpoint_registry_digest_invalid"
  let registrySha256 ← demand (digest? (value.get "registry_sha256"))
    "checkpoint_registry_digest_invalid"
  let previous ← validatePrevious (value.get "previous_checkpoint")
  pure ⟨size.toNat, merkleRoot, registrySha256, previous⟩

/-- `checkpoint_request_for_registry`. -/
def checkpointRequestForRegistry (sha256 : Octets → Digest) (registry : Json) :
    Except Raised Json := do
  let _ ← verifyRegistry sha256 registry
  pure (.object [("registry", .object [("merkle_root", registry.get "merkle_root"),
      ("previous_checkpoint", registry.get "previous_checkpoint"),
      ("registry_sha256", .text (registrySha256 sha256 registry).text),
      ("size", registry.get "size")]),
    ("schema_version", .text checkpointRequestSchemaVersion)])

/-! ## Signing -/

/-- What a checkpoint says. -/
structure CheckpointContents where
  registry : Json
  issuedAt : FilledText
  keyId : FilledText
  publicKey : String
  organization : FilledText

namespace CheckpointContents

variable (contents : CheckpointContents)

def signer : Json :=
  .object [("key_id", .text contents.keyId.text),
    ("organization", .text contents.organization.text), ("public_key", .text contents.publicKey)]

/-- `_checkpoint_unsigned` of a checkpoint with the contents. -/
def unsigned : Json :=
  .object [("issued_at", .text contents.issuedAt.text), ("registry", contents.registry),
    ("schema_version", .text checkpointSchemaVersion), ("signer", contents.signer)]

/-- `_checkpoint_signed_payload` of a checkpoint with the contents. -/
def signed (checkpointId : Digest) : Json :=
  .object [("checkpoint_id", .text checkpointId.text),
    ("issued_at", .text contents.issuedAt.text), ("registry", contents.registry),
    ("schema_version", .text checkpointSchemaVersion), ("signer", contents.signer)]

def complete (checkpointId : Digest) (value : String) : Json :=
  .object [("checkpoint_id", .text checkpointId.text),
    ("issued_at", .text contents.issuedAt.text), ("registry", contents.registry),
    ("schema_version", .text checkpointSchemaVersion),
    ("signature", .object [("algorithm", .text "Ed25519"), ("value", .text value)]),
    ("signer", contents.signer)]

end CheckpointContents

/-- `_checkpoint_unsigned`. -/
def checkpointUnsigned (checkpoint : Json) : Json :=
  checkpoint.without ["checkpoint_id", "signature"]

/-- `_checkpoint_signed_payload`. -/
def checkpointSignedPayload (checkpoint : Json) : Json := checkpoint.without ["signature"]

/-- `canonical_json` of a decoded value. -/
def canonicalJson (value : Json) : Except Raised (List Char) :=
  orRaise (Attestation.attestationError "value_not_canonical_json_serializable")
    value.canonicalText?

/-- A text that is not blank. -/
def unblankText? (value : PyValue) : Option FilledText :=
  (value.text?.filter fun text => !isBlank text).bind FilledText.ofText?

/-- `isinstance(private_key, Ed25519PrivateKey)`, with the key. -/
def givenKey? {PrivateKey : Type} : GivenKey PrivateKey → Option PrivateKey
  | .key key => some key
  | _ => none

/-- The arguments of `sign_registry_checkpoint` besides the summary. -/
structure CheckpointSigner (PrivateKey : Type) where
  privateKey : GivenKey PrivateKey
  keyId : PyValue
  organization : PyValue
  issuedAt : PyValue

section Signing

variable {PrivateKey : Type} (primitives : Primitives PrivateKey)

/-- The time of a checkpoint: the current time where none is given. -/
def checkpointTime (now : String) (issuedAt : PyValue) : Except Raised FilledText := do
  let given := match issuedAt with
    | .none => .text now
    | issuedAt => issuedAt
  let timestamp ← demand (Attestation.filledText? given) "checkpoint_issued_at_invalid"
  require (primitives.isIsoFormat timestamp.text = true) "checkpoint_issued_at_invalid"
  pure timestamp

/-- `sign_registry_checkpoint`. -/
def signRegistryCheckpoint (now : String) (registry : Json)
    (signer : CheckpointSigner PrivateKey) : Except Raised Json := do
  let _ ← validateSummary registry
  let key ← demand (givenKey? signer.privateKey) "ed25519_private_key_required"
  let keyId ← demand (unblankText? signer.keyId) "checkpoint_key_id_required"
  let organization ← demand (unblankText? signer.organization) "checkpoint_organization_required"
  let issuedAt ← checkpointTime primitives now signer.issuedAt
  let contents : CheckpointContents :=
    ⟨registry, issuedAt, keyId, Attestation.publicKeyB64 primitives key, organization⟩
  let hashed ← canonicalJson contents.unsigned
  let checkpointId := primitives.sha256 (utf8 hashed)
  let message ← canonicalJson (contents.signed checkpointId)
  pure (contents.complete checkpointId (Base64.encode (primitives.sign key (utf8 message))))

end Signing

/-! ## Verification -/

/-- `value.__class__.__name__`. -/
def className : Json → String
  | .null => "NoneType"
  | .bool _ => "bool"
  | .int _ => "int"
  | .float _ => "float"
  | .text _ => "str"
  | .array _ => "list"
  | .object _ => "dict"

/-- `base64.b64decode`, validated, where what is no text is no encoding error. -/
def decodeBase64 (value : Json) : Except Raised Octets := do
  let text ← orRaise ⟨.typeError, "argument should be a bytes-like object or ASCII string, not '"
    ++ className value ++ "'"⟩ value.text?
  demand (Base64.decode? text) "checkpoint_key_or_signature_encoding_invalid"

/-- `_checkpoint_public_key_bytes`. -/
def checkpointPublicKeyBytes : TrustedKey → Option Octets
  | .key raw => some raw
  | .bytes raw => if raw.length = 32 then some raw else none
  | .text encoded => (Base64.decode? encoded).filter fun raw => raw.length = 32
  | .other => none

/-- The signer and the signature have their fields. -/
def signerAndSignatureValid (signer signature : Json) : Bool :=
  signer.hasExactly signerFields &&
    ((signer.get "key_id").text?.bind FilledText.ofText?).isSome &&
    ((signer.get "organization").text?.bind FilledText.ofText?).isSome &&
    signature.hasExactly signatureFields && signature.get "algorithm" = .text "Ed25519"

/-- What `verify_signed_checkpoint` answers. -/
structure CheckpointReport where
  checkpointId : Digest
  keyId : String
  summary : Summary
  deriving DecidableEq

section Verifying

variable {PrivateKey : Type} (primitives : Primitives PrivateKey)

/-- The comparison of a checkpoint with a registry. -/
def checkRegistry (summary : Json) : Option Json → Except Raised PUnit
  | none => pure ⟨⟩
  | some registry => do
      let _ ← verifyRegistry primitives.sha256 registry
      require (summary.get "size" = registry.get "size" ∧
          summary.get "merkle_root" = registry.get "merkle_root" ∧
          summary.get "registry_sha256" =
            .text (registrySha256 primitives.sha256 registry).text ∧
          summary.get "previous_checkpoint" = registry.get "previous_checkpoint")
        "checkpoint_registry_mismatch"

/-- `verify_signed_checkpoint`. -/
def verifySignedCheckpoint (checkpoint : Json) (trustedKeys : String → Option TrustedKey)
    (registry : Option Json) : Except Raised CheckpointReport := do
  require (checkpoint.hasExactly signedCheckpointFields = true) "checkpoint_fields_invalid"
  require (checkpoint.get "schema_version" = .text checkpointSchemaVersion)
    "checkpoint_schema_unsupported"
  let summary ← validateSummary (checkpoint.get "registry")
  let issuedAt ← demand ((checkpoint.get "issued_at").text?.bind FilledText.ofText?)
    "checkpoint_issued_at_invalid"
  require (primitives.isIsoFormat issuedAt.text = true) "checkpoint_issued_at_invalid"
  let hashed ← demand (checkpointUnsigned checkpoint).canonicalText?
    "checkpoint_payload_not_canonical"
  let expectedId := primitives.sha256 (utf8 hashed)
  require (checkpoint.get "checkpoint_id" = .text expectedId.text) "checkpoint_id_mismatch"
  let signer := checkpoint.get "signer"
  let signature := checkpoint.get "signature"
  require (signerAndSignatureValid signer signature = true)
    "checkpoint_signer_or_signature_invalid"
  let keyId ← demand (signer.get "key_id").text? "checkpoint_signer_or_signature_invalid"
  let trustedKey ← demand (trustedKeys keyId) "checkpoint_signer_untrusted"
  let advertised ← decodeBase64 (signer.get "public_key")
  let trusted ← demand (checkpointPublicKeyBytes trustedKey)
    "checkpoint_key_or_signature_encoding_invalid"
  let signatureBytes ← decodeBase64 (signature.get "value")
  require (advertised.length = 32 ∧ advertised = trusted) "checkpoint_public_key_mismatch"
  require (signatureBytes.length = 64) "checkpoint_signature_length_invalid"
  let message ← demand (checkpointSignedPayload checkpoint).canonicalText?
    "checkpoint_signature_invalid"
  require (primitives.signatureValid trusted signatureBytes (utf8 message) = true)
    "checkpoint_signature_invalid"
  checkRegistry primitives (checkpoint.get "registry") registry
  pure ⟨expectedId, keyId, summary⟩

end Verifying

end AegisForge.Shared.AttestationRegistry
