import AegisForge.Core.Base64
import AegisForge.Core.Checks
import AegisForge.Core.IntegerText
import AegisForge.Core.PyValue
import AegisForge.Shared.Exceptions

/-!
# Attestations

An attestation records a reproduction result under an Ed25519 signature.  It is
built over objects of the language; a verifier sees it after a trip through JSON.
-/

namespace AegisForge.Shared

open AegisForge.Core

/-- The wrapper around a payload. -/
structure Attestation where
  payload : PyValue

namespace Attestation

def schemaVersion : String := "aegisforge-attestation-v1"

def signatureAlgorithm : String := "Ed25519"

def maxRationaleBytes : ℕ := 8192

def caseFields : List String :=
  ["case_id", "case_digest", "target_repository", "target_commit", "scope_url", "scope_digest"]

def findingFields : List String :=
  ["finding_id", "claim", "affected_component", "source_locations", "impact_path"]

def reproductionFields : List String :=
  ["reproduction_contract_sha256", "commands", "environment", "network_access", "artifacts",
    "started_at", "completed_at", "exit_code"]

def attestationError (message : String) : Raised := ⟨.attestationError, message⟩

/-- `if not condition: raise AttestationError(message)`. -/
def require (condition : Prop) [Decidable condition] (message : String) :
    Except Raised PUnit :=
  raiseUnless condition (attestationError message)

/-- The value that a check found, or `AttestationError(message)`. -/
def demand {A : Type} (found : Option A) (message : String) : Except Raised A :=
  orRaise (attestationError message) found

/-! ## Values -/

/-- `ALLOWED_VERDICTS`. -/
inductive Verdict
  | reproduced
  | notReproduced
  | inconclusive
  | outOfScope
  deriving DecidableEq, Repr

namespace Verdict

def text : Verdict → String
  | reproduced => "REPRODUCED"
  | notReproduced => "NOT_REPRODUCED"
  | inconclusive => "INCONCLUSIVE"
  | outOfScope => "OUT_OF_SCOPE"

def all : List Verdict := [reproduced, notReproduced, inconclusive, outOfScope]

def ofText? (text : String) : Option Verdict := all.find? fun verdict => verdict.text = text

@[simp]
theorem ofText?_text (verdict : Verdict) : ofText? verdict.text = some verdict := by
  cases verdict <;> decide

theorem text_injective : Function.Injective text := by
  intro left right htext
  have hread := ofText?_text left
  rw [htext, ofText?_text] at hread
  exact (Option.some.inj hread).symm

theorem text_of_ofText? {text : String} {verdict : Verdict}
    (hverdict : ofText? text = some verdict) : verdict.text = text := by
  have hfound := List.find?_some hverdict
  simpa using hfound

end Verdict

/-- A text that is not empty. -/
structure FilledText where
  text : String
  filled : text ≠ ""
  deriving DecidableEq

namespace FilledText

theorem text_injective : Function.Injective text := by
  rintro ⟨left, _⟩ ⟨right, _⟩ rfl
  rfl

def ofText? (text : String) : Option FilledText :=
  if hfilled : text ≠ "" then some ⟨text, hfilled⟩ else none

@[simp]
theorem ofText?_text (filled : FilledText) : ofText? filled.text = some filled := by
  rw [ofText?, dif_pos filled.filled]

theorem text_of_ofText? {text : String} {filled : FilledText}
    (hfilled : ofText? text = some filled) : filled.text = text := by
  rw [ofText?] at hfilled
  split at hfilled
  · exact (congrArg FilledText.text (Option.some.inj hfilled)).symm
  · cases hfilled

end FilledText

/-- `_is_sha256` on a text. -/
def isSha256Text (text : String) : Bool := text.toList.length = 64 && isBase16 text

/-- `_is_sha256`. -/
def isSha256 (value : PyValue) : Bool := value.text?.any isSha256Text

/-- `isinstance(value, str) and value`, with the text. -/
def filledText? (value : PyValue) : Option FilledText := value.text?.bind FilledText.ofText?

/-- Lists of texts in a list. -/
def areCommands (value : PyValue) : Bool :=
  value.list?.any fun commands => commands.all fun command =>
    command.list?.any fun arguments => arguments.all fun argument => argument.text?.isSome

def isBool : PyValue → Bool
  | .bool _ => true
  | _ => false

/-- `isinstance(value, int) and not isinstance(value, bool)`. -/
def isInt : PyValue → Bool
  | .int _ => true
  | _ => false

/-! ## Primitives -/

/-- The primitives that come from outside. -/
structure Primitives (PrivateKey : Type) where
  sha256 : Octets → Digest
  /-- `datetime.fromisoformat` of a text, with `Z` for UTC, does not raise. -/
  isIsoFormat : String → Bool
  /-- `Ed25519PrivateKey.from_private_bytes`. -/
  fromPrivateBytes : Octets → Option PrivateKey
  /-- The raw bytes of the public key. -/
  publicKey : PrivateKey → Octets
  sign : PrivateKey → Octets → Octets
  /-- Whether an Ed25519 signature by a raw public key covers the bytes. -/
  signatureValid : Octets → Octets → Octets → Bool

/-- What Ed25519 promises about its own keys and signatures. -/
structure Primitives.Correct {PrivateKey : Type} (primitives : Primitives PrivateKey) :
    Prop where
  length_publicKey : ∀ key, (primitives.publicKey key).length = 32
  length_sign : ∀ key message, (primitives.sign key message).length = 64
  signatureValid_sign : ∀ key message,
    primitives.signatureValid (primitives.publicKey key) (primitives.sign key message) message =
      true

/-- The argument for a private key. -/
inductive GivenKey (PrivateKey : Type)
  | key (key : PrivateKey)
  | bytes (raw : Octets)
  | other

/-- The argument for a trusted key. -/
inductive TrustedKey
  | key (raw : Octets)
  | bytes (raw : Octets)
  | text (encoded : String)
  | other

/-- `canonical_json`. -/
def canonicalJson (value : PyValue) : Except Raised (List Char) :=
  demand (value.tree.map (Json.encode true)) "value_not_canonical_json_serializable"

/-- The raw bytes of a key that is decoded. -/
def checkedKey (raw : Octets) (message : String) : Except Raised Octets := do
  require (raw.length = 32) message
  pure raw

/-- `_decode_public_key`. -/
def decodePublicKey (value : Json) : Except Raised Octets := do
  let text ← demand value.text? "invalid_public_key_encoding"
  let raw ← demand (Base64.decode? text) "invalid_public_key_encoding"
  checkedKey raw "invalid_public_key_length"

/-- `_trusted_key_bytes`. -/
def trustedKeyBytes : TrustedKey → Except Raised Octets
  | .key raw => pure raw
  | .bytes raw => checkedKey raw "invalid_trusted_key_length"
  | .text encoded => do
      let raw ← demand (Base64.decode? encoded) "invalid_trusted_key_encoding"
      checkedKey raw "invalid_trusted_key_length"
  | .other => .error (attestationError "invalid_trusted_key_type")

section Signing

variable {PrivateKey : Type} (primitives : Primitives PrivateKey)

/-- `_private_key`. -/
def privateKey : GivenKey PrivateKey → Except Raised PrivateKey
  | .key key => pure key
  | .bytes raw => do
      require (raw.length = 32) "private_key_must_be_ed25519_key_or_32_bytes"
      demand (primitives.fromPrivateBytes raw) "invalid_private_key"
  | .other => .error (attestationError "private_key_must_be_ed25519_key_or_32_bytes")

/-- `sha256_hex` of a text. -/
def sha256Hex (text : List Char) : Digest := primitives.sha256 (utf8 text)

/-! ## Signing -/

/-- The arguments of `sign_attestation`. -/
structure Request (PrivateKey : Type) where
  caseRef : PyValue
  findingRef : PyValue
  reproduction : PyValue
  verdict : PyValue
  verdictRationale : PyValue
  privateKey : GivenKey PrivateKey
  keyId : PyValue
  organization : PyValue
  issuedAt : PyValue

/-- The texts of a request that was checked. -/
structure Statement where
  verdict : Verdict
  rationale : String
  keyId : FilledText
  organization : FilledText

/-- `_validate_construction`, with the texts. -/
def validateConstruction (request : Request PrivateKey) : Except Raised Statement := do
  let case := request.caseRef
  let finding := request.findingRef
  let repro := request.reproduction
  require (case.hasKeys caseFields = true) "invalid_case_ref"
  require (finding.hasKeys findingFields = true) "invalid_finding_ref"
  require (repro.hasKeys reproductionFields = true) "invalid_reproduction"
  require (isSha256 (case.item "case_digest") = true ∧ isSha256 (case.item "scope_digest") = true)
    "invalid_case_digest"
  require (isSha256 (repro.item "reproduction_contract_sha256") = true)
    "invalid_reproduction_contract_digest"
  require ((finding.item "source_locations").list?.isSome = true) "invalid_source_locations"
  require (areCommands (repro.item "commands") = true) "invalid_reproduction_commands"
  require ((repro.item "environment").isDict = true) "invalid_reproduction_environment"
  require ((repro.item "artifacts").list?.isSome = true) "invalid_reproduction_artifacts"
  require (isBool (repro.item "network_access") = true) "invalid_network_access"
  require (isInt (repro.item "exit_code") = true) "invalid_exit_code"
  let verdict ← demand (request.verdict.text?.bind Verdict.ofText?) "verdict_not_allowed"
  let rationale ← demand request.verdictRationale.text? "invalid_verdict_rationale"
  require ((utf8 rationale.toList).length ≤ maxRationaleBytes) "verdict_rationale_too_long"
  let keyId ← demand (filledText? request.keyId) "invalid_key_id"
  let organization ← demand (filledText? request.organization) "invalid_organization"
  pure ⟨verdict, rationale, keyId, organization⟩

/-- The time of an attestation: the current time where none is given. -/
def timestamp (now : String) (issuedAt : PyValue) : Except Raised FilledText := do
  let given := match issuedAt with
    | .none => .text now
    | issuedAt => issuedAt
  let timestamp ← demand (filledText? given) "invalid_issued_at"
  require (primitives.isIsoFormat timestamp.text = true) "invalid_issued_at"
  pure timestamp

/-- `_public_key_b64`. -/
def publicKeyB64 (key : PrivateKey) : String := Base64.encode (primitives.publicKey key)

/-- `_unsigned_payload`. -/
def unsignedPayload (payload : PyValue) : PyValue :=
  payload.without ["attestation_id", "signature"]

/-- `_signed_payload`. -/
def signedPayload (payload : PyValue) : PyValue := payload.without ["signature"]

/-- The payload as it is built first. -/
def payloadFields (request : Request PrivateKey) (statement : Statement) (issuedAt : FilledText)
    (key : PrivateKey) : List (String × PyValue) :=
  [("schema_version", .text schemaVersion), ("case_ref", request.caseRef),
    ("finding_ref", request.findingRef), ("reproduction", request.reproduction),
    ("verdict", .text statement.verdict.text),
    ("verdict_rationale", .text statement.rationale), ("issued_at", .text issuedAt.text),
    ("signer", .record [("key_id", .text statement.keyId.text),
      ("public_key", .text (publicKeyB64 primitives key)),
      ("organization", .text statement.organization.text)])]

/-- `Attestation.to_dict`. -/
def toDict (attestation : Attestation) : Except Raised Json := do
  let text ← canonicalJson attestation.payload
  orRaise ⟨.externalError, "invalid JSON"⟩ (Json.loads text)

/-- `sign_attestation`. -/
def signAttestation (now : String) (request : Request PrivateKey) :
    Except Raised Attestation := do
  let statement ← validateConstruction request
  let key ← privateKey primitives request.privateKey
  let issuedAt ← timestamp primitives now request.issuedAt
  let fields := payloadFields primitives request statement issuedAt key
  let hashed ← canonicalJson (unsignedPayload (.record fields))
  let named := fields ++ [("attestation_id", .text (sha256Hex primitives hashed).text)]
  let message ← canonicalJson (signedPayload (.record named))
  let signature := primitives.sign key (utf8 message)
  pure ⟨.record (named ++ [("signature", .record [("algorithm", .text signatureAlgorithm),
    ("value", .text (Base64.encode signature))])])⟩

end Signing

/-! ## Verification -/

inductive Status
  | valid
  | invalid
  | tampered
  | untrusted
  | incomplete
  deriving DecidableEq, Repr

inductive ArtifactVerification
  | notChecked
  | notRequired
  | verified
  | failed
  deriving DecidableEq, Repr

/-- What was checked so far.  A claim about artifacts that was not checked is
neither true nor false. -/
structure Checks where
  schemaVersion : Bool := false
  attestationId : Bool := false
  signatureAlgorithm : Bool := false
  trustedKey : Bool := false
  publicKeyMatches : Bool := false
  signatureValid : Bool := false
  verdictAllowed : Bool := false
  artifactsPathSafe : Option Bool := none
  artifactsValid : Option Bool := none
  artifactVerification : ArtifactVerification := .notChecked
  caseDigestMatches : Bool := true
  deriving DecidableEq, Repr

structure VerificationResult where
  status : Status
  reason : String
  attestationId : Option String
  checks : Checks
  deriving DecidableEq, Repr

/-- `_result`. -/
def result (status : Status) (reason : String) (attestationId : Json) (checks : Checks) :
    VerificationResult :=
  ⟨status, reason, attestationId.text?, checks⟩

/-! ### Artifacts -/

/-- The directory that artifacts are looked up in. -/
structure ArtifactRoot where
  isDirectory : Bool
  /-- The path in the directory that a relative path resolves to. -/
  resolve : String → Option String
  isFile : String → Bool
  /-- The content, or nothing where the operating system refuses. -/
  read : String → Option Octets

/-- What `_verify_artifacts` answers. -/
structure ArtifactReport where
  status : Status
  reason : String
  pathsOk : Bool
  artifactsOk : Bool
  deriving DecidableEq, Repr

def artifactFields : List String := ["path", "sha256", "size_bytes"]

/-- `_artifact_path`. -/
def artifactPath (root : ArtifactRoot) (relative : Json) : Except Raised String := do
  let relative ← demand (relative.text?.bind FilledText.ofText?) "invalid_artifact_path"
  demand (root.resolve relative.text) "artifact_path_outside_root"

section Artifacts

variable (sha256 : Octets → Digest) (root : ArtifactRoot)

/-- The loop of `_verify_artifacts`, with what the contents checked so far say. -/
def checkArtifacts : List Json → Bool → Except Raised ArtifactReport
  | [], contentOk =>
      pure (if contentOk = true then ⟨.valid, "ok", true, true⟩
        else ⟨.tampered, "artifact_mismatch", true, false⟩)
  | artifact :: rest, contentOk =>
      if artifact.isObject = true ∧ ∀ field ∈ artifactFields, field ∈ artifact.keys then do
        let path ← artifactPath root (artifact.get "path")
        if root.isFile path = true then
          match root.read path with
          | none => pure ⟨.invalid, "artifact_unreadable", true, false⟩
          | some content =>
              match (artifact.get "size_bytes").int?.filter (0 ≤ ·) with
              | none => pure ⟨.invalid, "invalid_artifact_size", true, false⟩
              | some size =>
                  match (artifact.get "sha256").text?.filter isSha256Text with
                  | none => pure ⟨.invalid, "invalid_artifact_digest", true, false⟩
                  | some digest =>
                      checkArtifacts rest
                        (contentOk && (sha256 content).text = digest && size = content.length)
        else pure ⟨.invalid, "artifact_missing", true, false⟩
      else pure ⟨.invalid, "invalid_artifact_entry", true, false⟩

/-- `_verify_artifacts`. -/
def verifyArtifacts (payload : Json) : Except Raised ArtifactReport :=
  if root.isDirectory = false then pure ⟨.invalid, "artifact_root_missing", false, false⟩
  else if (payload.get "reproduction").isObject = false then
    pure ⟨.invalid, "invalid_reproduction", false, false⟩
  else
    match ((payload.get "reproduction").get "artifacts").array? with
    | none => pure ⟨.invalid, "invalid_reproduction_artifacts", false, false⟩
    | some artifacts => checkArtifacts sha256 root artifacts true

end Artifacts

/-! ### The verifier -/

/-- `except AttestationError`. -/
def caught {A : Type} (result : VerificationResult) :
    Except Raised A → Except VerificationResult A
  | .error _ => .error result
  | .ok value => .ok value

/-- `_unsigned_payload` of a payload that was decoded. -/
def unsignedJson (payload : Json) : Json := payload.without ["attestation_id", "signature"]

/-- `_signed_payload` of a payload that was decoded. -/
def signedJson (payload : Json) : Json := payload.without ["signature"]

section Verifying

variable {PrivateKey : Type} (primitives : Primitives PrivateKey)

/-- The signature of the payload decodes and covers it. -/
def signatureCovers (trusted : Octets) (signature payload : Json) : Bool :=
  (((signature.get? "value").getD (.text "")).text?.bind Base64.decode?).any fun raw =>
    (signedJson payload).canonicalText?.any fun message =>
      primitives.signatureValid trusted raw (utf8 message)

/-- The artifacts of a payload whose signature was checked. -/
def artifactResult (payload attestationId : Json) (checks : Checks) (artifacts : List Json) :
    Option ArtifactRoot → VerificationResult
  | none =>
      if artifacts = [] then
        result .valid "ok" attestationId
          { checks with
            artifactsPathSafe := some true
            artifactsValid := some true
            artifactVerification := .notRequired }
      else result .incomplete "artifact_root_required" attestationId checks
  | some root =>
      match verifyArtifacts primitives.sha256 root payload with
      | .error raised =>
          result .invalid raised.message attestationId
            { checks with
              artifactsPathSafe := some false
              artifactsValid := some false
              artifactVerification := .failed }
      | .ok report =>
          result report.status report.reason attestationId
            { checks with
              artifactsPathSafe := some report.pathsOk
              artifactsValid := some report.artifactsOk
              artifactVerification := if report.status = .valid then .verified else .failed }

/-- `verify_attestation` of a decoded payload: what it returns early is an error. -/
def verifyPayload (payload : Json) (trustedKeys : String → Option TrustedKey)
    (expectedCaseDigest : Option String) (artifactRoot : Option ArtifactRoot) :
    Except VerificationResult VerificationResult := do
  let checks : Checks := { }
  raiseUnless (payload.isObject = true) (result .invalid "invalid_payload" .null checks)
  let attestationId := payload.get "attestation_id"
  raiseUnless (payload.get "schema_version" = .text schemaVersion)
    (result .invalid "unsupported_schema_version" attestationId checks)
  let checks := { checks with schemaVersion := true }
  raiseUnless (((payload.get "verdict").text?.bind Verdict.ofText?).isSome = true)
    (result .invalid "verdict_not_allowed" attestationId checks)
  let checks := { checks with verdictAllowed := true }
  let hashed ← orRaise (result .invalid "invalid_unsigned_payload" attestationId checks)
    (unsignedJson payload).canonicalText?
  raiseUnless (attestationId = .text (sha256Hex primitives hashed).text)
    (result .tampered "attestation_id_mismatch" attestationId checks)
  let checks := { checks with attestationId := true }
  let signer := payload.get "signer"
  let signature := payload.get "signature"
  raiseUnless (signer.isObject = true ∧ signature.isObject = true)
    (result .invalid "signer_or_signature_missing" attestationId checks)
  raiseUnless (signature.get "algorithm" = .text signatureAlgorithm)
    (result .invalid "signature_algorithm_not_allowed" attestationId checks)
  let checks := { checks with signatureAlgorithm := true }
  let trustedKey ← orRaise (result .untrusted "untrusted_key" attestationId checks)
    ((signer.get "key_id").text?.bind trustedKeys)
  let checks := { checks with trustedKey := true }
  let advertised ← caught (result .invalid "invalid_public_key" attestationId checks)
    (decodePublicKey (signer.get "public_key"))
  let trusted ← caught (result .invalid "invalid_public_key" attestationId checks)
    (trustedKeyBytes trustedKey)
  raiseUnless (advertised = trusted)
    (result .untrusted "public_key_mismatch" attestationId checks)
  let checks := { checks with publicKeyMatches := true }
  raiseUnless (signatureCovers primitives trusted signature payload = true)
    (result .tampered "signature_invalid" attestationId checks)
  let checks := { checks with signatureValid := true }
  let case := payload.get "case_ref"
  raiseUnless (case.isObject = true) (result .invalid "invalid_case_ref" attestationId checks)
  raiseUnless (∀ expected ∈ expectedCaseDigest,
      isSha256Text expected = true ∧ case.get "case_digest" = .text expected)
    (result .invalid "case_digest_mismatch" attestationId
      { checks with caseDigestMatches := false })
  let artifacts ← orRaise (result .invalid "invalid_reproduction_artifacts" attestationId checks)
    ((payload.get "reproduction").get "artifacts").array?
  pure (artifactResult primitives payload attestationId checks artifacts artifactRoot)

/-- What a verification returns, early or at its end. -/
def settled : Except VerificationResult VerificationResult → VerificationResult
  | .error result => result
  | .ok result => result

/-- `verify_attestation` of an attestation. -/
def verifyAttestation (attestation : Attestation) (trustedKeys : String → Option TrustedKey)
    (expectedCaseDigest : Option String) (artifactRoot : Option ArtifactRoot) :
    Except Raised VerificationResult := do
  let payload ← attestation.toDict
  pure (settled (verifyPayload primitives payload trustedKeys expectedCaseDigest artifactRoot))

end Verifying

end Attestation

end AegisForge.Shared
