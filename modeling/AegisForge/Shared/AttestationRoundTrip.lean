import AegisForge.Core.Sha256
import AegisForge.Shared.SignedContents

/-!
# Verifying what was signed

An attestation reaches its verifier through JSON.  The id and the signature survive
the trip when the keys of every dictionary are in the order of their texts.
-/

namespace AegisForge.Shared.Attestation

open AegisForge.Core

/-! ## The verifier on contents -/

/-- Schema, verdict, id, key and signature were checked. -/
def Checks.isAuthentic (checks : Checks) : Bool :=
  checks.schemaVersion && checks.verdictAllowed && checks.attestationId &&
    checks.signatureAlgorithm && checks.trustedKey && checks.publicKeyMatches &&
    checks.signatureValid

/-- The checks of a payload whose signature was checked. -/
def authenticated : Checks where
  schemaVersion := true
  verdictAllowed := true
  attestationId := true
  signatureAlgorithm := true
  trustedKey := true
  publicKeyMatches := true
  signatureValid := true

theorem raiseUnless_bind_of_pos {Error A : Type} {condition : Prop} [Decidable condition]
    {error : Error} {rest : PUnit → Except Error A} (hcondition : condition) :
    (raiseUnless condition error >>= rest) = rest ⟨⟩ := by
  rw [raiseUnless, if_pos hcondition]
  rfl

theorem raiseUnless_bind_of_neg {Error A : Type} {condition : Prop} [Decidable condition]
    {error : Error} {rest : PUnit → Except Error A} (hcondition : ¬condition) :
    (raiseUnless condition error >>= rest) = .error error := by
  rw [raiseUnless, if_neg hcondition]
  rfl

theorem orRaise_bind_of_some {Error A B : Type} {error : Error} {found : Option A} {value : A}
    {rest : A → Except Error B} (hfound : found = some value) :
    (orRaise error found >>= rest) = rest value := by
  rw [hfound]
  rfl

theorem caught_bind_of_ok {A B : Type} {error : VerificationResult}
    {computation : Except Raised A} {value : A} {rest : A → Except VerificationResult B}
    (hok : computation = .ok value) : (caught error computation >>= rest) = rest value := by
  rw [hok]
  rfl

section Verifying

variable {PrivateKey : Type} {primitives : Primitives PrivateKey}
  {trustedKeys : String → Option TrustedKey}

theorem decodePublicKey_encode {raw : Octets} (hlength : raw.length = 32) :
    decodePublicKey (.text (Base64.encode raw)) = .ok raw := by
  rw [decodePublicKey]
  refine orRaise_bind_eq_ok_iff.mpr ⟨_, rfl, ?_⟩
  refine orRaise_bind_eq_ok_iff.mpr ⟨raw, Base64.decode?_encode raw, ?_⟩
  exact raiseUnless_bind_eq_ok_iff.mpr ⟨hlength, rfl⟩

/-- What signing writes passes every check up to the signature. -/
theorem verifyPayload_complete (hcorrect : primitives.Correct) {key : PrivateKey}
    {contents : Contents} (hreadable : contents.IsReadable)
    (hpublic : contents.publicKey = publicKeyB64 primitives key)
    {trusted : TrustedKey} (htrusted : trustedKeys contents.keyId.text = some trusted)
    (hraw : trustedKeyBytes trusted = .ok (primitives.publicKey key))
    (hcase : contents.case.isObject = true) {artifacts : List Json}
    (hartifacts : (contents.reproduction.get "artifacts").array? = some artifacts)
    (expectedCaseDigest : Option String) (artifactRoot : Option ArtifactRoot) :
    let payload :=
      contents.complete (idOf primitives contents) (signatureOf primitives key contents)
    let attestationId := Json.text (idOf primitives contents).text
    verifyPayload primitives payload trustedKeys expectedCaseDigest artifactRoot =
      (do
        raiseUnless (∀ expected ∈ expectedCaseDigest,
            isSha256Text expected = true ∧ contents.case.get "case_digest" = .text expected)
          (result .invalid "case_digest_mismatch" attestationId
            { authenticated with caseDigestMatches := false })
        pure (artifactResult primitives payload attestationId authenticated artifacts
          artifactRoot)) := by
  intro payload attestationId
  have hunsigned : (unsignedJson payload).canonicalText? =
      some (contents.unsigned.encode true) := by
    rw [Contents.unsignedJson_complete, Json.canonicalText?,
      if_pos (Contents.isFinite_unsigned hreadable)]
  have hmessage : (signedJson payload).canonicalText? =
      some ((contents.signed (idOf primitives contents)).encode true) := by
    rw [Contents.signedJson_complete, Json.canonicalText?,
      if_pos (Contents.isFinite_signed hreadable _)]
  have hcovers : signatureCovers primitives (primitives.publicKey key)
      (payload.get "signature") payload = true := by
    rw [signatureCovers, hmessage]
    have hvalue : ((((payload.get "signature").get? "value").getD (.text "")).text?.bind
        Base64.decode?) = some (primitives.sign key
          (contents.signed (idOf primitives contents)).canonicalBytes) :=
      Base64.decode?_encode _
    rw [hvalue]
    exact hcorrect.signatureValid_sign key _
  have hadvertised : decodePublicKey ((payload.get "signer").get "public_key") =
      .ok (primitives.publicKey key) := by
    have hvalue : (payload.get "signer").get "public_key" =
        .text (Base64.encode (primitives.publicKey key)) := congrArg Json.text hpublic
    rw [hvalue]
    exact decodePublicKey_encode (hcorrect.length_publicKey key)
  have hverdict : (((payload.get "verdict").text?.bind Verdict.ofText?).isSome) = true := by
    have hvalue : payload.get "verdict" = .text contents.verdict.text := rfl
    rw [hvalue, Json.text?, Option.bind_some, Verdict.ofText?_text, Option.isSome_some]
  rw [verifyPayload]
  refine (raiseUnless_bind_of_pos rfl).trans ?_
  refine (raiseUnless_bind_of_pos rfl).trans ?_
  refine (raiseUnless_bind_of_pos hverdict).trans ?_
  refine (orRaise_bind_of_some hunsigned).trans ?_
  refine (raiseUnless_bind_of_pos rfl).trans ?_
  refine (raiseUnless_bind_of_pos ⟨rfl, rfl⟩).trans ?_
  refine (raiseUnless_bind_of_pos rfl).trans ?_
  refine (orRaise_bind_of_some htrusted).trans ?_
  refine (caught_bind_of_ok hadvertised).trans ?_
  refine (caught_bind_of_ok hraw).trans ?_
  refine (raiseUnless_bind_of_pos rfl).trans ?_
  refine (raiseUnless_bind_of_pos hcovers).trans ?_
  refine (raiseUnless_bind_of_pos hcase).trans ?_
  refine bind_congr fun _ => ?_
  exact orRaise_bind_of_some hartifacts

/-- A check that the results for its failure do not claim was passed. -/
theorem raiseUnless_of_checked {claimed : VerificationResult → Bool} {condition : Prop}
    [Decidable condition] {error : VerificationResult}
    {rest : PUnit → Except VerificationResult VerificationResult}
    (hchecked : claimed (settled (raiseUnless condition error >>= rest)) = true)
    (herror : claimed error = false) : condition ∧ claimed (settled (rest ⟨⟩)) = true := by
  by_cases hcondition : condition
  · rw [raiseUnless_bind_of_pos hcondition] at hchecked
    exact ⟨hcondition, hchecked⟩
  · rw [raiseUnless_bind_of_neg hcondition, settled, herror] at hchecked
    cases hchecked

theorem orRaise_of_checked {A : Type} {claimed : VerificationResult → Bool} {found : Option A}
    {error : VerificationResult} {rest : A → Except VerificationResult VerificationResult}
    (hchecked : claimed (settled (orRaise error found >>= rest)) = true)
    (herror : claimed error = false) :
    ∃ value, found = some value ∧ claimed (settled (rest value)) = true := by
  cases found with
  | none =>
      have hfalse : claimed error = true := hchecked
      rw [herror] at hfalse
      cases hfalse
  | some value => exact ⟨value, rfl, hchecked⟩

theorem caught_of_checked {A : Type} {claimed : VerificationResult → Bool}
    {computation : Except Raised A} {error : VerificationResult}
    {rest : A → Except VerificationResult VerificationResult}
    (hchecked : claimed (settled (caught error computation >>= rest)) = true)
    (herror : claimed error = false) :
    ∃ value, computation = .ok value ∧ claimed (settled (rest value)) = true := by
  cases computation with
  | error raised =>
      have hfalse : claimed error = true := hchecked
      rw [herror] at hfalse
      cases hfalse
  | ok value => exact ⟨value, rfl, hchecked⟩

section Checked

variable {payload : Json} {expectedCaseDigest : Option String}
  {artifactRoot : Option ArtifactRoot}

/-- A checked id is the id that the verifier computes. -/
theorem attestationId_of_checked
    (hchecked : (settled (verifyPayload primitives payload trustedKeys expectedCaseDigest
      artifactRoot)).checks.attestationId = true) :
    ∃ hashed, (unsignedJson payload).canonicalText? = some hashed ∧
      payload.get "attestation_id" = .text (sha256Hex primitives hashed).text := by
  let claimed (answer : VerificationResult) : Bool := answer.checks.attestationId
  have hstart : claimed (settled (verifyPayload primitives payload trustedKeys
    expectedCaseDigest artifactRoot)) = true := hchecked
  obtain ⟨-, hobject⟩ := raiseUnless_of_checked hstart rfl
  obtain ⟨-, hschema⟩ := raiseUnless_of_checked hobject rfl
  obtain ⟨-, hverdict⟩ := raiseUnless_of_checked hschema rfl
  obtain ⟨hashed, hhashed, hnamed⟩ := orRaise_of_checked hverdict rfl
  exact ⟨hashed, hhashed, (raiseUnless_of_checked hnamed rfl).1⟩

/-- A checked signature covers the payload under the advertised key. -/
theorem signature_of_checked
    (hchecked : (settled (verifyPayload primitives payload trustedKeys expectedCaseDigest
      artifactRoot)).checks.signatureValid = true) :
    payload.get "schema_version" = .text schemaVersion ∧ ∃ rawKey,
      decodePublicKey ((payload.get "signer").get "public_key") = .ok rawKey ∧
      signatureCovers primitives rawKey (payload.get "signature") payload = true := by
  let claimed (answer : VerificationResult) : Bool := answer.checks.signatureValid
  have hstart : claimed (settled (verifyPayload primitives payload trustedKeys
    expectedCaseDigest artifactRoot)) = true := hchecked
  obtain ⟨-, hobject⟩ := raiseUnless_of_checked hstart rfl
  obtain ⟨hschema, hversioned⟩ := raiseUnless_of_checked hobject rfl
  obtain ⟨-, hverdict⟩ := raiseUnless_of_checked hversioned rfl
  obtain ⟨_, -, hhashed⟩ := orRaise_of_checked hverdict rfl
  obtain ⟨-, hnamed⟩ := raiseUnless_of_checked hhashed rfl
  obtain ⟨-, hparts⟩ := raiseUnless_of_checked hnamed rfl
  obtain ⟨-, halgorithm⟩ := raiseUnless_of_checked hparts rfl
  obtain ⟨_, -, htrusted⟩ := orRaise_of_checked halgorithm rfl
  obtain ⟨advertised, hadvertised, hkeyed⟩ := caught_of_checked htrusted rfl
  obtain ⟨trusted, -, hmatched⟩ := caught_of_checked hkeyed rfl
  obtain ⟨hsame, hverified⟩ := raiseUnless_of_checked hmatched rfl
  obtain ⟨hcovers, -⟩ := raiseUnless_of_checked hverified rfl
  exact ⟨hschema, advertised, hadvertised, hsame ▸ hcovers⟩

end Checked

/-! ## The round trip -/

variable {now : String} {request : Request PrivateKey} {attestation : Attestation}

/-- The public key of the signer is trusted under its key id, in some form. -/
def TrustsSigner (primitives : Primitives PrivateKey) (request : Request PrivateKey)
    (trustedKeys : String → Option TrustedKey) : Prop :=
  ∀ key keyId, privateKey primitives request.privateKey = .ok key →
    request.keyId.text? = some keyId →
    ∃ trusted, trustedKeys keyId = some trusted ∧
      trustedKeyBytes trusted = .ok (primitives.publicKey key)

/-- What a verification without an artifact root answers for a request. -/
def expectedStatus (request : Request PrivateKey) : Status :=
  match (request.reproduction.item "artifacts").list? with
  | some [] => .valid
  | _ => .incomplete

/-- The verifier finds nothing wrong with schema, id, key and signature, whatever else it
is given; without an artifact root it answers the expected status. -/
def Verifies (primitives : Primitives PrivateKey) (request : Request PrivateKey)
    (attestation : Attestation) (trustedKeys : String → Option TrustedKey) : Prop :=
  (∀ expectedCaseDigest artifactRoot, ∃ answer,
    verifyAttestation primitives attestation trustedKeys expectedCaseDigest artifactRoot =
      .ok answer ∧ answer.checks.isAuthentic = true) ∧
  ∃ answer, verifyAttestation primitives attestation trustedKeys none none = .ok answer ∧
    answer.status = expectedStatus request

/-- What signer and verifier hash for the id of an attestation. -/
def idInputs (attestation : Attestation) : List Octets :=
  ((unsignedPayload attestation.payload).tree.map Json.canonicalBytes).toList ++
    (attestation.toDict.toOption.map fun payload =>
      (unsignedJson payload).canonicalBytes).toList

/-- The payload that is read back. -/
theorem toDict_of_isSigned {key : PrivateKey} {contents : Contents}
    (hsigned : IsSigned primitives request attestation key contents) :
    attestation.toDict = .ok (contents.sortKeys.complete (idOf primitives contents)
      (signatureOf primitives key contents)) := by
  rw [toDict, canonicalJson, hsigned.payload]
  refine bind_eq_ok_iff.mpr ⟨_, rfl, ?_⟩
  rw [Json.loads_encode true
    (Contents.readable_complete hsigned.parts.isReadable _ _), Contents.sortKeys_complete]
  rfl

theorem idInputs_of_isSigned {key : PrivateKey} {contents : Contents}
    (hsigned : IsSigned primitives request attestation key contents) :
    idInputs attestation =
      [contents.unsigned.canonicalBytes, contents.sortKeys.unsigned.canonicalBytes] := by
  rw [idInputs, hsigned.unsigned, toDict_of_isSigned hsigned]
  rfl

/-- A field that a request must have is written as an item. -/
theorem exists_item {value : PyValue} {required : List String} {written : Json}
    (hkeys : value.hasKeys required = true) (hwritten : value.tree = some written) {key : String}
    (hkey : key ∈ required) :
    ∃ tree, (value.item key).tree = some tree ∧ written.get key = tree := by
  simp only [PyValue.hasKeys, Bool.and_eq_true, List.all_eq_true] at hkeys
  obtain ⟨item, hitem⟩ := Option.isSome_iff_exists.mp (hkeys.2 key hkey)
  obtain ⟨tree, htree, hget⟩ := PyValue.get?_tree hwritten hitem
  rw [PyValue.item, hitem, Json.get, hget]
  exact ⟨tree, htree, rfl⟩

/-- The check of the artifacts leaves the other checks alone. -/
theorem isAuthentic_artifactResult (payload attestationId : Json) (artifacts : List Json)
    (artifactRoot : Option ArtifactRoot) :
    (artifactResult primitives payload attestationId authenticated artifacts
      artifactRoot).checks.isAuthentic = true := by
  cases artifactRoot with
  | none =>
      rw [artifactResult]
      split <;> rfl
  | some root =>
      rw [artifactResult]
      cases verifyArtifacts primitives.sha256 root payload <;> rfl

/-- Contents with sorted keys are verified. -/
theorem verifies_of_isCanonical (hcorrect : primitives.Correct) {key : PrivateKey}
    {contents : Contents} (hsigned : IsSigned primitives request attestation key contents)
    (htrusted : TrustsSigner primitives request trustedKeys) (hcanonical : contents.IsCanonical) :
    Verifies primitives request attestation trustedKeys := by
  have hdict := toDict_of_isSigned hsigned
  rw [Contents.sortKeys_eq_self_iff.mpr hcanonical] at hdict
  have hkeyId : request.keyId.text? = some contents.keyId.text := by
    obtain ⟨text, htext, hfilled⟩ := Option.bind_eq_some_iff.mp hsigned.parts.keyId
    rw [htext, FilledText.text_of_ofText? hfilled]
  obtain ⟨trusted, hfound, hraw⟩ :=
    htrusted key contents.keyId.text hsigned.parts.held hkeyId
  have hcase : contents.case.isObject = true := by
    have hkeys := hsigned.isCase
    simp only [PyValue.hasKeys, Bool.and_eq_true] at hkeys
    exact PyValue.isObject_of_tree hkeys.1 hsigned.parts.case
  obtain ⟨tree, htree, hget⟩ := exists_item hsigned.isReproduction hsigned.parts.reproduction
    (show "artifacts" ∈ reproductionFields by decide)
  obtain ⟨items, hitems⟩ := Option.isSome_iff_exists.mp hsigned.artifacts
  obtain ⟨artifacts, hartifacts, hempty⟩ := PyValue.array?_of_tree hitems htree
  have hverified := verifyPayload_complete hcorrect hsigned.parts.isReadable
    hsigned.parts.publicKey hfound hraw hcase (hget.symm ▸ hartifacts)
  have hanswer (expectedCaseDigest : Option String) (artifactRoot : Option ArtifactRoot) :
      verifyAttestation primitives attestation trustedKeys expectedCaseDigest artifactRoot =
        .ok (settled (verifyPayload primitives (contents.complete (idOf primitives contents)
          (signatureOf primitives key contents)) trustedKeys expectedCaseDigest
          artifactRoot)) := by
    rw [verifyAttestation, hdict]
    rfl
  constructor
  · intro expectedCaseDigest artifactRoot
    refine ⟨_, hanswer expectedCaseDigest artifactRoot, ?_⟩
    rw [hverified]
    by_cases hexpected : ∀ expected ∈ expectedCaseDigest,
        isSha256Text expected = true ∧ contents.case.get "case_digest" = .text expected
    · rw [raiseUnless_bind_of_pos hexpected]
      exact isAuthentic_artifactResult _ _ artifacts artifactRoot
    · rw [raiseUnless_bind_of_neg hexpected]
      rfl
  · refine ⟨_, hanswer none none, ?_⟩
    rw [hverified, raiseUnless_bind_of_pos (by simp), expectedStatus, hitems]
    cases items with
    | nil =>
        obtain rfl := hempty.mpr rfl
        rfl
    | cons item rest =>
        have hne : artifacts ≠ [] := fun hnil => List.cons_ne_nil item rest (hempty.mp hnil)
        simp only [settled, pure, Except.pure, artifactResult, if_neg hne, result]

/-- Contents that are verified have sorted keys, unless the hash function collides. -/
theorem isCanonical_of_verifies {key : PrivateKey} {contents : Contents}
    (hsigned : IsSigned primitives request attestation key contents)
    (hfree : CollisionFree primitives.sha256 (idInputs attestation))
    (hverifies : Verifies primitives request attestation trustedKeys) :
    contents.IsCanonical := by
  obtain ⟨answer, hanswer, hauthentic⟩ := hverifies.1 none none
  have hdict := toDict_of_isSigned hsigned
  rw [verifyAttestation, hdict] at hanswer
  obtain rfl := Except.ok.inj hanswer
  simp only [Checks.isAuthentic, Bool.and_eq_true] at hauthentic
  obtain ⟨hashed, hhashed, hid⟩ := attestationId_of_checked hauthentic.1.1.1.1.2
  have htext : hashed = contents.sortKeys.unsigned.encode true := by
    rw [Contents.unsignedJson_complete, Json.canonicalText?] at hhashed
    split at hhashed
    · exact (Option.some.inj hhashed).symm
    · cases hhashed
  have hsame : idOf primitives contents =
      primitives.sha256 contents.sortKeys.unsigned.canonicalBytes := by
    rw [htext] at hid
    exact Digest.text_injective (Json.text.inj hid)
  rw [idInputs_of_isSigned hsigned] at hfree
  have hbytes := hfree _ (by simp) _ (by simp) hsame
  have hunsigned := Json.eq_of_canonicalBytes_eq
    (Contents.readable_unsigned hsigned.parts.isReadable)
    (Contents.readable_sortKeys hsigned.parts.isReadable) hbytes
  obtain ⟨hcase, hfinding, hreproduction⟩ := Contents.eq_of_unsigned_eq hunsigned
  exact ⟨Json.sortKeys_eq_self_iff.mp hcase.symm, Json.sortKeys_eq_self_iff.mp hfinding.symm,
    Json.sortKeys_eq_self_iff.mp hreproduction.symm⟩

/-- Where signer and verifier compute different ids, nothing is verified. -/
theorem not_verifies_of_differs
    (hsigned : signAttestation primitives now request = .ok attestation)
    (hdiffers : ((unsignedPayload attestation.payload).tree.any fun unsigned =>
      primitives.sha256 unsigned.canonicalBytes ≠
        primitives.sha256 unsigned.sortKeys.canonicalBytes) = true)
    (hkeys : ¬KeysInTextOrder request) :
    ¬Verifies primitives request attestation trustedKeys := by
  obtain ⟨key, contents, hcontents⟩ := exists_isSigned hsigned
  intro hverifies
  have hfree : CollisionFree primitives.sha256 (idInputs attestation) := by
    rw [hcontents.unsigned] at hdiffers
    rw [idInputs_of_isSigned hcontents, ← Contents.sortKeys_unsigned]
    apply CollisionFree.of_nodup
    simpa using hdiffers
  exact hkeys (hcontents.parts.isCanonical_iff.mp
    (isCanonical_of_verifies hcontents hfree hverifies))

/-- An attestation is verified exactly when the sorted keys of every dictionary that was
signed are in the order of their texts. -/
theorem round_trip_iff (hcorrect : primitives.Correct)
    (hsigned : signAttestation primitives now request = .ok attestation)
    (htrusted : TrustsSigner primitives request trustedKeys) :
    (KeysInTextOrder request → Verifies primitives request attestation trustedKeys) ∧
      (CollisionFree primitives.sha256 (idInputs attestation) →
        Verifies primitives request attestation trustedKeys → KeysInTextOrder request) := by
  obtain ⟨key, contents, hcontents⟩ := exists_isSigned hsigned
  rw [← hcontents.parts.isCanonical_iff]
  constructor
  · exact verifies_of_isCanonical hcorrect hcontents htrusted
  · exact isCanonical_of_verifies hcontents

end Verifying

/-! ## Samples -/

namespace Sample

def publicKey : Octets :=
  [3, 161, 7, 191, 243, 206, 16, 190, 29, 112, 221, 24, 231, 75, 192, 153, 103, 228, 214, 48, 155,
    165, 13, 95, 29, 220, 134, 100, 18, 85, 49, 184]

/-- A key that has signed one message. -/
def primitives (signature : Octets) : Primitives Unit where
  sha256 := Sha256.sha256
  isIsoFormat text := text = "2026-01-01T00:00:00+00:00"
  fromPrivateBytes _ := none
  publicKey _ := publicKey
  sign _ _ := signature
  signatureValid raw value _ := raw = publicKey && value = signature

def digestText : String := String.ofList (List.replicate 64 'a')

def contractText : String := String.ofList (List.replicate 64 'b')

def request (caseDigest : String) (environment : List (PyKey × PyValue)) : Request Unit where
  caseRef := .record [("case_digest", .text caseDigest), ("case_id", .text "case-1"),
    ("scope_digest", .text contractText), ("scope_url", .text "u"),
    ("target_commit", .text "c1"), ("target_repository", .text "repo")]
  findingRef := .record [("affected_component", .text "parser"), ("claim", .text "claim"),
    ("finding_id", .text "f-1"), ("impact_path", .text ""), ("source_locations", .list [])]
  reproduction := .record [("artifacts", .list []), ("commands", .list [.list [.text "run"]]),
    ("completed_at", .text ""), ("environment", .dict environment), ("exit_code", .int 0),
    ("network_access", .bool false), ("reproduction_contract_sha256", .text contractText),
    ("started_at", .text "")]
  verdict := .text "REPRODUCED"
  verdictRationale := .text "ok"
  privateKey := .key ()
  keyId := .text "key-1"
  organization := .text "lab"
  issuedAt := .text "2026-01-01T00:00:00+00:00"

def environment : List (PyKey × PyValue) := [(.text "os", .text "linux")]

/-- The keys nine and ten, whose texts come the other way round. -/
def numbered : List (PyKey × PyValue) := [(.int 9, .text "a"), (.int 10, .text "b")]

/-- The signature of the first request. -/
def signature : Octets :=
  [200, 199, 254, 17, 182, 230, 10, 224, 92, 184, 133, 107, 134, 204, 157, 113, 101, 7, 90, 85,
    30, 41, 226, 231, 184, 26, 212, 238, 94, 116, 193, 143, 153, 86, 5, 124, 61, 139, 160, 159,
    88, 72, 210, 51, 203, 136, 188, 0, 159, 7, 161, 120, 24, 23, 237, 6, 48, 253, 128, 6, 133, 17,
    150, 14]

/-- The signature of the request with the numbered environment. -/
def numberedSignature : Octets :=
  [91, 133, 58, 251, 86, 4, 17, 189, 83, 148, 155, 163, 20, 143, 207, 47, 59, 179, 27, 172, 211,
    180, 136, 160, 67, 252, 34, 4, 87, 96, 79, 117, 113, 94, 119, 30, 221, 35, 54, 51, 72, 47,
    208, 249, 23, 185, 135, 113, 237, 228, 192, 72, 111, 252, 243, 68, 45, 197, 163, 19, 73, 122,
    99, 4]

def trustedKeys (keyId : String) : Option TrustedKey :=
  if keyId = "key-1" then some (.key publicKey) else none

theorem correct (signature : Octets) (hlength : signature.length = 64) :
    (primitives signature).Correct where
  length_publicKey _ := rfl
  length_sign _ _ := hlength
  signatureValid_sign _ _ := by simp [primitives]

theorem trustsSigner (signature : Octets) (caseDigest : String)
    (environment : List (PyKey × PyValue)) :
    TrustsSigner (primitives signature) (request caseDigest environment) trustedKeys := by
  rintro key keyId - hkeyId
  obtain rfl := Option.some.inj hkeyId
  exact ⟨.key publicKey, rfl, rfl⟩

/-- Signer and verifier hash different bytes, to different ids. -/
theorem numbered_differs :
    ((signAttestation (primitives numberedSignature) "" (request digestText numbered)).toOption.any
      fun attestation => (unsignedPayload attestation.payload).tree.any fun unsigned =>
        Sha256.sha256 unsigned.canonicalBytes ≠ Sha256.sha256 unsigned.sortKeys.canonicalBytes) =
      true := by
  decide +kernel

end Sample

open Sample

/-- A request with sorted keys. -/
theorem round_trip_sorted : ∃ attestation,
    signAttestation (primitives signature) "" (request digestText environment) =
      .ok attestation ∧
    Verifies (primitives signature) (request digestText environment) attestation trustedKeys := by
  have hsome : (signAttestation (primitives signature) ""
      (request digestText environment)).toOption.isSome = true := by decide +kernel
  obtain ⟨attestation, hsigned⟩ := Option.isSome_iff_exists.mp hsome
  have hok := eq_ok_of_toOption hsigned
  exact ⟨attestation, hok, (round_trip_iff (correct signature rfl) hok
    (trustsSigner signature digestText environment)).1 (by decide +kernel)⟩

/-- An attestation with a numbered environment is signed and not verified. -/
theorem numbered_not_verified : ∃ attestation,
    signAttestation (primitives numberedSignature) "" (request digestText numbered) =
      .ok attestation ∧
    TrustsSigner (primitives numberedSignature) (request digestText numbered) trustedKeys ∧
    ¬Verifies (primitives numberedSignature) (request digestText numbered) attestation
      trustedKeys := by
  obtain ⟨attestation, hsigned, hdiffers⟩ := (Option.any_eq_true _ _).mp numbered_differs
  have hok := eq_ok_of_toOption hsigned
  have hkeys : ¬KeysInTextOrder (request digestText numbered) := by decide +kernel
  exact ⟨attestation, hok, trustsSigner _ _ _, not_verifies_of_differs hok hdiffers hkeys⟩

end AegisForge.Shared.Attestation
