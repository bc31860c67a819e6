import AegisForge.Core.Sha256
import AegisForge.Shared.CheckpointBinding

/-!
# One key for attestations and checkpoints

The signer service signs both under one key.  The schema inside the signed bytes tells
them apart, so that no signature of one kind verifies as the other.
-/

namespace AegisForge.Shared.AttestationRegistry

open AegisForge.Core
open Attestation (FilledText GivenKey Primitives TrustedKey)

section Signings

variable {PrivateKey : Type}

/-- A call of `sign_attestation` that returned. -/
structure AttestationSigning (primitives : Primitives PrivateKey) where
  now : String
  request : Attestation.Request PrivateKey
  key : PrivateKey
  attestation : Attestation
  held : Attestation.privateKey primitives request.privateKey = .ok key
  signed : Attestation.signAttestation primitives now request = .ok attestation

/-- A call of `sign_registry_checkpoint` that returned. -/
structure CheckpointSigning (primitives : Primitives PrivateKey) where
  now : String
  summary : Json
  canonical : summary.IsCanonical
  signer : CheckpointSigner PrivateKey
  key : PrivateKey
  checkpoint : Json
  held : givenKey? signer.privateKey = some key
  signed : signRegistryCheckpoint primitives now summary signer = .ok checkpoint

/-- The bytes that `sign_attestation` signed. -/
def AttestationSigning.message {primitives : Primitives PrivateKey}
    (signing : AttestationSigning primitives) : Octets :=
  ((Attestation.signedPayload signing.attestation.payload).tree.map Json.canonicalBytes).getD []

/-- The bytes that `sign_registry_checkpoint` signed. -/
def CheckpointSigning.message {primitives : Primitives PrivateKey}
    (signing : CheckpointSigning primitives) : Octets :=
  (checkpointSignedPayload signing.checkpoint).canonicalBytes

/-- What a signer has signed so far. -/
inductive Signing (primitives : Primitives PrivateKey)
  | attestation (signing : AttestationSigning primitives)
  | checkpoint (signing : CheckpointSigning primitives)

namespace Signing

variable {primitives : Primitives PrivateKey}

def message : Signing primitives → Octets
  | attestation signing => signing.message
  | checkpoint signing => signing.message

def key : Signing primitives → PrivateKey
  | attestation signing => signing.key
  | checkpoint signing => signing.key

end Signing

/-- A signature that verifies was made for these bytes by one of the signings. -/
def IsUnforged {primitives : Primitives PrivateKey} (signings : List (Signing primitives))
    (rawKey signature message : Octets) : Prop :=
  primitives.signatureValid rawKey signature message = true →
    ∃ signing ∈ signings, primitives.publicKey signing.key = rawKey ∧ signing.message = message

/-- A text in base64 that is decoded. -/
def decoded? (value : Json) : Option Octets := value.text?.bind Base64.decode?

/-- The value of a signature, which is empty where it is missing. -/
def signatureValue (payload : Json) : Json :=
  ((payload.get "signature").get? "value").getD (.text "")

/-- The signature of a payload, under the key that its signer advertises, is no forgery. -/
def PayloadUnforged {primitives : Primitives PrivateKey} (signings : List (Signing primitives))
    (payload message : Json) : Prop :=
  ∀ rawKey signature, decoded? ((payload.get "signer").get "public_key") = some rawKey →
    decoded? (signatureValue payload) = some signature →
    IsUnforged signings rawKey signature message.canonicalBytes

variable {primitives : Primitives PrivateKey}

/-- The contents that a signing of an attestation signed. -/
theorem AttestationSigning.exists_message (signing : AttestationSigning primitives) :
    ∃ (contents : Attestation.Contents) (attestationId : Digest), contents.IsReadable ∧
      signing.message = (contents.signed attestationId).canonicalBytes := by
  obtain ⟨key, contents, hsigned⟩ := Attestation.exists_isSigned signing.signed
  refine ⟨contents, Attestation.idOf primitives contents, hsigned.parts.isReadable, ?_⟩
  rw [message, hsigned.signed]
  rfl

/-- The contents that a signing of a checkpoint signed. -/
theorem CheckpointSigning.exists_message (signing : CheckpointSigning primitives) :
    ∃ (contents : CheckpointContents) (summary : Summary), signing.summary = summary.toJson ∧
      contents.registry = summary.toJson ∧
      signing.message = (contents.signed (checkpointIdOf primitives contents)).canonicalBytes := by
  obtain ⟨summary, hsummary, -⟩ := bind_eq_ok signing.signed
  have hwritten := (validateSummary_eq_ok_iff signing.canonical).mp hsummary
  have hsigned := signing.signed
  rw [hwritten, signRegistryCheckpoint_eq_ok_iff] at hsigned
  obtain ⟨key, keyId, organization, issuedAt, -, -, -, -, hcheckpoint⟩ := hsigned
  refine ⟨⟨summary.toJson, issuedAt, keyId, Attestation.publicKeyB64 primitives key,
    organization⟩, summary, hwritten, rfl, ?_⟩
  rw [message, hcheckpoint]
  rfl

/-- The schema tells the two kinds apart. -/
theorem attestation_bytes_ne_checkpoint_bytes {contents : Attestation.Contents}
    (hreadable : contents.IsReadable) {checkpoint : CheckpointContents}
    (hregistry : checkpoint.registry.Readable) (attestationId checkpointId : Digest) :
    (contents.signed attestationId).canonicalBytes ≠
      (checkpoint.signed checkpointId).canonicalBytes := by
  intro hbytes
  have hsame := Json.eq_of_canonicalBytes_eq
    (Attestation.Contents.readable_signed hreadable attestationId)
    (CheckpointContents.readable_signed hregistry checkpointId) hbytes
  have hschema := congrArg (fun value : Json => value.get "schema_version") hsame
  have htexts : Attestation.schemaVersion = checkpointSchemaVersion := Json.text.inj hschema
  exact absurd htexts (by decide)

theorem message_ne (attestation : AttestationSigning primitives)
    (checkpoint : CheckpointSigning primitives) : attestation.message ≠ checkpoint.message := by
  obtain ⟨contents, attestationId, hreadable, hmessage⟩ := attestation.exists_message
  obtain ⟨checkpointContents, summary, -, hregistry, hcheckpoint⟩ := checkpoint.exists_message
  rw [hmessage, hcheckpoint]
  exact attestation_bytes_ne_checkpoint_bytes hreadable
    (hregistry ▸ summary.readable_toJson) _ _

/-- A registry that is accepted, by its snapshot and its summary. -/
theorem summary_of_request {registry request : Json} (hcanonical : registry.IsCanonical)
    (hrequest : checkpointRequestForRegistry primitives.sha256 registry = .ok request) :
    ∃ snapshot : Snapshot, registry = snapshot.toJson primitives.sha256 ∧
      request.get "registry" = (snapshot.summary primitives.sha256).toJson := by
  obtain ⟨report, hverified, -⟩ := bind_eq_ok hrequest
  obtain ⟨snapshot, rfl, -⟩ := exists_snapshot hcanonical hverified
  rw [checkpointRequestForRegistry_toJson] at hrequest
  obtain rfl := Except.ok.inj hrequest
  exact ⟨snapshot, rfl, rfl⟩

/-- Written summaries have one digest. -/
theorem registrySha256_of_toJson_eq {left right : Summary} (hsame : left.toJson = right.toJson) :
    left.registrySha256 = right.registrySha256 := by
  have hget := congrArg (fun value : Json => value.get "registry_sha256") hsame
  exact Digest.text_injective (Json.text.inj hget)

/-- What is signed for an accepted registry is accepted with it. -/
theorem checkpoint_accepted (hcorrect : primitives.Correct) {registry : Json}
    {report : RegistryReport} {now : String} {signer : CheckpointSigner PrivateKey}
    {trustedKeys : String → Option TrustedKey} (hcanonical : registry.IsCanonical)
    (hverified : verifyRegistry primitives.sha256 registry = .ok report)
    (hvalid : CheckpointSigner.IsValid primitives now signer)
    (htrusted : TrustsCheckpointSigner primitives signer trustedKeys) :
    ∃ request checkpoint answer,
      checkpointRequestForRegistry primitives.sha256 registry = .ok request ∧
      signRegistryCheckpoint primitives now (request.get "registry") signer = .ok checkpoint ∧
      verifySignedCheckpoint primitives checkpoint trustedKeys (some registry) =
        .ok answer := by
  obtain ⟨snapshot, rfl, -⟩ := exists_snapshot hcanonical hverified
  obtain ⟨key, hkey⟩ := Option.isSome_iff_exists.mp hvalid.privateKey
  obtain ⟨keyId, hkeyId⟩ := Option.isSome_iff_exists.mp hvalid.keyId
  obtain ⟨organization, horganization⟩ := Option.isSome_iff_exists.mp hvalid.organization
  obtain ⟨issuedAt, hissuedAt⟩ := hvalid.issuedAt
  have hformat : primitives.isIsoFormat issuedAt.text = true := by
    obtain ⟨timestamp, -, hchecked⟩ := orRaise_bind_eq_ok hissuedAt
    obtain ⟨hformat, hanswer⟩ := raiseUnless_bind_eq_ok hchecked
    obtain rfl := Except.ok.inj hanswer
    exact hformat
  have htext : signer.keyId.text? = some keyId.text := by
    obtain ⟨text, hunblank, hfilled⟩ := Option.bind_eq_some_iff.mp hkeyId
    rw [(Option.filter_eq_some_iff.mp hunblank).1, FilledText.text_of_ofText? hfilled]
  obtain ⟨trusted, hfound, hraw⟩ := htrusted key keyId.text hkey htext
  obtain ⟨answer, hanswer⟩ :=
    verifySignedCheckpoint_signedWith hcorrect hfound hraw hformat
  exact ⟨_, _, answer, checkpointRequestForRegistry_toJson primitives.sha256 snapshot,
    signRegistryCheckpoint_eq_ok_iff.mpr
      ⟨key, keyId, organization, issuedAt, hkey, hkeyId, horganization, hissuedAt, rfl⟩, hanswer⟩

section Accepted

variable {trustedKeys : String → Option TrustedKey} {checkpoint registry : Json}
  {report : CheckpointReport} {signings : List (Signing primitives)}

/-- An accepted checkpoint was signed as a checkpoint. -/
theorem exists_checkpointSigning (hcanonical : checkpoint.IsCanonical)
    {registry : Option Json}
    (hok : verifySignedCheckpoint primitives checkpoint trustedKeys registry = .ok report)
    (hunforged : PayloadUnforged signings checkpoint (checkpointSignedPayload checkpoint)) :
    ∃ (signing : CheckpointSigning primitives) (summary : Summary),
      .checkpoint signing ∈ signings ∧
      signing.message = (checkpointSignedPayload checkpoint).canonicalBytes ∧
      signing.summary = summary.toJson ∧
      checkRegistry primitives summary.toJson registry = .ok ⟨⟩ := by
  obtain ⟨contents, summary, value, rawKey, signature, haccepted, hregistry⟩ :=
    exists_isAccepted hcanonical hok
  have hreadable : contents.registry.Readable := by
    rw [haccepted.registry]
    exact summary.readable_toJson
  have hpayload : checkpointSignedPayload checkpoint =
      contents.signed (checkpointIdOf primitives contents) := by
    rw [haccepted.checkpoint]
    rfl
  have hrawKey : decoded? ((checkpoint.get "signer").get "public_key") = some rawKey := by
    rw [haccepted.checkpoint]
    exact haccepted.publicKey
  have hsignature : decoded? (signatureValue checkpoint) = some signature := by
    rw [haccepted.checkpoint]
    exact haccepted.decoded
  obtain ⟨signing, hmem, -, hmessage⟩ :=
    hunforged rawKey signature hrawKey hsignature (hpayload ▸ haccepted.valid)
  cases signing with
  | attestation signing =>
      obtain ⟨signed, attestationId, hsigned, hbytes⟩ := signing.exists_message
      rw [hpayload] at hmessage
      exact absurd (hbytes.symm.trans hmessage)
        (attestation_bytes_ne_checkpoint_bytes hsigned hreadable _ _)
  | checkpoint signing =>
      obtain ⟨signed, held, hsummary, hheld, hbytes⟩ := signing.exists_message
      have hsame := Json.eq_of_canonicalBytes_eq
        (CheckpointContents.readable_signed (hheld ▸ held.readable_toJson) _)
        (CheckpointContents.readable_signed hreadable _)
        (hbytes.symm.trans (hmessage.trans (congrArg Json.canonicalBytes hpayload)))
      have hsigned : signed.registry = contents.registry :=
        congrArg (fun value : Json => value.get "registry") hsame
      exact ⟨signing, summary, hmem, hmessage,
        hsummary.trans (hheld.symm.trans (hsigned.trans haccepted.registry)), hregistry⟩

/-- A registry that a checkpoint is accepted with is the one whose summary was signed. -/
theorem canonicalBytes_eq_of_summary {summary : Summary} {other request : Json}
    (hcanonical : registry.IsCanonical)
    (hchecked : checkRegistry primitives summary.toJson (some registry) = .ok ⟨⟩)
    (hother : other.IsCanonical)
    (hrequest : checkpointRequestForRegistry primitives.sha256 other = .ok request)
    (hsummary : request.get "registry" = summary.toJson)
    (hfree : CollisionFree primitives.sha256 [other.canonicalBytes, registry.canonicalBytes]) :
    other.canonicalBytes = registry.canonicalBytes := by
  obtain ⟨verified, hverified, -⟩ := bind_eq_ok hchecked
  obtain ⟨held, rfl, -⟩ := exists_snapshot hcanonical hverified
  obtain ⟨snapshot, rfl, hwritten⟩ := summary_of_request hother hrequest
  have hsame : (snapshot.summary primitives.sha256).registrySha256 =
      (held.summary primitives.sha256).registrySha256 :=
    (registrySha256_of_toJson_eq (hwritten.symm.trans hsummary)).trans
      (summary_eq_of_checkRegistry hchecked)
  exact hfree _ (by simp) _ (by simp) hsame

end Accepted

/-- A signature that is checked on an attestation was made for an attestation. -/
theorem exists_attestationSigning {payload : Json} (hreadable : payload.Readable)
    {trustedKeys : String → Option TrustedKey} {expectedCaseDigest : Option String}
    {artifactRoot : Option Attestation.ArtifactRoot} {signings : List (Signing primitives)}
    (hchecked : (Attestation.settled (Attestation.verifyPayload primitives payload trustedKeys
      expectedCaseDigest artifactRoot)).checks.signatureValid = true)
    (hunforged : PayloadUnforged signings payload (Attestation.signedJson payload)) :
    ∃ signing : AttestationSigning primitives, .attestation signing ∈ signings ∧
      signing.message = (Attestation.signedJson payload).canonicalBytes := by
  obtain ⟨hschema, rawKey, hrawKey, hcovers⟩ := Attestation.signature_of_checked hchecked
  rw [Attestation.signatureCovers, Option.any_eq_true] at hcovers
  obtain ⟨signature, hsignature, hcovered⟩ := hcovers
  obtain ⟨message, hmessage, hvalid⟩ := (Option.any_eq_true _ _).mp hcovered
  obtain rfl := canonicalText?_eq_some hmessage
  have hadvertised : decoded? ((payload.get "signer").get "public_key") = some rawKey := by
    obtain ⟨encoded, htext, hencoded⟩ := orRaise_bind_eq_ok hrawKey
    obtain ⟨raw, hraw, hlength⟩ := orRaise_bind_eq_ok hencoded
    obtain ⟨-, hanswer⟩ := raiseUnless_bind_eq_ok hlength
    obtain rfl := Except.ok.inj hanswer
    rw [decoded?, htext, Option.bind_some, hraw]
  obtain ⟨signing, hmem, -, hbytes⟩ := hunforged rawKey signature hadvertised hsignature hvalid
  cases signing with
  | attestation signing => exact ⟨signing, hmem, hbytes⟩
  | checkpoint signing =>
      obtain ⟨signed, summary, -, hsummary, hwritten⟩ := signing.exists_message
      have hsame := Json.eq_of_canonicalBytes_eq
        (CheckpointContents.readable_signed (hsummary ▸ summary.readable_toJson) _)
        (Json.readable_without hreadable ["signature"]) (hwritten.symm.trans hbytes)
      have hget := congrArg (fun value : Json => value.get "schema_version") hsame
      rw [Json.get_without (by decide), hschema] at hget
      have htexts : checkpointSchemaVersion = Attestation.schemaVersion := Json.text.inj hget
      exact absurd htexts (by decide)

/-! ## The law of signed checkpoints -/

/-- A checkpoint that is signed for an accepted registry is accepted with it; what is accepted
with a registry was signed as a checkpoint, for a registry with the same canonical bytes; and
nothing is signed both as an attestation and as a checkpoint, so that a signature that verifies
on an attestation was made for an attestation. -/
theorem signed_checkpoint_binds (hcorrect : primitives.Correct) :
    (∀ registry report now signer trustedKeys, registry.IsCanonical →
      verifyRegistry primitives.sha256 registry = .ok report →
      CheckpointSigner.IsValid primitives now signer →
      TrustsCheckpointSigner primitives signer trustedKeys →
      ∃ request checkpoint answer,
        checkpointRequestForRegistry primitives.sha256 registry = .ok request ∧
        signRegistryCheckpoint primitives now (request.get "registry") signer = .ok checkpoint ∧
        verifySignedCheckpoint primitives checkpoint trustedKeys (some registry) =
          .ok answer) ∧
    (∀ (signings : List (Signing primitives)) checkpoint registry trustedKeys answer,
      checkpoint.IsCanonical → registry.IsCanonical →
      PayloadUnforged signings checkpoint (checkpointSignedPayload checkpoint) →
      verifySignedCheckpoint primitives checkpoint trustedKeys (some registry) = .ok answer →
      ∃ signing, .checkpoint signing ∈ signings ∧
        signing.message = (checkpointSignedPayload checkpoint).canonicalBytes ∧
        ∀ signed request, signed.IsCanonical →
          checkpointRequestForRegistry primitives.sha256 signed = .ok request →
          request.get "registry" = signing.summary →
          CollisionFree primitives.sha256 [signed.canonicalBytes, registry.canonicalBytes] →
          signed.canonicalBytes = registry.canonicalBytes) ∧
    (∀ (attestation : AttestationSigning primitives) (checkpoint : CheckpointSigning primitives),
      attestation.message ≠ checkpoint.message) ∧
    (∀ (signings : List (Signing primitives)) payload trustedKeys expectedCaseDigest artifactRoot,
      payload.Readable →
      PayloadUnforged signings payload (Attestation.signedJson payload) →
      (Attestation.settled (Attestation.verifyPayload primitives payload trustedKeys
        expectedCaseDigest artifactRoot)).checks.signatureValid = true →
      ∃ signing, .attestation signing ∈ signings ∧
        signing.message = (Attestation.signedJson payload).canonicalBytes) := by
  refine ⟨?_, ?_, message_ne, ?_⟩
  · intro registry report now signer trustedKeys hcanonical hverified hvalid htrusted
    exact checkpoint_accepted hcorrect hcanonical hverified hvalid htrusted
  · intro signings checkpoint registry trustedKeys answer hcanonical hregistry hunforged hok
    obtain ⟨signing, summary, hmem, hmessage, hsummary, hchecked⟩ :=
      exists_checkpointSigning hcanonical hok hunforged
    refine ⟨signing, hmem, hmessage, ?_⟩
    intro signed request hsigned hrequest hsame hfree
    exact canonicalBytes_eq_of_summary hregistry hchecked hsigned hrequest
      (hsame.trans hsummary) hfree
  · intro signings payload trustedKeys expectedCaseDigest artifactRoot hreadable hunforged hok
    exact exists_attestationSigning hreadable hok hunforged

end Signings

namespace Sample

/-- The signature of the checkpoint of the sample registry. -/
def checkpointSignature : Octets :=
  [76, 230, 156, 150, 166, 106, 36, 98, 192, 90, 226, 0, 237, 101, 103, 86, 102, 27, 165, 210, 46,
    244, 33, 86, 54, 199, 77, 42, 0, 153, 13, 243, 166, 191, 86, 186, 150, 43, 74, 240, 14, 153,
    114, 40, 152, 250, 22, 206, 210, 111, 104, 79, 106, 117, 253, 216, 239, 72, 23, 12, 121, 255,
    246, 1]

def checkpointSigner : CheckpointSigner Unit where
  privateKey := .key ()
  keyId := .text "key-1"
  organization := .text "lab"
  issuedAt := .text "2026-01-01T00:00:00+00:00"

theorem checkpointSigner_isValid :
    CheckpointSigner.IsValid (Attestation.Sample.primitives checkpointSignature) ""
      checkpointSigner where
  privateKey := rfl
  keyId := by decide +kernel
  organization := by decide +kernel
  issuedAt := ⟨⟨"2026-01-01T00:00:00+00:00", by decide⟩, by decide +kernel⟩

theorem trustsCheckpointSigner :
    TrustsCheckpointSigner (Attestation.Sample.primitives checkpointSignature) checkpointSigner
      Attestation.Sample.trustedKeys := by
  rintro key keyId - hkeyId
  obtain rfl := Option.some.inj hkeyId
  exact ⟨.key Attestation.Sample.publicKey, rfl, rfl⟩

end Sample

open Sample

/-- The signed checkpoint of the sample registry is accepted with it. -/
theorem sample_checkpoint_accepted : ∃ request checkpoint answer,
    checkpointRequestForRegistry Sha256.sha256 (snapshot.toJson Sha256.sha256) = .ok request ∧
    signRegistryCheckpoint (Attestation.Sample.primitives checkpointSignature) ""
      (request.get "registry") checkpointSigner = .ok checkpoint ∧
    verifySignedCheckpoint (Attestation.Sample.primitives checkpointSignature) checkpoint
      Attestation.Sample.trustedKeys (some (snapshot.toJson Sha256.sha256)) = .ok answer := by
  have hbinds := signed_checkpoint_binds (Attestation.Sample.correct checkpointSignature rfl)
  exact hbinds.1 _ _ "" checkpointSigner Attestation.Sample.trustedKeys
    (snapshot.isCanonical_toJson Sha256.sha256) (snapshot.verifyRegistry_toJson Sha256.sha256)
    checkpointSigner_isValid trustsCheckpointSigner

end AegisForge.Shared.AttestationRegistry
