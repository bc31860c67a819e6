import AegisForge.Shared.SignedCheckpoint

/-!
# What a signed checkpoint binds

A checkpoint that verifies belongs to one registry.  It shares its key with the
attestations, and no bytes are signed as both.
-/

namespace AegisForge.Shared.AttestationRegistry

open AegisForge.Core
open Attestation (FilledText Primitives TrustedKey)
open Json (array? array?_eq_some_iff int? int?_eq_some_iff)

/-! ## Summaries -/

namespace Summary

theorem isCanonical_toJson (summary : Summary) : summary.toJson.IsCanonical := by
  have hkeys : summaryFields.IsChain (· < ·) := by decide
  rw [toJson, Json.isCanonical_object_iff]
  refine ⟨hkeys, ?_⟩
  simp only [List.forall_mem_cons]
  exact ⟨.text _, isCanonical_previousJson _, .text _, .int _, nofun⟩

theorem readable_toJson (summary : Summary) : summary.toJson.Readable := by
  have hprevious := readable_previousJson summary.previous
  simpa [toJson, Json.Readable, Json.ReadableFields] using hprevious

theorem isFinite_toJson (summary : Summary) : summary.toJson.isFinite = true := by
  have hprevious : (previousJson summary.previous).isFinite = true := by
    cases summary.previous <;> rfl
  simpa [toJson, Json.isFinite, Json.finiteFields] using hprevious

end Summary

theorem validateSummary_eq_ok_iff {value : Json} (hcanonical : value.IsCanonical)
    {summary : Summary} : validateSummary value = .ok summary ↔ value = summary.toJson := by
  constructor
  · intro hok
    obtain ⟨hfields, hsized⟩ := raiseUnless_bind_eq_ok hok
    obtain ⟨size, hsize, hrooted⟩ := orRaise_bind_eq_ok hsized
    obtain ⟨merkleRoot, hroot, hhashed⟩ := orRaise_bind_eq_ok hrooted
    obtain ⟨registrySha256, hsha256, hlinked⟩ := orRaise_bind_eq_ok hhashed
    obtain ⟨previous, hprevious, hanswer⟩ := bind_eq_ok hlinked
    obtain rfl := Except.ok.inj hanswer
    obtain ⟨hint, hpositive⟩ := Option.filter_eq_some_iff.mp hsize
    rw [decide_eq_true_eq] at hpositive
    rw [validatePrevious_eq_ok_iff (Json.isCanonical_get hcanonical _)] at hprevious
    rw [Json.eq_object_of_hasExactly hcanonical (by decide) hfields]
    simp only [summaryFields, List.map_cons, List.map_nil, int?_eq_some_iff.mp hint,
      digest?_eq_some_iff.mp hroot, digest?_eq_some_iff.mp hsha256, hprevious, Summary.toJson,
      Int.toNat_of_nonneg hpositive]
  · rintro rfl
    rw [validateSummary]
    refine raiseUnless_bind_eq_ok_iff.mpr ⟨rfl, ?_⟩
    refine orRaise_bind_eq_ok_iff.mpr
      ⟨summary.size, Option.filter_eq_some_iff.mpr ⟨rfl, by simp⟩, ?_⟩
    refine orRaise_bind_eq_ok_iff.mpr ⟨_, digest?_eq_some_iff.mpr rfl, ?_⟩
    refine orRaise_bind_eq_ok_iff.mpr ⟨_, digest?_eq_some_iff.mpr rfl, ?_⟩
    exact bind_eq_ok_iff.mpr ⟨summary.previous,
      (validatePrevious_eq_ok_iff (isCanonical_previousJson _)).mpr rfl, rfl⟩

/-- The summary of a snapshot. -/
def Snapshot.summary (sha256 : Octets → Digest) (snapshot : Snapshot) : Summary :=
  ⟨snapshot.entries.length, snapshot.root sha256,
    registrySha256 sha256 (snapshot.toJson sha256), snapshot.previous⟩

theorem checkpointRequestForRegistry_toJson (sha256 : Octets → Digest) (snapshot : Snapshot) :
    checkpointRequestForRegistry sha256 (snapshot.toJson sha256) =
      .ok (.object [("registry", (snapshot.summary sha256).toJson),
        ("schema_version", .text checkpointRequestSchemaVersion)]) := by
  rw [checkpointRequestForRegistry, snapshot.verifyRegistry_toJson]
  rfl

/-! ## Contents -/

namespace CheckpointContents

variable {contents : CheckpointContents}

theorem readable_signed (hreadable : contents.registry.Readable) (checkpointId : Digest) :
    (contents.signed checkpointId).Readable := by
  simpa [signed, signer, Json.Readable, Json.ReadableFields] using hreadable

theorem isFinite_unsigned (hfinite : contents.registry.isFinite = true) :
    contents.unsigned.isFinite = true := by
  simpa [unsigned, signer, Json.isFinite, Json.finiteFields] using hfinite

theorem isFinite_signed (hfinite : contents.registry.isFinite = true) (checkpointId : Digest) :
    (contents.signed checkpointId).isFinite = true := by
  simpa [signed, signer, Json.isFinite, Json.finiteFields] using hfinite

end CheckpointContents

theorem canonicalText?_of_isFinite {value : Json} (hfinite : value.isFinite = true) :
    value.canonicalText? = some (value.encode true) := by
  rw [Json.canonicalText?, if_pos hfinite]

theorem canonicalText?_eq_some {value : Json} {text : List Char}
    (htext : value.canonicalText? = some text) : text = value.encode true := by
  rw [Json.canonicalText?] at htext
  split at htext
  · exact (Option.some.inj htext).symm
  · cases htext

/-! ## Signing -/

section Signing

variable {PrivateKey : Type} {primitives : Primitives PrivateKey} {now : String}
  {signer : CheckpointSigner PrivateKey}

/-- The arguments that `sign_registry_checkpoint` accepts. -/
structure CheckpointSigner.IsValid (primitives : Primitives PrivateKey) (now : String)
    (signer : CheckpointSigner PrivateKey) : Prop where
  privateKey : (givenKey? signer.privateKey).isSome = true
  keyId : (unblankText? signer.keyId).isSome = true
  organization : (unblankText? signer.organization).isSome = true
  issuedAt : ∃ issuedAt, checkpointTime primitives now signer.issuedAt = .ok issuedAt

/-- The id that is computed over contents. -/
def checkpointIdOf (primitives : Primitives PrivateKey) (contents : CheckpointContents) :
    Digest :=
  primitives.sha256 contents.unsigned.canonicalBytes

/-- The signed checkpoint with given contents. -/
def signedWith (primitives : Primitives PrivateKey) (key : PrivateKey)
    (contents : CheckpointContents) : Json :=
  contents.complete (checkpointIdOf primitives contents)
    (Base64.encode (primitives.sign key
      (contents.signed (checkpointIdOf primitives contents)).canonicalBytes))

/-- What signing a summary makes of it. -/
theorem signRegistryCheckpoint_eq_ok_iff {summary : Summary} {checkpoint : Json} :
    signRegistryCheckpoint primitives now summary.toJson signer = .ok checkpoint ↔
      ∃ key keyId organization issuedAt, givenKey? signer.privateKey = some key ∧
        unblankText? signer.keyId = some keyId ∧
        unblankText? signer.organization = some organization ∧
        checkpointTime primitives now signer.issuedAt = .ok issuedAt ∧
        checkpoint = signedWith primitives key ⟨summary.toJson, issuedAt, keyId,
          Attestation.publicKeyB64 primitives key, organization⟩ := by
  have hsummary : validateSummary summary.toJson = .ok summary :=
    (validateSummary_eq_ok_iff summary.isCanonical_toJson).mpr rfl
  constructor
  · intro hok
    obtain ⟨_, -, hchecked⟩ := bind_eq_ok hok
    obtain ⟨key, hkey, hkeyed⟩ := orRaise_bind_eq_ok hchecked
    obtain ⟨keyId, hkeyId, hnamed⟩ := orRaise_bind_eq_ok hkeyed
    obtain ⟨organization, horganization, htimed⟩ := orRaise_bind_eq_ok hnamed
    obtain ⟨issuedAt, hissuedAt, hhashed⟩ := bind_eq_ok htimed
    obtain ⟨hashed, hhash, hsigned⟩ := orRaise_bind_eq_ok hhashed
    obtain ⟨message, hmessage, hanswer⟩ := orRaise_bind_eq_ok hsigned
    obtain rfl := Except.ok.inj hanswer
    obtain rfl := canonicalText?_eq_some hhash
    obtain rfl := canonicalText?_eq_some hmessage
    exact ⟨key, keyId, organization, issuedAt, hkey, hkeyId, horganization, hissuedAt, rfl⟩
  · rintro ⟨key, keyId, organization, issuedAt, hkey, hkeyId, horganization, hissuedAt, rfl⟩
    refine bind_eq_ok_iff.mpr ⟨summary, hsummary, ?_⟩
    refine orRaise_bind_eq_ok_iff.mpr ⟨key, hkey, ?_⟩
    refine orRaise_bind_eq_ok_iff.mpr ⟨keyId, hkeyId, ?_⟩
    refine orRaise_bind_eq_ok_iff.mpr ⟨organization, horganization, ?_⟩
    refine bind_eq_ok_iff.mpr ⟨issuedAt, hissuedAt, ?_⟩
    refine orRaise_bind_eq_ok_iff.mpr ⟨_, canonicalText?_of_isFinite
      (CheckpointContents.isFinite_unsigned summary.isFinite_toJson), ?_⟩
    exact orRaise_bind_eq_ok_iff.mpr ⟨_, canonicalText?_of_isFinite
      (CheckpointContents.isFinite_signed summary.isFinite_toJson _), rfl⟩

end Signing

/-! ## Verification -/

section Verifying

variable {PrivateKey : Type} {primitives : Primitives PrivateKey}
  {trustedKeys : String → Option TrustedKey}

/-- The key that a checkpoint names is trusted and belongs to a private key. -/
def TrustsCheckpointSigner (primitives : Primitives PrivateKey)
    (signer : CheckpointSigner PrivateKey) (trustedKeys : String → Option TrustedKey) : Prop :=
  ∀ key keyId, givenKey? signer.privateKey = some key → signer.keyId.text? = some keyId →
    ∃ trusted, trustedKeys keyId = some trusted ∧
      checkpointPublicKeyBytes trusted = some (primitives.publicKey key)

theorem decodeBase64_text {encoded : String} {raw : Octets}
    (hraw : Base64.decode? encoded = some raw) : decodeBase64 (.text encoded) = .ok raw := by
  rw [decodeBase64]
  refine orRaise_bind_eq_ok_iff.mpr ⟨encoded, rfl, ?_⟩
  rw [hraw]
  rfl

theorem decodeBase64_eq_ok {value : Json} {raw : Octets} (hok : decodeBase64 value = .ok raw) :
    ∃ encoded, value = .text encoded ∧ Base64.decode? encoded = some raw := by
  obtain ⟨encoded, htext, hraw⟩ := orRaise_bind_eq_ok hok
  exact ⟨encoded, Json.text?_eq_some_iff.mp htext, orRaise_eq_ok hraw⟩

/-- The values that a registry shares with its summary. -/
theorem checkRegistry_toJson (snapshot : Snapshot) :
    checkRegistry primitives (snapshot.summary primitives.sha256).toJson
      (some (snapshot.toJson primitives.sha256)) = .ok ⟨⟩ := by
  rw [checkRegistry]
  refine bind_eq_ok_iff.mpr ⟨_, snapshot.verifyRegistry_toJson primitives.sha256, ?_⟩
  rw [require, raiseUnless, if_pos ⟨rfl, rfl, rfl, rfl⟩]

/-- A registry that agrees with a summary has the summary. -/
theorem summary_eq_of_checkRegistry {summary : Summary} {snapshot : Snapshot}
    (hok : checkRegistry primitives summary.toJson
      (some (snapshot.toJson primitives.sha256)) = .ok ⟨⟩) :
    summary.registrySha256 = (snapshot.summary primitives.sha256).registrySha256 := by
  obtain ⟨_, -, hchecked⟩ := bind_eq_ok hok
  obtain ⟨-, -, hsha256, -⟩ := raiseUnless_eq_ok hchecked
  exact Digest.text_injective (Json.text.inj hsha256)

/-- A checkpoint that was signed for a registry is accepted with it. -/
theorem verifySignedCheckpoint_signedWith (hcorrect : primitives.Correct) {key : PrivateKey}
    {snapshot : Snapshot} {keyId organization issuedAt : FilledText} {trusted : TrustedKey}
    (htrusted : trustedKeys keyId.text = some trusted)
    (hraw : checkpointPublicKeyBytes trusted = some (primitives.publicKey key))
    (hissuedAt : primitives.isIsoFormat issuedAt.text = true) :
    ∃ report, verifySignedCheckpoint primitives (signedWith primitives key
      ⟨(snapshot.summary primitives.sha256).toJson, issuedAt, keyId,
        Attestation.publicKeyB64 primitives key, organization⟩) trustedKeys
      (some (snapshot.toJson primitives.sha256)) = .ok report := by
  let summary := snapshot.summary primitives.sha256
  let contents : CheckpointContents := ⟨summary.toJson, issuedAt, keyId,
    Attestation.publicKeyB64 primitives key, organization⟩
  have hfinite := summary.isFinite_toJson
  have hvalid : signerAndSignatureValid contents.signer
      ((signedWith primitives key contents).get "signature") = true := by
    have hkeyId : ((contents.signer.get "key_id").text?.bind FilledText.ofText?) = some keyId :=
      FilledText.ofText?_text keyId
    have horganization :
        ((contents.signer.get "organization").text?.bind FilledText.ofText?) =
          some organization :=
      FilledText.ofText?_text organization
    rw [signerAndSignatureValid, hkeyId, horganization]
    rfl
  refine ⟨⟨checkpointIdOf primitives contents, keyId.text, summary⟩, ?_⟩
  refine raiseUnless_bind_eq_ok_iff.mpr ⟨rfl, ?_⟩
  refine raiseUnless_bind_eq_ok_iff.mpr ⟨rfl, ?_⟩
  refine bind_eq_ok_iff.mpr
    ⟨summary, (validateSummary_eq_ok_iff summary.isCanonical_toJson).mpr rfl, ?_⟩
  refine orRaise_bind_eq_ok_iff.mpr ⟨issuedAt, FilledText.ofText?_text issuedAt, ?_⟩
  refine raiseUnless_bind_eq_ok_iff.mpr ⟨hissuedAt, ?_⟩
  refine orRaise_bind_eq_ok_iff.mpr ⟨_, canonicalText?_of_isFinite
    (@CheckpointContents.isFinite_unsigned contents hfinite), ?_⟩
  refine raiseUnless_bind_eq_ok_iff.mpr ⟨rfl, ?_⟩
  refine raiseUnless_bind_eq_ok_iff.mpr ⟨hvalid, ?_⟩
  refine orRaise_bind_eq_ok_iff.mpr ⟨keyId.text, rfl, ?_⟩
  refine orRaise_bind_eq_ok_iff.mpr ⟨trusted, htrusted, ?_⟩
  refine bind_eq_ok_iff.mpr
    ⟨primitives.publicKey key, decodeBase64_text (Base64.decode?_encode _), ?_⟩
  refine orRaise_bind_eq_ok_iff.mpr ⟨primitives.publicKey key, hraw, ?_⟩
  refine bind_eq_ok_iff.mpr ⟨_, decodeBase64_text (Base64.decode?_encode _), ?_⟩
  refine raiseUnless_bind_eq_ok_iff.mpr ⟨⟨hcorrect.length_publicKey key, rfl⟩, ?_⟩
  refine raiseUnless_bind_eq_ok_iff.mpr ⟨hcorrect.length_sign key _, ?_⟩
  refine orRaise_bind_eq_ok_iff.mpr ⟨_, canonicalText?_of_isFinite
    (@CheckpointContents.isFinite_signed contents hfinite _), ?_⟩
  refine raiseUnless_bind_eq_ok_iff.mpr ⟨hcorrect.signatureValid_sign key _, ?_⟩
  exact bind_eq_ok_iff.mpr ⟨⟨⟩, checkRegistry_toJson snapshot, rfl⟩

/-- What an accepted checkpoint says and how it was checked. -/
structure IsAccepted (primitives : Primitives PrivateKey) (checkpoint : Json)
    (contents : CheckpointContents) (summary : Summary) (value : String)
    (rawKey signature : Octets) : Prop where
  registry : contents.registry = summary.toJson
  checkpoint : checkpoint = contents.complete (checkpointIdOf primitives contents) value
  publicKey : Base64.decode? contents.publicKey = some rawKey
  decoded : Base64.decode? value = some signature
  valid : primitives.signatureValid rawKey signature
    (contents.signed (checkpointIdOf primitives contents)).canonicalBytes = true

/-- What is accepted has contents of its own. -/
theorem exists_isAccepted {checkpoint : Json} (hcanonical : checkpoint.IsCanonical)
    {registry : Option Json} {report : CheckpointReport}
    (hok : verifySignedCheckpoint primitives checkpoint trustedKeys registry = .ok report) :
    ∃ contents summary value rawKey signature,
      IsAccepted primitives checkpoint contents summary value rawKey signature ∧
      checkRegistry primitives summary.toJson registry = .ok ⟨⟩ := by
  obtain ⟨hfields, hafterFields⟩ := raiseUnless_bind_eq_ok hok
  obtain ⟨hschema, hafterSchema⟩ := raiseUnless_bind_eq_ok hafterFields
  obtain ⟨summary, hsummary, hafterSummary⟩ := bind_eq_ok hafterSchema
  obtain ⟨issuedAt, hissuedAt, hafterTime⟩ := orRaise_bind_eq_ok hafterSummary
  obtain ⟨-, hafterFormat⟩ := raiseUnless_bind_eq_ok hafterTime
  obtain ⟨hashed, hhashed, hafterHash⟩ := orRaise_bind_eq_ok hafterFormat
  obtain ⟨hid, hafterId⟩ := raiseUnless_bind_eq_ok hafterHash
  obtain ⟨hparts, hafterParts⟩ := raiseUnless_bind_eq_ok hafterId
  obtain ⟨keyId, hkeyId, hafterKeyId⟩ := orRaise_bind_eq_ok hafterParts
  obtain ⟨trustedKey, -, hafterTrust⟩ := orRaise_bind_eq_ok hafterKeyId
  obtain ⟨advertised, hadvertised, hafterKey⟩ := bind_eq_ok hafterTrust
  obtain ⟨trusted, -, hafterTrusted⟩ := orRaise_bind_eq_ok hafterKey
  obtain ⟨signature, hsignature, hafterSignature⟩ := bind_eq_ok hafterTrusted
  obtain ⟨hkeys, hafterKeys⟩ := raiseUnless_bind_eq_ok hafterSignature
  obtain ⟨-, hafterLength⟩ := raiseUnless_bind_eq_ok hafterKeys
  obtain ⟨message, hmessage, hafterMessage⟩ := orRaise_bind_eq_ok hafterLength
  obtain ⟨hvalid, hafterValid⟩ := raiseUnless_bind_eq_ok hafterMessage
  obtain ⟨⟨⟩, hregistry, -⟩ := bind_eq_ok hafterValid
  have hparts' := hparts
  simp only [signerAndSignatureValid, Bool.and_eq_true, decide_eq_true_eq] at hparts'
  obtain ⟨⟨⟨⟨hsignerFields, hnamed⟩, horganized⟩, hsignatureFields⟩, halgorithm⟩ := hparts'
  obtain ⟨filledId, hfilledId⟩ := Option.isSome_iff_exists.mp hnamed
  obtain ⟨organization, horganization⟩ := Option.isSome_iff_exists.mp horganized
  obtain ⟨publicKey, hpublicKey, hrawKey⟩ := decodeBase64_eq_ok hadvertised
  obtain ⟨value, hvalue, hraw⟩ := decodeBase64_eq_ok hsignature
  let contents : CheckpointContents :=
    ⟨summary.toJson, issuedAt, filledId, publicKey, organization⟩
  have hsignerJson : checkpoint.get "signer" = contents.signer := by
    rw [Json.eq_object_of_hasExactly (Json.isCanonical_get hcanonical _) (by decide)
      hsignerFields]
    simp only [signerFields, List.map_cons, List.map_nil, filledText?_eq_some_iff.mp hfilledId,
      filledText?_eq_some_iff.mp horganization, hpublicKey]
    rfl
  have hsignatureJson : checkpoint.get "signature" =
      .object [("algorithm", .text "Ed25519"), ("value", .text value)] := by
    rw [Json.eq_object_of_hasExactly (Json.isCanonical_get hcanonical _) (by decide)
      hsignatureFields]
    simp only [signatureFields, List.map_cons, List.map_nil, halgorithm, hvalue]
  have hcheckpoint :
      checkpoint = contents.complete (primitives.sha256 (utf8 hashed)) value := by
    rw [Json.eq_object_of_hasExactly hcanonical (by decide) hfields]
    simp only [signedCheckpointFields, List.map_cons, List.map_nil, hid, hschema, hsignerJson,
      hsignatureJson, filledText?_eq_some_iff.mp hissuedAt,
      (validateSummary_eq_ok_iff (Json.isCanonical_get hcanonical _)).mp hsummary]
    rfl
  have hidOf : primitives.sha256 (utf8 hashed) = checkpointIdOf primitives contents := by
    rw [canonicalText?_eq_some hhashed, hcheckpoint]
    rfl
  rw [hidOf] at hcheckpoint
  refine ⟨contents, summary, value, trusted, signature,
    ⟨rfl, hcheckpoint, hkeys.2 ▸ hrawKey, hraw, ?_⟩, ?_⟩
  · rw [canonicalText?_eq_some hmessage, hcheckpoint] at hvalid
    exact hvalid
  · rw [(validateSummary_eq_ok_iff (Json.isCanonical_get hcanonical _)).mp hsummary] at hregistry
    exact hregistry

end Verifying

end AegisForge.Shared.AttestationRegistry
