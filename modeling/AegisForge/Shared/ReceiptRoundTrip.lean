import AegisForge.Core.PyDocument
import AegisForge.Shared.AttestationBinding

/-!
# Receipts that are signed and read back

Signing takes an object of the language; it succeeds on documents only, whose signed
bytes survive the trip through JSON.  Whatever else verifies carries a signature of
its own.
-/

namespace AegisForge.Shared.LabExecutionReceipt

open AegisForge.Core
open AttestorRegistry (Bytes)
open IndependentRunnerAttestation (canonicalJson)

/-! ## Signing -/

/-- Ed25519 and SHA-256. -/
structure Signer (PrivateKey : Type) where
  /-- SHA-256 in hexadecimal. -/
  sha256 : Bytes → String
  /-- The raw bytes of the public key. -/
  publicKey : PrivateKey → Bytes
  sign : PrivateKey → Bytes → Bytes
  /-- Whether an Ed25519 signature by a raw public key covers the bytes. -/
  signatureValid : Bytes → Bytes → Bytes → Bool

namespace Signer

variable {PrivateKey : Type} (signer : Signer PrivateKey)

/-- Signatures verify under the key that made them. -/
def Correct : Prop :=
  ∀ key message,
    signer.signatureValid (signer.publicKey key) (signer.sign key message) message = true

/-- A signature of the key verifies under no other trusted key, and for nothing else. -/
def Unforged (key : PrivateKey) (trusted : String → Option Bytes) : Prop :=
  ∀ message keyId rawKey other, trusted keyId = some rawKey →
    signer.signatureValid rawKey (signer.sign key message) other = true →
      rawKey = signer.publicKey key ∧ other = message

/-- What the verifier uses. -/
def primitives : Primitives where
  canonicalJson := canonicalJson
  sha256 := signer.sha256
  decodeBase64 := Base64.decode?
  signatureValid := signer.signatureValid

end Signer

/-- `_validate_json_value`, with the document that the value is. -/
def validateJsonValue (value : PyValue) : Except Raised Json :=
  value.document (receiptError "receipt_json_object_keys_must_be_strings")
    (receiptError "receipt_not_canonicalizable")

/-- `canonical_json`. -/
def canonicalBytes (payload : PyValue) : Except Raised Bytes := do
  raiseUnless (payload.isDict = true) (receiptError "receipt_object_required")
  let document ← validateJsonValue payload
  orRaise (receiptError "receipt_not_canonicalizable") (canonicalJson document)

/-- `type(value) is int and value == 1`. -/
def isIntOne : PyValue → Bool
  | .int value => value = 1
  | _ => false

/-- `isinstance(value, str) and value.strip()`, with the text. -/
def filledText? (value : PyValue) : Option String :=
  value.text?.filter fun text => !isBlank text

/-- `_validate_receipt_shape` of a receipt to be signed, with its canonical bytes. -/
def validateShape (receipt : PyValue) : Except Raised Bytes := do
  raiseUnless (receipt.isDict = true) (receiptError "receipt_object_required")
  raiseUnless (isIntOne (receipt.item "schema_version") = true)
    (receiptError "unsupported_receipt_schema")
  raiseUnless ((receipt.item "receipt_type").text? = some "aegisforge.lab_execution")
    (receiptError "unsupported_receipt_schema")
  raiseUnless ((filledText? (receipt.item "run_id")).isSome = true)
    (receiptError "run_id_required")
  raiseUnless ((filledText? (receipt.item "experiment_id")).isSome = true)
    (receiptError "experiment_id_required")
  raiseUnless ((receipt.item "inputs").isDict = true) (receiptError "inputs_object_required")
  raiseUnless ((receipt.item "execution").isDict = true)
    (receiptError "execution_object_required")
  raiseUnless ((receipt.item "artifacts").isDict = true)
    (receiptError "artifacts_object_required")
  canonicalBytes receipt

/-- The object that `_signature_payload` serializes. -/
def payloadToSign (keyId : String) (receipt : PyValue) (receiptDigest keyDigest : String) :
    PyValue :=
  .record [
    ("domain", .text "aegisforge.lab_execution_receipt.signature.v1"),
    ("schema_version", .int 1),
    ("algorithm", .text "Ed25519"),
    ("key_id", .text keyId),
    ("receipt", receipt),
    ("receipt_sha256", .text receiptDigest),
    ("signer_public_key_sha256", .text keyDigest)]

/-- The envelope that `sign_receipt` answers. -/
def signedEnvelope (keyId : String) (receipt : PyValue)
    (receiptDigest keyDigest signature : String) : PyValue :=
  .record [
    ("schema_version", .int 1),
    ("algorithm", .text "Ed25519"),
    ("key_id", .text keyId),
    ("receipt", receipt),
    ("receipt_sha256", .text receiptDigest),
    ("signer_public_key_sha256", .text keyDigest),
    ("signature", .text signature)]

variable {PrivateKey : Type}

/-- `sign_receipt`, where `none` is no Ed25519 key. -/
def signReceipt (signer : Signer PrivateKey) (receipt : PyValue) (privateKey : Option PrivateKey)
    (keyId : PyValue) : Except Raised PyValue := do
  let key ← orRaise (receiptError "ed25519_private_key_required") privateKey
  let keyId ← orRaise (receiptError "key_id_required") (filledText? keyId)
  let payload ← validateShape receipt
  let receiptDigest := signer.sha256 payload
  let keyDigest := signer.sha256 (signer.publicKey key)
  let message ← canonicalBytes (payloadToSign keyId receipt receiptDigest keyDigest)
  pure (signedEnvelope keyId receipt receiptDigest keyDigest
    (Base64.encode (signer.sign key message)))

/-- `json.dumps` of an envelope. -/
def dumps (ensureAscii : Bool) (envelope : PyValue) : Option (List Char) :=
  (validateJsonValue envelope).toOption.map (Json.encode ensureAscii)

/-! ## What is signed -/

/-- What is signed for a document, with sorted keys. -/
def payloadOf (keyId : String) (receipt : Json) (receiptDigest keyDigest : String) : Json :=
  .object [
    ("algorithm", .text "Ed25519"),
    ("domain", .text "aegisforge.lab_execution_receipt.signature.v1"),
    ("key_id", .text keyId),
    ("receipt", receipt),
    ("receipt_sha256", .text receiptDigest),
    ("schema_version", .int 1),
    ("signer_public_key_sha256", .text keyDigest)]

/-- An envelope as it is read back. -/
def envelopeOf (keyId : String) (receipt : Json) (receiptDigest keyDigest signature : String) :
    Json :=
  .object [
    ("algorithm", .text "Ed25519"),
    ("key_id", .text keyId),
    ("receipt", receipt),
    ("receipt_sha256", .text receiptDigest),
    ("schema_version", .int 1),
    ("signature", .text signature),
    ("signer_public_key_sha256", .text keyDigest)]

theorem canonicalJson_eq_some_iff {value : Json} {bytes : Bytes} :
    canonicalJson value = some bytes ↔ (value.isObject = true ∧ value.isFinite = true) ∧
      utf8 (Json.encode false value.sortKeys) = bytes := by
  rw [canonicalJson, Option.ite_none_right_eq_some, Option.some.injEq]

theorem canonicalBytes_eq_ok_iff {payload : PyValue} {bytes : Bytes} :
    canonicalBytes payload = .ok bytes ↔ payload.isDict = true ∧
      ∃ document, validateJsonValue payload = .ok document ∧
        canonicalJson document = some bytes := by
  rw [canonicalBytes, raiseUnless_bind_eq_ok_iff, bind_eq_ok_iff]
  apply and_congr_right
  intro _
  apply exists_congr
  intro document
  apply and_congr_right
  intro _
  constructor
  · exact orRaise_eq_ok
  · intro hbytes
    rw [hbytes]
    rfl

theorem canonicalJson_sortKeys {document : Json} {bytes : Bytes}
    (hbytes : canonicalJson document = some bytes) :
    canonicalJson document.sortKeys = some bytes := by
  obtain ⟨⟨hobject, hfinite⟩, hwritten⟩ := canonicalJson_eq_some_iff.mp hbytes
  refine canonicalJson_eq_some_iff.mpr ⟨⟨?_, Json.isFinite_sortKeys hfinite⟩, ?_⟩
  · rw [Json.isObject_sortKeys, hobject]
  · rw [Json.sortKeys_of_isCanonical (Json.isCanonical_sortKeys document), hwritten]

/-- The bytes belong to one value only, up to the order of its keys. -/
theorem sortKeys_eq_of_canonicalJson {left right : Json} {bytes : Bytes}
    (hreadable : left.Readable) (hother : right.Readable)
    (hleft : canonicalJson left = some bytes) (hright : canonicalJson right = some bytes) :
    left.sortKeys = right.sortKeys := by
  obtain ⟨-, hwritten⟩ := canonicalJson_eq_some_iff.mp hleft
  obtain ⟨-, hwrittenOther⟩ := canonicalJson_eq_some_iff.mp hright
  have htext := utf8_injective (hwritten.trans hwrittenOther.symm)
  exact Json.eq_of_encode_eq (Json.readable_sortKeys hreadable) (Json.readable_sortKeys hother)
    htext

/-- What the verifier serializes is what was signed, for the envelope's own receipt. -/
theorem canonicalJson_signaturePayload {envelope : Json} {keyId receiptDigest keyDigest : String}
    (halgorithm : envelope.get "algorithm" = .text "Ed25519")
    (hversion : envelope.get "schema_version" = .int 1)
    (hfingerprint : envelope.get "signer_public_key_sha256" = .text keyDigest) :
    canonicalJson (signaturePayload envelope keyId receiptDigest) =
      canonicalJson (payloadOf keyId (envelope.get "receipt") receiptDigest keyDigest) := by
  have hsorted : (signaturePayload envelope keyId receiptDigest).sortKeys =
      (payloadOf keyId (envelope.get "receipt") receiptDigest keyDigest).sortKeys := by
    simp [-String.lt_iff_ltb, signaturePayload, payloadOf, Json.sortKeys, Json.sortFields,
      Json.insertField, halgorithm, hversion, hfingerprint]
  have hfinite : (signaturePayload envelope keyId receiptDigest).isFinite =
      (payloadOf keyId (envelope.get "receipt") receiptDigest keyDigest).isFinite := by
    simp [signaturePayload, payloadOf, Json.isFinite, Json.finiteFields, halgorithm, hversion,
      hfingerprint]
  rw [canonicalJson, canonicalJson, hsorted, hfinite]
  rfl

theorem sortKeys_payloadOf {keyId receiptDigest keyDigest : String} (receipt : Json) :
    (payloadOf keyId receipt receiptDigest keyDigest).sortKeys =
      payloadOf keyId receipt.sortKeys receiptDigest keyDigest := by
  simp [-String.lt_iff_ltb, payloadOf, Json.sortKeys, Json.sortFields, Json.insertField]

/-! ## What is verified -/

/-- The checks that an envelope passed. -/
structure Accepted (primitives : Primitives) (envelope : Json) (trusted : String → Option Bytes)
    (keyId : String) (rawKey payload : Bytes) : Prop where
  isObject : envelope.isObject = true
  schemaVersion : envelope.get "schema_version" = .int 1
  keys : ∀ key, key ∈ envelope.keys ↔ key ∈ envelopeFields
  algorithm : envelope.get "algorithm" = .text "Ed25519"
  signerId : envelope.get "key_id" = .text keyId
  signerKey : trusted keyId = some rawKey
  receipt : validateReceiptShape primitives (envelope.get "receipt") = .ok payload
  receiptSha256 : envelope.get "receipt_sha256" = .text (primitives.sha256 payload)
  signerSha256 :
    envelope.get "signer_public_key_sha256" = .text (primitives.sha256 rawKey)
  covers : signatureCovers primitives envelope rawKey keyId (primitives.sha256 payload) = true

section Verifying

variable {primitives : Primitives} {envelope : Json} {trusted : String → Option Bytes}

theorem isOne_iff {value : Json} : isOne value = true ↔ value = .int 1 := by
  cases value <;> simp [isOne]

theorem isObject_of_validateReceiptShape {receipt : Json} {payload : Bytes}
    (hshaped : validateReceiptShape primitives receipt = .ok payload) : receipt.isObject = true :=
  (raiseUnless_bind_eq_ok hshaped).1

theorem exists_accepted {verified : VerifiedReceipt}
    (hverified : verifySignedReceipt primitives envelope trusted = .ok verified) :
    ∃ keyId rawKey payload, Accepted primitives envelope trusted keyId rawKey payload := by
  simp only [verifySignedReceipt, raiseUnless_bind_eq_ok_iff, orRaise_bind_eq_ok_iff] at hverified
  obtain ⟨hobject, hversion, hkeys, halgorithm, -, keyId, hkeyId, rawKey, htrusted, -, hrest⟩ :=
    hverified
  obtain ⟨payload, hshaped, hrest⟩ := bind_eq_ok hrest
  simp only [raiseUnless_bind_eq_ok_iff] at hrest
  obtain ⟨hdigest, hfingerprint, hcovers, -⟩ := hrest
  exact ⟨keyId, rawKey, payload, hobject, isOne_iff.mp hversion,
    fun key => ⟨hkeys.1 key, hkeys.2 key⟩, Json.text?_eq_some_iff.mp halgorithm,
    Json.text?_eq_some_iff.mp hkeyId, htrusted, hshaped, Json.text?_eq_some_iff.mp hdigest,
    Json.text?_eq_some_iff.mp hfingerprint, hcovers⟩

theorem verifies_of_accepted {keyId : String} {rawKey payload : Bytes}
    (haccepted : Accepted primitives envelope trusted keyId rawKey payload) :
    ∃ verified, verifySignedReceipt primitives envelope trusted = .ok verified := by
  have hsignature : (envelope.get "signature").text?.isSome = true := by
    cases htext : (envelope.get "signature").text? with
    | some text => rfl
    | none =>
        have hcovers := haccepted.covers
        rw [signatureCovers, htext] at hcovers
        cases hcovers
  rw [verifySignedReceipt]
  simp only [raiseUnless_bind_eq_ok_iff, orRaise_bind_eq_ok_iff]
  refine ⟨⟨keyId, primitives.sha256 payload, (envelope.get "receipt").get "run_id",
    (envelope.get "receipt").get "experiment_id"⟩, haccepted.isObject, isOne_iff.mpr haccepted.schemaVersion,
    ⟨fun key hkey => (haccepted.keys key).mp hkey, fun key hkey => (haccepted.keys key).mpr hkey⟩,
    Json.text?_eq_some_iff.mpr haccepted.algorithm, hsignature, keyId,
    Json.text?_eq_some_iff.mpr haccepted.signerId, rawKey, haccepted.signerKey,
    isObject_of_validateReceiptShape haccepted.receipt, ?_⟩
  rw [bind_eq_ok_iff]
  refine ⟨payload, haccepted.receipt, ?_⟩
  simp only [raiseUnless_bind_eq_ok_iff]
  exact ⟨Json.text?_eq_some_iff.mpr haccepted.receiptSha256,
    Json.text?_eq_some_iff.mpr haccepted.signerSha256, haccepted.covers, rfl⟩

end Verifying

/-! ## What was signed -/

/-- The parts of a call of `sign_receipt` that returned. -/
structure IsSigned (signer : Signer PrivateKey) (receipt envelope : PyValue) (key : PrivateKey)
    (keyId : String) (document : Json) (payload message : Bytes) : Prop where
  validated : validateJsonValue receipt = .ok document
  shaped : validateReceiptShape signer.primitives document.sortKeys = .ok payload
  signed : canonicalJson (payloadOf keyId document.sortKeys (signer.sha256 payload)
    (signer.sha256 (signer.publicKey key))) = some message
  answer : envelope = signedEnvelope keyId receipt (signer.sha256 payload)
    (signer.sha256 (signer.publicKey key)) (Base64.encode (signer.sign key message))

section Signing

variable {signer : Signer PrivateKey} {receipt : PyValue} {document : Json}

theorem get_of_isIntOne (hdict : receipt.isDict = true)
    (hdocument : validateJsonValue receipt = .ok document) (honce : receipt.HasKeysOnce)
    {field : String} (hone : isIntOne (receipt.item field) = true) :
    isOne (document.sortKeys.get field) = true := by
  have hitem := PyValue.item_document hdict hdocument field
  rw [Json.get_sortKeys (PyValue.nodup_keys_document honce hdocument)]
  cases hvalue : receipt.item field with
  | int value =>
      rw [hvalue] at hitem hone
      rw [← Except.ok.inj hitem]
      exact hone
  | _ =>
      rw [hvalue] at hone
      cases hone

theorem text?_get (hdict : receipt.isDict = true)
    (hdocument : validateJsonValue receipt = .ok document) (honce : receipt.HasKeysOnce)
    (field : String) : (document.sortKeys.get field).text? = (receipt.item field).text? := by
  rw [Json.get_sortKeys (PyValue.nodup_keys_document honce hdocument), Json.text?_sortKeys]
  exact PyValue.text?_document (PyValue.item_document hdict hdocument field)

theorem isObject_get (hdict : receipt.isDict = true)
    (hdocument : validateJsonValue receipt = .ok document) (honce : receipt.HasKeysOnce)
    {field : String} (hfield : (receipt.item field).isDict = true) :
    (document.sortKeys.get field).isObject = true := by
  rw [Json.get_sortKeys (PyValue.nodup_keys_document honce hdocument), Json.isObject_sortKeys]
  exact PyValue.isObject_document hfield (PyValue.item_document hdict hdocument field)

/-- The shape of a receipt is that of its document. -/
theorem exists_document_of_validateShape {payload : Bytes}
    (hshaped : validateShape receipt = .ok payload) (honce : receipt.HasKeysOnce) :
    ∃ document, validateJsonValue receipt = .ok document ∧
      validateReceiptShape signer.primitives document.sortKeys = .ok payload := by
  simp only [validateShape, raiseUnless_bind_eq_ok_iff, canonicalBytes_eq_ok_iff] at hshaped
  obtain ⟨hdict, hversion, htype, hrun, hexperiment, hinputs, hexecution, hartifacts, -, document,
    hdocument, hbytes⟩ := hshaped
  refine ⟨document, hdocument, ?_⟩
  simp only [validateReceiptShape, raiseUnless_bind_eq_ok_iff, Json.filledText?,
    text?_get hdict hdocument honce]
  refine ⟨?_, get_of_isIntOne hdict hdocument honce hversion, htype, hrun, hexperiment,
    isObject_get hdict hdocument honce hinputs, isObject_get hdict hdocument honce hexecution,
    isObject_get hdict hdocument honce hartifacts, ?_⟩
  · rw [Json.isObject_sortKeys]
    exact PyValue.isObject_document hdict hdocument
  · have hsorted : signer.primitives.canonicalJson document.sortKeys = some payload :=
      canonicalJson_sortKeys hbytes
    rw [hsorted]
    rfl

/-- The bytes that are signed are those of the document. -/
theorem canonicalBytes_payloadToSign (hdocument : validateJsonValue receipt = .ok document)
    {keyId receiptDigest keyDigest : String} {message : Bytes}
    (hmessage : canonicalBytes (payloadToSign keyId receipt receiptDigest keyDigest) =
      .ok message) :
    canonicalJson (payloadOf keyId document.sortKeys receiptDigest keyDigest) = some message := by
  obtain ⟨-, written, hwritten, hbytes⟩ := canonicalBytes_eq_ok_iff.mp hmessage
  have hfields : validateJsonValue (payloadToSign keyId receipt receiptDigest keyDigest) =
      .ok (.object [
        ("domain", .text "aegisforge.lab_execution_receipt.signature.v1"),
        ("schema_version", .int 1),
        ("algorithm", .text "Ed25519"),
        ("key_id", .text keyId),
        ("receipt", document),
        ("receipt_sha256", .text receiptDigest),
        ("signer_public_key_sha256", .text keyDigest)]) := by
    apply PyValue.document_record
    simp only [List.forall₂_cons, List.forall₂_nil_right_iff, and_true, true_and]
    exact ⟨rfl, rfl, rfl, rfl, hdocument, rfl, rfl⟩
  obtain rfl := Except.ok.inj (hwritten.symm.trans hfields)
  have hsorted := canonicalJson_sortKeys hbytes
  simpa [-String.lt_iff_ltb, Json.sortKeys, Json.sortFields, Json.insertField, payloadOf]
    using hsorted

theorem exists_isSigned {privateKey : Option PrivateKey} {keyId envelope : PyValue}
    (honce : receipt.HasKeysOnce)
    (hsigned : signReceipt signer receipt privateKey keyId = .ok envelope) :
    ∃ key keyText document payload message, privateKey = some key ∧
      keyId.text? = some keyText ∧
        IsSigned signer receipt envelope key keyText document payload message := by
  obtain ⟨key, hkey, hnamed⟩ := orRaise_bind_eq_ok hsigned
  obtain ⟨keyText, hkeyText, hshaped⟩ := orRaise_bind_eq_ok hnamed
  obtain ⟨payload, hpayload, hbuilt⟩ := bind_eq_ok hshaped
  obtain ⟨message, hmessage, hanswer⟩ := bind_eq_ok hbuilt
  obtain ⟨document, hdocument, hshape⟩ : ∃ document, validateJsonValue receipt = .ok document ∧
      validateReceiptShape signer.primitives document.sortKeys = .ok payload :=
    exists_document_of_validateShape hpayload honce
  exact ⟨key, keyText, document, payload, message, hkey, (Option.filter_eq_some_iff.mp hkeyText).1,
    hdocument, hshape, canonicalBytes_payloadToSign hdocument hmessage,
    (Except.ok.inj hanswer).symm⟩

/-! ## The round trip -/

variable {envelope : PyValue} {key : PrivateKey} {keyId : String} {payload message : Bytes}

/-- The envelope that is read back. -/
def parsedEnvelope (signer : Signer PrivateKey) (key : PrivateKey) (keyId : String)
    (document : Json) (payload message : Bytes) : Json :=
  envelopeOf keyId document.sortKeys (signer.sha256 payload)
    (signer.sha256 (signer.publicKey key)) (Base64.encode (signer.sign key message))

theorem loads_dumps (hsigned : IsSigned signer receipt envelope key keyId document payload message)
    (ensureAscii : Bool) :
    (dumps ensureAscii envelope).bind Json.loads =
      some (parsedEnvelope signer key keyId document payload message) := by
  have hwritten : validateJsonValue envelope = .ok (.object [
      ("schema_version", .int 1),
      ("algorithm", .text "Ed25519"),
      ("key_id", .text keyId),
      ("receipt", document),
      ("receipt_sha256", .text (signer.sha256 payload)),
      ("signer_public_key_sha256", .text (signer.sha256 (signer.publicKey key))),
      ("signature", .text (Base64.encode (signer.sign key message)))]) := by
    rw [hsigned.answer]
    apply PyValue.document_record
    simp only [List.forall₂_cons, List.forall₂_nil_right_iff, and_true, true_and]
    exact ⟨rfl, rfl, rfl, hsigned.validated, rfl, rfl, rfl⟩
  rw [dumps, hwritten, Except.toOption, Option.map_some, Option.bind_some,
    Json.loads_encode ensureAscii (PyValue.readable_document hwritten)]
  simp [-String.lt_iff_ltb, Json.sortKeys, Json.sortFields, Json.insertField, parsedEnvelope,
    envelopeOf]

theorem keys_envelopeOf {receipt : Json} {receiptDigest keyDigest signature : String}
    (field : String) :
    field ∈ (envelopeOf keyId receipt receiptDigest keyDigest signature).keys ↔
      field ∈ envelopeFields := by
  have hperm : (envelopeOf keyId receipt receiptDigest keyDigest signature).keys.Perm
      envelopeFields := by
    change List.Perm ["algorithm", "key_id", "receipt", "receipt_sha256", "schema_version",
      "signature", "signer_public_key_sha256"] envelopeFields
    decide
  exact hperm.mem_iff

/-- What is read back passes every check where the signer's key is trusted. -/
theorem accepted_parsedEnvelope (hcorrect : signer.Correct)
    (hsigned : IsSigned signer receipt envelope key keyId document payload message)
    {trusted : String → Option Bytes} (htrusted : trusted keyId = some (signer.publicKey key)) :
    Accepted signer.primitives (parsedEnvelope signer key keyId document payload message) trusted
      keyId (signer.publicKey key) payload where
  isObject := rfl
  schemaVersion := rfl
  keys := keys_envelopeOf
  algorithm := rfl
  signerId := rfl
  signerKey := htrusted
  receipt := hsigned.shaped
  receiptSha256 := rfl
  signerSha256 := rfl
  covers := by
    let parsed := parsedEnvelope signer key keyId document payload message
    have hdecoded : (parsed.get "signature").text?.bind Base64.decode? =
        some (signer.sign key message) := Base64.decode?_encode _
    have hpayload : canonicalJson (signaturePayload parsed keyId (signer.sha256 payload)) =
        some message :=
      (canonicalJson_signaturePayload rfl rfl rfl).trans hsigned.signed
    rw [signatureCovers]
    simp only [Signer.primitives]
    rw [hdecoded, hpayload]
    exact hcorrect key message

/-! ## What else verifies -/

/-- The signature of an envelope covers what it states, under a trusted key. -/
def CarriesSignature (signer : Signer PrivateKey) (trusted : String → Option Bytes)
    (envelope : Json) (signature : Bytes) : Prop :=
  (envelope.get "signature").text?.bind Base64.decode? = some signature ∧
    ∃ keyId rawKey receiptDigest message, trusted keyId = some rawKey ∧
      envelope.get "key_id" = .text keyId ∧ envelope.get "receipt_sha256" = .text receiptDigest ∧
        canonicalJson (signaturePayload envelope keyId receiptDigest) = some message ∧
          signer.signatureValid rawKey signature message = true

/-- `verify_signed_receipt` raises. -/
def Rejects (signer : Signer PrivateKey) (trusted : String → Option Bytes) (envelope : Json) :
    Prop :=
  ∃ error, verifySignedReceipt signer.primitives envelope trusted = .error error

variable {trusted : String → Option Bytes} {changed : Json} {signature : Bytes}

theorem rejects_or_accepted : Rejects signer trusted changed ∨
    ∃ keyId rawKey payload, Accepted signer.primitives changed trusted keyId rawKey payload := by
  rw [Rejects]
  cases hverified : verifySignedReceipt signer.primitives changed trusted with
  | error error => exact Or.inl ⟨error, rfl⟩
  | ok verified => exact Or.inr (exists_accepted hverified)

theorem exists_signature {rawKey : Bytes}
    (haccepted : Accepted signer.primitives changed trusted keyId rawKey payload) :
    ∃ signature message,
      (changed.get "signature").text?.bind Base64.decode? = some signature ∧
        canonicalJson (signaturePayload changed keyId (signer.sha256 payload)) = some message ∧
          signer.signatureValid rawKey signature message = true := by
  have hcovers := haccepted.covers
  simp only [signatureCovers, Signer.primitives, Option.any_eq_true] at hcovers
  obtain ⟨signature, hsignature, message, hmessage, hvalid⟩ := hcovers
  exact ⟨signature, message, hsignature, hmessage, hvalid⟩

theorem readable_payloadOf {receiptDigest keyDigest : String} {receipt : Json}
    (hreadable : receipt.Readable) :
    (payloadOf keyId receipt receiptDigest keyDigest).Readable := by
  simpa [payloadOf, Json.Readable, Json.ReadableFields] using hreadable

/-- The bytes that are signed fix every field of an envelope but the signature. -/
theorem get_eq_of_message (hsigned : IsSigned signer receipt envelope key keyId document payload
      message) {otherId : String} {otherPayload : Bytes}
    (haccepted : Accepted signer.primitives changed trusted otherId (signer.publicKey key)
      otherPayload)
    (hcanonical : changed.IsCanonical) (hreadable : changed.Readable)
    (hmessage : canonicalJson (signaturePayload changed otherId (signer.sha256 otherPayload)) =
      some message) {field : String} (hfield : field ≠ "signature") :
    changed.get? field = (parsedEnvelope signer key keyId document payload message).get? field := by
  have hdocument : document.sortKeys.Readable :=
    Json.readable_sortKeys (PyValue.readable_document hsigned.validated)
  rw [canonicalJson_signaturePayload haccepted.algorithm haccepted.schemaVersion
    haccepted.signerSha256] at hmessage
  have hsorted := sortKeys_eq_of_canonicalJson
    (readable_payloadOf (Json.readable_get hreadable "receipt")) (readable_payloadOf hdocument)
    hmessage hsigned.signed
  rw [sortKeys_payloadOf, sortKeys_payloadOf,
    Json.sortKeys_of_isCanonical (Json.isCanonical_get hcanonical "receipt"),
    Json.sortKeys_of_isCanonical (Json.isCanonical_sortKeys document)] at hsorted
  simp only [payloadOf, Json.object.injEq, List.cons.injEq, Prod.mk.injEq, Json.text.injEq,
    true_and, and_true] at hsorted
  obtain ⟨hkeyId, hreceipt, hdigest, -⟩ := hsorted
  let parsed := parsedEnvelope signer key keyId document payload message
  have hparsed : ∀ name, name ∈ parsed.keys ↔ name ∈ envelopeFields := keys_envelopeOf
  by_cases hmem : field ∈ envelopeFields
  · rw [Json.get?_eq_some_get ((haccepted.keys field).mpr hmem),
      Json.get?_eq_some_get ((hparsed field).mpr hmem)]
    simp only [envelopeFields, List.mem_cons, List.not_mem_nil, or_false] at hmem
    congr 1
    rcases hmem with rfl | rfl | rfl | rfl | rfl | rfl | rfl
    · exact haccepted.schemaVersion
    · exact haccepted.algorithm
    · exact haccepted.signerId.trans (congrArg Json.text hkeyId)
    · exact hreceipt
    · exact haccepted.receiptSha256.trans (congrArg Json.text hdigest)
    · exact haccepted.signerSha256
    · exact absurd rfl hfield
  · rw [Json.get?_eq_none fun hkey => hmem ((haccepted.keys field).mp hkey),
      Json.get?_eq_none fun hkey => hmem ((hparsed field).mp hkey)]

/-- A changed envelope is rejected unless it carries a signature under a trusted key, which
is another one unless nothing but the text of the signature was changed. -/
theorem rejects_or_carriesSignature
    (hsigned : IsSigned signer receipt envelope key keyId document payload message)
    (hunforged : signer.Unforged key trusted) (hcanonical : changed.IsCanonical)
    (hreadable : changed.Readable) {field : String}
    (hchanged : changed.get? field ≠
      (parsedEnvelope signer key keyId document payload message).get? field) :
    Rejects signer trusted changed ∨ ∃ signature,
      CarriesSignature signer trusted changed signature ∧
        (field ≠ "signature" → signature ≠ signer.sign key message) := by
  rcases rejects_or_accepted with hrejects | ⟨otherId, rawKey, otherPayload, haccepted⟩
  · exact Or.inl hrejects
  obtain ⟨signature, otherMessage, hsignature, hmessage, hvalid⟩ := exists_signature haccepted
  refine Or.inr ⟨signature, ⟨hsignature, otherId, rawKey, _, otherMessage, haccepted.signerKey,
    haccepted.signerId, haccepted.receiptSha256, hmessage, hvalid⟩, ?_⟩
  rintro hfield rfl
  obtain ⟨rfl, rfl⟩ := hunforged message otherId rawKey otherMessage haccepted.signerKey hvalid
  exact hchanged (get_eq_of_message hsigned haccepted hcanonical hreadable hmessage hfield)

end Signing

namespace RoundTripSample

def publicKey : Bytes :=
  [3, 161, 7, 191, 243, 206, 16, 190, 29, 112, 221, 24, 231, 75, 192, 153, 103, 228, 214, 48, 155,
    165, 13, 95, 29, 220, 134, 100, 18, 85, 49, 184]

def receiptSignature : Bytes :=
  [171, 50, 6, 61, 147, 96, 107, 241, 156, 191, 109, 196, 222, 235, 102, 202, 94, 144, 172, 29,
    43, 211, 62, 64, 113, 220, 204, 17, 13, 230, 230, 156, 181, 192, 103, 199, 189, 195, 33, 97,
    176, 229, 149, 9, 185, 29, 66, 10, 116, 29, 72, 98, 106, 141, 75, 101, 32, 43, 169, 119, 5,
    174, 164, 6]

def labReceipt : PyValue :=
  .record [
    ("schema_version", .int 1),
    ("receipt_type", .text "aegisforge.lab_execution"),
    ("run_id", .text "run-1"),
    ("experiment_id", .text "check-v1"),
    ("inputs", .record [("seed", .int 7)]),
    ("execution", .record [("exit_code", .int 0)]),
    ("artifacts", .dict [])]

/-- What is signed for the receipt. -/
def receiptMessage : Bytes :=
  let payload := ((validateShape labReceipt).toOption).getD []
  ((canonicalBytes (payloadToSign "key-1" labReceipt (Sha256.sha256 payload).text
    (Sha256.sha256 publicKey).text)).toOption).getD []

/-- The signature of the receipt, and one of its own for every other message. -/
def sign (signed : Bytes) : Bytes :=
  if signed = receiptMessage then receiptSignature else 0 :: signed

def runner : Signer Unit where
  sha256 bytes := (Sha256.sha256 bytes).text
  publicKey _ := publicKey
  sign _ := sign
  signatureValid rawKey value signed := rawKey = publicKey && value = sign signed

theorem sign_injective : Function.Injective sign := by
  intro left right hsame
  rw [sign, sign] at hsame
  split at hsame <;> split at hsame
  case isTrue.isTrue hleft hright => exact hleft.trans hright.symm
  case isTrue.isFalse => cases hsame
  case isFalse.isTrue => cases hsame
  case isFalse.isFalse => exact (List.cons.inj hsame).2

theorem runner_correct : runner.Correct := by
  intro key signed
  simp [runner]

theorem runner_unforged (trusted : String → Option Bytes) : runner.Unforged () trusted := by
  intro signed keyId rawKey other _ hvalid
  simp only [runner, Bool.and_eq_true, decide_eq_true_eq] at hvalid
  exact ⟨hvalid.1, (sign_injective hvalid.2).symm⟩

theorem hasKeysOnce_labReceipt : labReceipt.HasKeysOnce := by
  change (List.map Prod.fst _).Nodup
  simp

theorem exists_envelope :
    ∃ envelope, signReceipt runner labReceipt (some ()) (.text "key-1") = .ok envelope := by
  have hsome : (signReceipt runner labReceipt (some ()) (.text "key-1")).toOption.isSome = true :=
    by decide +kernel
  obtain ⟨envelope, henvelope⟩ := Option.isSome_iff_exists.mp hsome
  exact ⟨envelope, eq_ok_of_toOption henvelope⟩

/-- The runner's key is pinned. -/
def pinned (keyId : String) : Option Bytes := if keyId = "key-1" then some publicKey else none

end RoundTripSample

end AegisForge.Shared.LabExecutionReceipt
