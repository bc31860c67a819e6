import AegisForge.Shared.Attestation

/-!
# What an attestation is written as

Signing builds objects of the language; what it signs and what is read back are
dictionaries with the same contents.
-/

namespace AegisForge.Shared.Attestation

open AegisForge.Core

/-- What an attestation says. -/
structure Contents where
  case : Json
  finding : Json
  reproduction : Json
  verdict : Verdict
  rationale : String
  issuedAt : FilledText
  keyId : FilledText
  publicKey : String
  organization : FilledText

namespace Contents

variable (contents : Contents)

def signer : Json :=
  .object [("key_id", .text contents.keyId.text),
    ("organization", .text contents.organization.text), ("public_key", .text contents.publicKey)]

def signature (value : String) : Json :=
  .object [("algorithm", .text signatureAlgorithm), ("value", .text value)]

def unsigned : Json :=
  .object [("case_ref", contents.case), ("finding_ref", contents.finding),
    ("issued_at", .text contents.issuedAt.text), ("reproduction", contents.reproduction),
    ("schema_version", .text schemaVersion), ("signer", contents.signer),
    ("verdict", .text contents.verdict.text), ("verdict_rationale", .text contents.rationale)]

def signed (attestationId : Digest) : Json :=
  .object [("attestation_id", .text attestationId.text), ("case_ref", contents.case),
    ("finding_ref", contents.finding), ("issued_at", .text contents.issuedAt.text),
    ("reproduction", contents.reproduction), ("schema_version", .text schemaVersion),
    ("signer", contents.signer), ("verdict", .text contents.verdict.text),
    ("verdict_rationale", .text contents.rationale)]

def complete (attestationId : Digest) (value : String) : Json :=
  .object [("attestation_id", .text attestationId.text), ("case_ref", contents.case),
    ("finding_ref", contents.finding), ("issued_at", .text contents.issuedAt.text),
    ("reproduction", contents.reproduction), ("schema_version", .text schemaVersion),
    ("signature", signature value), ("signer", contents.signer),
    ("verdict", .text contents.verdict.text), ("verdict_rationale", .text contents.rationale)]

/-- The contents that are read back. -/
def sortKeys : Contents :=
  { contents with
    case := contents.case.sortKeys
    finding := contents.finding.sortKeys
    reproduction := contents.reproduction.sortKeys }

def IsCanonical : Prop :=
  contents.case.IsCanonical ∧ contents.finding.IsCanonical ∧ contents.reproduction.IsCanonical

def IsReadable : Prop :=
  (contents.case.Readable ∧ contents.finding.Readable ∧ contents.reproduction.Readable) ∧
    contents.case.isFinite = true ∧ contents.finding.isFinite = true ∧
    contents.reproduction.isFinite = true

variable {contents}

theorem sortKeys_eq_self_iff : contents.sortKeys = contents ↔ contents.IsCanonical := by
  rw [IsCanonical, ← Json.sortKeys_eq_self_iff, ← Json.sortKeys_eq_self_iff,
    ← Json.sortKeys_eq_self_iff]
  constructor
  · intro hsame
    exact ⟨congrArg Contents.case hsame, congrArg Contents.finding hsame,
      congrArg Contents.reproduction hsame⟩
  · rintro ⟨hcase, hfinding, hreproduction⟩
    rw [sortKeys, hcase, hfinding, hreproduction]

theorem unsignedJson_complete (attestationId : Digest) (value : String) :
    unsignedJson (contents.complete attestationId value) = contents.unsigned :=
  rfl

theorem signedJson_complete (attestationId : Digest) (value : String) :
    signedJson (contents.complete attestationId value) = contents.signed attestationId :=
  rfl

theorem sortKeys_signer : contents.signer.sortKeys = contents.signer :=
  Json.sortKeys_object ["key_id", "organization", "public_key"] rfl (by decide)

theorem sortKeys_signature (value : String) : (signature value).sortKeys = signature value :=
  Json.sortKeys_object ["algorithm", "value"] rfl (by decide)

theorem sortKeys_complete (attestationId : Digest) (value : String) :
    (contents.complete attestationId value).sortKeys =
      contents.sortKeys.complete attestationId value := by
  rw [complete, Json.sortKeys_object ["attestation_id", "case_ref", "finding_ref", "issued_at",
    "reproduction", "schema_version", "signature", "signer", "verdict", "verdict_rationale"] rfl
    (by decide)]
  simp only [List.map_cons, List.map_nil, sortKeys_signer, sortKeys_signature]
  rfl

theorem sortKeys_unsigned : contents.unsigned.sortKeys = contents.sortKeys.unsigned := by
  rw [unsigned, Json.sortKeys_object ["case_ref", "finding_ref", "issued_at", "reproduction",
    "schema_version", "signer", "verdict", "verdict_rationale"] rfl (by decide)]
  simp only [List.map_cons, List.map_nil, sortKeys_signer]
  rfl

theorem readable_unsigned (hreadable : contents.IsReadable) : contents.unsigned.Readable := by
  simpa [unsigned, signer, Json.Readable, Json.ReadableFields] using hreadable.1

theorem readable_signed (hreadable : contents.IsReadable) (attestationId : Digest) :
    (contents.signed attestationId).Readable := by
  simpa [signed, signer, Json.Readable, Json.ReadableFields] using hreadable.1

theorem readable_complete (hreadable : contents.IsReadable) (attestationId : Digest)
    (value : String) : (contents.complete attestationId value).Readable := by
  simpa [complete, signer, signature, Json.Readable, Json.ReadableFields] using hreadable.1

theorem isFinite_unsigned (hreadable : contents.IsReadable) :
    contents.unsigned.isFinite = true := by
  simpa [unsigned, signer, Json.isFinite, Json.finiteFields] using hreadable.2

theorem isFinite_signed (hreadable : contents.IsReadable) (attestationId : Digest) :
    (contents.signed attestationId).isFinite = true := by
  simpa [signed, signer, Json.isFinite, Json.finiteFields] using hreadable.2

theorem isFinite_complete (hreadable : contents.IsReadable) (attestationId : Digest)
    (value : String) : (contents.complete attestationId value).isFinite = true := by
  simpa [complete, signer, signature, Json.isFinite, Json.finiteFields] using hreadable.2

theorem readable_sortKeys (hreadable : contents.IsReadable) :
    contents.sortKeys.unsigned.Readable := by
  rw [← sortKeys_unsigned]
  exact Json.readable_sortKeys (readable_unsigned hreadable)

/-- What is hashed fixes the contents. -/
theorem eq_of_unsigned_eq {left right : Contents} (hunsigned : left.unsigned = right.unsigned) :
    left.case = right.case ∧ left.finding = right.finding ∧
      left.reproduction = right.reproduction := by
  simp only [unsigned, Json.object.injEq, List.cons.injEq, Prod.mk.injEq] at hunsigned
  exact ⟨hunsigned.1.2, hunsigned.2.1.2, hunsigned.2.2.2.1.2⟩

end Contents

/-! ## Signing -/

section Signing

variable {PrivateKey : Type} {primitives : Primitives PrivateKey} {now : String}
  {request : Request PrivateKey} {attestation : Attestation}

/-- What the checks of a request leave behind. -/
structure IsValidated (request : Request PrivateKey) (statement : Statement) : Prop where
  caseRef : request.caseRef.hasKeys caseFields = true
  reproduction : request.reproduction.hasKeys reproductionFields = true
  caseDigest : isSha256 (request.caseRef.item "case_digest") = true
  artifacts : ((request.reproduction.item "artifacts").list?).isSome = true
  keyId : filledText? request.keyId = some statement.keyId

theorem isValidated_of_ok {statement : Statement}
    (hok : validateConstruction request = .ok statement) : IsValidated request statement := by
  obtain ⟨hcase, hafterCase⟩ := raiseUnless_bind_eq_ok hok
  obtain ⟨-, hafterFinding⟩ := raiseUnless_bind_eq_ok hafterCase
  obtain ⟨hreproduction, hafterReproduction⟩ := raiseUnless_bind_eq_ok hafterFinding
  obtain ⟨hdigests, hafterDigests⟩ := raiseUnless_bind_eq_ok hafterReproduction
  obtain ⟨-, hafterContract⟩ := raiseUnless_bind_eq_ok hafterDigests
  obtain ⟨-, hafterLocations⟩ := raiseUnless_bind_eq_ok hafterContract
  obtain ⟨-, hafterCommands⟩ := raiseUnless_bind_eq_ok hafterLocations
  obtain ⟨-, hafterEnvironment⟩ := raiseUnless_bind_eq_ok hafterCommands
  obtain ⟨hartifacts, hafterArtifacts⟩ := raiseUnless_bind_eq_ok hafterEnvironment
  obtain ⟨-, hafterNetwork⟩ := raiseUnless_bind_eq_ok hafterArtifacts
  obtain ⟨-, hafterExit⟩ := raiseUnless_bind_eq_ok hafterNetwork
  obtain ⟨verdict, -, hafterVerdict⟩ := orRaise_bind_eq_ok hafterExit
  obtain ⟨rationale, -, hafterRationale⟩ := orRaise_bind_eq_ok hafterVerdict
  obtain ⟨-, hafterLength⟩ := raiseUnless_bind_eq_ok hafterRationale
  obtain ⟨keyId, hkeyId, hafterKeyId⟩ := orRaise_bind_eq_ok hafterLength
  obtain ⟨organization, -, hanswer⟩ := orRaise_bind_eq_ok hafterKeyId
  obtain rfl := Except.ok.inj hanswer
  exact ⟨hcase, hreproduction, hdigests.1, hartifacts, hkeyId⟩

/-- The id that is computed over contents. -/
def idOf (primitives : Primitives PrivateKey) (contents : Contents) : Digest :=
  primitives.sha256 contents.unsigned.canonicalBytes

/-- The signature over contents as it is written. -/
def signatureOf (primitives : Primitives PrivateKey) (key : PrivateKey) (contents : Contents) :
    String :=
  Base64.encode
    (primitives.sign key (contents.signed (idOf primitives contents)).canonicalBytes)

/-- The contents of a request under a key. -/
structure IsContents (primitives : Primitives PrivateKey) (request : Request PrivateKey)
    (key : PrivateKey) (contents : Contents) : Prop where
  held : privateKey primitives request.privateKey = .ok key
  case : request.caseRef.tree = some contents.case
  finding : request.findingRef.tree = some contents.finding
  reproduction : request.reproduction.tree = some contents.reproduction
  keyId : filledText? request.keyId = some contents.keyId
  publicKey : contents.publicKey = publicKeyB64 primitives key

theorem IsContents.isReadable {key : PrivateKey} {contents : Contents}
    (hcontents : IsContents primitives request key contents) : contents.IsReadable := by
  obtain ⟨hcase, hcaseFinite⟩ := PyValue.readable_tree hcontents.case
  obtain ⟨hfinding, hfindingFinite⟩ := PyValue.readable_tree hcontents.finding
  obtain ⟨hreproduction, hreproductionFinite⟩ := PyValue.readable_tree hcontents.reproduction
  exact ⟨⟨hcase, hfinding, hreproduction⟩, hcaseFinite, hfindingFinite, hreproductionFinite⟩

/-- In the dictionaries of a request the sorted keys are in the order of their texts. -/
def KeysInTextOrder (request : Request PrivateKey) : Prop :=
  request.caseRef.KeysInTextOrder ∧ request.findingRef.KeysInTextOrder ∧
    request.reproduction.KeysInTextOrder

instance : Decidable (KeysInTextOrder request) :=
  inferInstanceAs (Decidable (_ ∧ _ ∧ _))

theorem IsContents.isCanonical_iff {key : PrivateKey} {contents : Contents}
    (hcontents : IsContents primitives request key contents) :
    contents.IsCanonical ↔ KeysInTextOrder request := by
  rw [Contents.IsCanonical, KeysInTextOrder, PyValue.isCanonical_tree_iff hcontents.case,
    PyValue.isCanonical_tree_iff hcontents.finding,
    PyValue.isCanonical_tree_iff hcontents.reproduction]

/-- The signer of a payload as it is written. -/
theorem tree_signer (keyId publicKey organization : String) :
    (PyValue.record [("key_id", .text keyId), ("public_key", .text publicKey),
      ("organization", .text organization)]).tree =
      some (.object [("key_id", .text keyId), ("organization", .text organization),
        ("public_key", .text publicKey)]) :=
  PyValue.tree_record ["key_id", "public_key", "organization"]
    ["key_id", "organization", "public_key"] rfl (by decide) (by decide)

/-- The contents of a payload with the given trees. -/
def contentsOf (primitives : Primitives PrivateKey) (statement : Statement)
    (issuedAt : FilledText) (key : PrivateKey) (case finding reproduction : Json) : Contents :=
  ⟨case, finding, reproduction, statement.verdict, statement.rationale, issuedAt,
    statement.keyId, publicKeyB64 primitives key, statement.organization⟩

/-- The payload that is hashed, from the trees of its parts. -/
theorem tree_payloadFields {statement : Statement} {issuedAt : FilledText} {key : PrivateKey}
    {written : Json}
    (hwritten : (PyValue.record (payloadFields primitives request statement issuedAt key)).tree =
      some written) :
    ∃ case finding reproduction, request.caseRef.tree = some case ∧
      request.findingRef.tree = some finding ∧
      request.reproduction.tree = some reproduction ∧
      written =
        (contentsOf primitives statement issuedAt key case finding reproduction).unsigned := by
  rw [PyValue.tree_record ["schema_version", "case_ref", "finding_ref", "reproduction", "verdict",
    "verdict_rationale", "issued_at", "signer"] ["case_ref", "finding_ref", "issued_at",
    "reproduction", "schema_version", "signer", "verdict", "verdict_rationale"] rfl (by decide)
    (by decide), Option.map_eq_some_iff] at hwritten
  obtain ⟨trees, htrees, rfl⟩ := hwritten
  simp only [payloadFields, List.map_cons, List.map_nil, PyValue.treeItems, PyValue.tree,
    tree_signer, Option.bind_eq_bind, Option.bind_some, Option.bind_eq_some_iff,
    Option.some.injEq] at htrees
  obtain ⟨_, ⟨case, hcase, _, ⟨finding, hfinding, _, ⟨reproduction, hreproduction, rfl⟩, rfl⟩,
    rfl⟩, rfl⟩ := htrees
  exact ⟨case, finding, reproduction, hcase, hfinding, hreproduction, rfl⟩

section Payloads

variable {statement : Statement} {issuedAt : FilledText} {key : PrivateKey}
  {case finding reproduction : Json}

theorem tree_named (hcase : request.caseRef.tree = some case)
    (hfinding : request.findingRef.tree = some finding)
    (hreproduction : request.reproduction.tree = some reproduction) (attestationId : Digest) :
    (PyValue.record (payloadFields primitives request statement issuedAt key ++
      [("attestation_id", .text attestationId.text)])).tree =
      some ((contentsOf primitives statement issuedAt key case finding reproduction).signed
        attestationId) := by
  rw [PyValue.tree_record ["schema_version", "case_ref", "finding_ref", "reproduction", "verdict",
    "verdict_rationale", "issued_at", "signer", "attestation_id"] ["attestation_id", "case_ref",
    "finding_ref", "issued_at", "reproduction", "schema_version", "signer", "verdict",
    "verdict_rationale"] rfl (by decide) (by decide)]
  simp only [payloadFields, List.cons_append, List.nil_append, List.map_cons, List.map_nil,
    PyValue.treeItems, PyValue.tree, tree_signer, hcase, hfinding, hreproduction,
    Option.bind_eq_bind, Option.bind_some, Option.map_some]
  rfl

theorem tree_complete (hcase : request.caseRef.tree = some case)
    (hfinding : request.findingRef.tree = some finding)
    (hreproduction : request.reproduction.tree = some reproduction) (attestationId : Digest)
    (value : String) :
    (PyValue.record ((payloadFields primitives request statement issuedAt key ++
      [("attestation_id", .text attestationId.text)]) ++
      [("signature", .record [("algorithm", .text signatureAlgorithm),
        ("value", .text value)])])).tree =
      some ((contentsOf primitives statement issuedAt key case finding reproduction).complete
        attestationId value) := by
  have hsignature : (PyValue.record [("algorithm", .text signatureAlgorithm),
      ("value", .text value)]).tree = some (Contents.signature value) :=
    PyValue.tree_record ["algorithm", "value"] ["algorithm", "value"] rfl (by decide) (by decide)
  rw [PyValue.tree_record ["schema_version", "case_ref", "finding_ref", "reproduction", "verdict",
    "verdict_rationale", "issued_at", "signer", "attestation_id", "signature"]
    ["attestation_id", "case_ref", "finding_ref", "issued_at", "reproduction", "schema_version",
    "signature", "signer", "verdict", "verdict_rationale"] rfl (by decide) (by decide)]
  simp only [payloadFields, List.cons_append, List.nil_append, List.map_cons, List.map_nil,
    PyValue.treeItems, PyValue.tree, tree_signer, hsignature, hcase, hfinding, hreproduction,
    Option.bind_eq_bind, Option.bind_some, Option.map_some]
  rfl

end Payloads

/-- What signing returns, and what was signed. -/
structure IsSigned (primitives : Primitives PrivateKey) (request : Request PrivateKey)
    (attestation : Attestation) (key : PrivateKey) (contents : Contents) : Prop where
  parts : IsContents primitives request key contents
  isCase : request.caseRef.hasKeys caseFields = true
  isReproduction : request.reproduction.hasKeys reproductionFields = true
  caseDigest : isSha256 (request.caseRef.item "case_digest") = true
  artifacts : ((request.reproduction.item "artifacts").list?).isSome = true
  unsigned : (unsignedPayload attestation.payload).tree = some contents.unsigned
  signed : (signedPayload attestation.payload).tree =
    some (contents.signed (idOf primitives contents))
  payload : attestation.payload.tree = some
    (contents.complete (idOf primitives contents) (signatureOf primitives key contents))

theorem canonicalJson_eq_ok {value : PyValue} {text : List Char}
    (hok : canonicalJson value = .ok text) :
    ∃ written, value.tree = some written ∧ text = Json.encode true written := by
  obtain ⟨written, htree, rfl⟩ := Option.map_eq_some_iff.mp (orRaise_eq_ok hok)
  exact ⟨written, htree, rfl⟩

/-- What a signing that succeeds has signed. -/
theorem exists_isSigned (hsigned : signAttestation primitives now request = .ok attestation) :
    ∃ key contents, IsSigned primitives request attestation key contents := by
  obtain ⟨statement, hstatement, hafterStatement⟩ := bind_eq_ok hsigned
  obtain ⟨key, hkey, hafterKey⟩ := bind_eq_ok hafterStatement
  obtain ⟨issuedAt, -, hafterTime⟩ := bind_eq_ok hafterKey
  obtain ⟨hashed, hhashed, hafterHash⟩ := bind_eq_ok hafterTime
  obtain ⟨message, hmessage, hanswer⟩ := bind_eq_ok hafterHash
  obtain rfl := Except.ok.inj hanswer
  obtain ⟨unsigned, hunsigned, rfl⟩ := canonicalJson_eq_ok hhashed
  obtain ⟨signed, hsignedTree, rfl⟩ := canonicalJson_eq_ok hmessage
  obtain ⟨case, finding, reproduction, hcase, hfinding, hreproduction, rfl⟩ :=
    tree_payloadFields hunsigned
  have hvalidated := isValidated_of_ok hstatement
  obtain rfl := Option.some.inj
    ((tree_named hcase hfinding hreproduction _).symm.trans hsignedTree)
  exact ⟨key, contentsOf primitives statement issuedAt key case finding reproduction,
    ⟨hkey, hcase, hfinding, hreproduction, hvalidated.keyId, rfl⟩, hvalidated.caseRef,
    hvalidated.reproduction, hvalidated.caseDigest, hvalidated.artifacts, hunsigned,
    hsignedTree, tree_complete hcase hfinding hreproduction _ _⟩

end Signing

end AegisForge.Shared.Attestation
