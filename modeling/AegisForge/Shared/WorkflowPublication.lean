import AegisForge.Shared.AttestationWorkflow
import AegisForge.Shared.RegistryAppends

/-!
# What a run of the attestation workflow publishes

A run that raises leaves the files as they were.  A run that returns has created its
five files, and what is read back from them verifies against each other.
-/

namespace AegisForge.Shared

open AegisForge.Core

/-! ## Built registries -/

namespace AttestationRegistry

theorem exists_written_of_mem {items : List Json} {entries : List Entry} {item : Json}
    (hwritten : List.Forall₂ WrittenAs items entries) (hitem : item ∈ items) :
    ∃ entry ∈ entries, WrittenAs item entry := by
  induction hwritten with
  | nil => cases hitem
  | @cons first entry items entries hfirst _ ih =>
      rcases List.mem_cons.mp hitem with rfl | hrest
      · exact ⟨entry, List.mem_cons_self, hfirst⟩
      · obtain ⟨found, hfound, hsame⟩ := ih hrest
        exact ⟨found, List.mem_cons_of_mem _ hfound, hsame⟩

/-- A registry that is built is a snapshot of entries that carry their index. -/
theorem exists_snapshot_of_buildRegistry {sha256 : Octets → Digest} {items : List Json}
    {previous registry : Json} (hitems : ∀ item ∈ items, item.IsCanonical)
    (hprevious : previous.IsCanonical)
    (hok : buildRegistry sha256 (.array items) previous = .ok registry) :
    ∃ snapshot : Snapshot, registry = snapshot.toJson sha256 ∧
      snapshot.items = snapshot.entries.map Entry.toJson ∧
      List.Forall₂ WrittenAs items snapshot.entries := by
  obtain ⟨found, hfound, hlisted⟩ := orRaise_bind_eq_ok hok
  obtain rfl : items = found := Option.some.inj hfound
  obtain ⟨entries, hentries, hnormalized⟩ := bind_eq_ok hlisted
  obtain ⟨hdistinct, hchecked⟩ := raiseUnless_bind_eq_ok hnormalized
  obtain ⟨checkpoint, hcheckpoint, hanswer⟩ := bind_eq_ok hchecked
  obtain ⟨hindexed, hwritten⟩ := (normalizeEntries_eq_ok_iff hitems).mp hentries
  rw [hwritten.length_eq, ← List.range_eq_range'] at hindexed
  rw [validatePrevious_eq_ok_iff hprevious] at hcheckpoint
  refine ⟨Snapshot.built entries hindexed hdistinct checkpoint, ?_, rfl, hwritten⟩
  rw [← Except.ok.inj hanswer, hcheckpoint]
  rfl

theorem isCanonical_of_checkpointFor {sha256 : Octets → Digest} {registry checkpoint : Json}
    (hcanonical : registry.IsCanonical) (hok : checkpointFor sha256 registry = .ok checkpoint) :
    checkpoint.IsCanonical := by
  obtain ⟨report, hreport, -⟩ := bind_eq_ok hok
  obtain ⟨snapshot, rfl, -⟩ := exists_snapshot hcanonical hreport
  rw [snapshot.checkpointFor_toJson] at hok
  obtain rfl := Except.ok.inj hok
  exact Checkpoint.isCanonical_toJson _

/-- What is answered for an attestation is the metadata of an entry. -/
theorem exists_metadata_of_entryFromAttestation {sha256 : Octets → Digest}
    {attestation item : Json} (hok : entryFromAttestation sha256 attestation = .ok item) :
    ∃ entry : Entry, item = entry.metadata := by
  obtain ⟨-, hrest⟩ := raiseUnless_bind_eq_ok hok
  obtain ⟨-, hrest⟩ := raiseUnless_bind_eq_ok hrest
  obtain ⟨text, -, hrest⟩ := orRaise_bind_eq_ok hrest
  obtain ⟨entry, -, hanswer⟩ := bind_eq_ok hrest
  exact ⟨entry, (Except.ok.inj hanswer).symm⟩

theorem isCanonical_items {registry : Json} (hcanonical : registry.IsCanonical) :
    ∀ item ∈ itemsOf (registry.get "entries"), item.IsCanonical := by
  have hentries := Json.isCanonical_get hcanonical "entries"
  intro item hitem
  cases hvalue : registry.get "entries" with
  | array items =>
      rw [hvalue, Json.isCanonical_array_iff] at hentries
      rw [hvalue] at hitem
      exact hentries item hitem
  | _ =>
      rw [hvalue] at hitem
      cases hitem

end AttestationRegistry

namespace AttestationWorkflow

open AegisForge.Core.Publication
open AttestationRegistry (Entry Snapshot WrittenAs itemsOf entryFromAttestation verifyRegistry
  verifyRegistryChain verifySignedCheckpoint verifyInclusionProof)

variable {PrivateKey : Type} {system : System PrivateKey} {tree after : Tree} {request : Request}

/-! ## Writing -/

theorem isExclusive_writeNewJson (system : System PrivateKey) :
    IsExclusive (writeNewJson system) := by
  have hcases : ∀ path node tree,
      (∃ raised, writeNewJson system path node tree = (.error raised, tree)) ∨
        (tree path = none ∧ writeNewJson system path node tree =
          (.ok ⟨⟩, Function.update tree path (some node))) := by
    intro path node tree
    unfold writeNewJson
    split
    case isTrue => exact Or.inl ⟨_, rfl⟩
    case isFalse =>
      split
      case h_1 => exact Or.inl ⟨_, rfl⟩
      case h_2 =>
        split
        case isTrue => exact Or.inl ⟨_, rfl⟩
        case isFalse htaken =>
          have habsent : tree path = none := by simpa using htaken
          split
          case h_1 raised _ =>
            left
            refine ⟨raised, ?_⟩
            rw [unlink, Function.update_idem, ← habsent, Function.update_eq_self]
          case h_2 => exact Or.inr ⟨habsent, rfl⟩
  constructor
  case unchanged =>
    intro path node tree error after hwrite
    obtain ⟨raised, hraised⟩ | ⟨-, hcreated⟩ := hcases path node tree
    · exact (Prod.mk.inj (hwrite.symm.trans hraised)).2
    · cases hwrite.symm.trans hcreated
  case absent =>
    intro path node tree after hwrite
    obtain ⟨raised, hraised⟩ | ⟨habsent, -⟩ := hcases path node tree
    · cases hwrite.symm.trans hraised
    · exact habsent
  case created =>
    intro path node tree after hwrite
    obtain ⟨raised, hraised⟩ | ⟨-, hcreated⟩ := hcases path node tree
    · cases hwrite.symm.trans hraised
    · exact (Prod.mk.inj (hwrite.symm.trans hcreated)).2

/-! ## Values from outside -/

/-- A value as it was decoded. -/
structure IsDecoded (value : Json) : Prop where
  isCanonical : value.IsCanonical
  readable : value.Readable

theorem IsDecoded.get {value : Json} (hdecoded : IsDecoded value) (key : String) :
    IsDecoded (value.get key) :=
  ⟨Json.isCanonical_get hdecoded.isCanonical key, Json.readable_get hdecoded.readable key⟩

theorem isDecoded_loads {raw : Octets} {value : Json}
    (hread : (decodeUtf8? raw).bind Json.loads = some value) : IsDecoded value := by
  obtain ⟨text, -, hloads⟩ := Option.bind_eq_some_iff.mp hread
  exact ⟨Json.isCanonical_loads hloads, Json.readable_loads hloads⟩

theorem isDecoded_postSignerRequest {endpoint expectedObject : String} {payload answer : Json}
    (hok : postSignerRequest system endpoint payload expectedObject = .ok answer) :
    IsDecoded answer := by
  obtain ⟨-, hrest⟩ := raiseUnless_bind_eq_ok hok
  obtain ⟨-, hrest⟩ := raiseUnless_bind_eq_ok hrest
  obtain ⟨-, hrest⟩ := raiseUnless_bind_eq_ok hrest
  obtain ⟨-, hrest⟩ := raiseUnless_bind_eq_ok hrest
  obtain ⟨body, -, hrest⟩ := orRaise_bind_eq_ok hrest
  obtain ⟨-, hrest⟩ := raiseUnless_bind_eq_ok hrest
  obtain ⟨response, -, hrest⟩ := orRaise_bind_eq_ok hrest
  obtain ⟨-, hrest⟩ := raiseUnless_bind_eq_ok hrest
  obtain ⟨decoded, hdecoded, hrest⟩ := orRaise_bind_eq_ok hrest
  obtain ⟨-, hanswer⟩ := raiseUnless_bind_eq_ok hrest
  have hobject := orRaise_eq_ok hanswer
  rw [expectedObjectOf] at hobject
  split at hobject
  case isTrue =>
    obtain rfl := Option.some.inj hobject
    exact (isDecoded_loads hdecoded).get expectedObject
  case isFalse => cases hobject

theorem isCanonical_loadJson {path : Location} {maxBytes : ℕ} {value : Json} {raw : Octets}
    (hok : loadJson system tree path maxBytes = .ok (value, raw)) : value.IsCanonical := by
  obtain ⟨content, -, hrest⟩ := bind_eq_ok hok
  obtain ⟨-, hrest⟩ := raiseUnless_bind_eq_ok hrest
  obtain ⟨decoded, hdecoded, hanswer⟩ := bind_eq_ok hrest
  obtain ⟨rfl, -⟩ := Prod.mk.inj (Except.ok.inj hanswer)
  obtain ⟨written, -, hregular⟩ := orRaise_bind_eq_ok hdecoded
  split at hregular
  case h_1 => cases hregular
  case h_2 =>
    obtain rfl := Except.ok.inj hregular
    exact Json.isCanonical_sortKeys written

/-! ## The registry -/

/-- The registry that a run goes on with. -/
structure IsPrevious (system : System PrivateKey) (previous : Option (Json × Json)) : Prop where
  isCanonical : ∀ found ∈ previous, found.1.IsCanonical
  isCheckpoint : ∀ found ∈ previous,
    AttestationRegistry.checkpointFor system.primitives.sha256 found.1 = .ok found.2

theorem isPrevious_previousRegistry {previous : Option (Json × Json)}
    (hok : previousRegistry system tree request = .ok previous) : IsPrevious system previous := by
  rw [previousRegistry] at hok
  split at hok
  case h_1 =>
    obtain rfl := Except.ok.inj hok
    exact ⟨nofun, nofun⟩
  case h_2 =>
    obtain ⟨⟨value, raw⟩, hload, hrest⟩ := bind_eq_ok hok
    obtain ⟨checkpoint, hcheckpoint, hanswer⟩ := bind_eq_ok hrest
    obtain rfl := Except.ok.inj hanswer
    constructor
    · rintro found ⟨⟩
      exact isCanonical_loadJson hload
    · rintro found ⟨⟩
      exact hcheckpoint

/-- What the registry of a run says. -/
structure IsExtended (system : System PrivateKey) (attestation : Json)
    (previous : Option (Json × Json)) (registry : Json) : Prop where
  snapshot : ∃ snapshot : Snapshot, registry = snapshot.toJson system.primitives.sha256
  registered : ∃ entry : Entry,
    entryFromAttestation system.primitives.sha256 attestation = .ok entry.metadata ∧
      entry.toJson ∈ itemsOf (registry.get "entries")
  continued : ∀ found ∈ previous, ∃ report,
    verifyRegistryChain system.primitives.sha256 registry found.1 = .ok report

theorem isExtended_extendedRegistry {attestation registry : Json}
    {previous : Option (Json × Json)} (hprevious : IsPrevious system previous)
    (hok : extendedRegistry system attestation previous = .ok registry) :
    IsExtended system attestation previous registry := by
  obtain ⟨item, hitem, hrest⟩ := bind_eq_ok hok
  obtain ⟨-, hrest⟩ := raiseUnless_bind_eq_ok hrest
  obtain ⟨built, hbuilt, hrest⟩ := bind_eq_ok hrest
  obtain ⟨hsame, hcontinued⟩ : built = registry ∧ ∀ found ∈ previous, ∃ report,
      verifyRegistryChain system.primitives.sha256 registry found.1 = .ok report := by
    split at hrest
    case h_1 =>
      exact ⟨Except.ok.inj hrest, nofun⟩
    case h_2 =>
      obtain ⟨report, hreport, hanswer⟩ := bind_eq_ok hrest
      obtain rfl := Except.ok.inj hanswer
      refine ⟨rfl, ?_⟩
      rintro found ⟨⟩
      exact ⟨report, hreport⟩
  obtain rfl := hsame
  obtain ⟨entry, rfl⟩ := AttestationRegistry.exists_metadata_of_entryFromAttestation hitem
  have hearlier : ∀ item ∈ previous.elim [] (fun found => itemsOf (found.1.get "entries")),
      item.IsCanonical := by
    cases previous with
    | none => exact nofun
    | some found => exact AttestationRegistry.isCanonical_items (hprevious.isCanonical found rfl)
  have hlink : (previous.elim .null Prod.snd).IsCanonical := by
    cases previous with
    | none => exact .null
    | some found =>
        exact AttestationRegistry.isCanonical_of_checkpointFor (hprevious.isCanonical found rfl)
          (hprevious.isCheckpoint found rfl)
  obtain ⟨snapshot, hregistry, hitems, hwritten⟩ :=
    AttestationRegistry.exists_snapshot_of_buildRegistry
      (List.forall_mem_append.mpr ⟨hearlier, by simpa using entry.isCanonical_metadata⟩) hlink
      hbuilt
  obtain ⟨last, hlast, hsame⟩ := AttestationRegistry.exists_written_of_mem hwritten
    (List.mem_append_right _ (List.mem_singleton.mpr rfl))
  have hmetadata : entry.metadata = last.metadata := by
    rcases hsame with hfull | hmetadata
    · exact absurd hfull.symm (last.toJson_ne_metadata entry)
    · exact hmetadata
  refine ⟨⟨snapshot, hregistry⟩, ⟨last, ?_, ?_⟩, hcontinued⟩
  · rw [hitem, hmetadata]
  · rw [hregistry, snapshot.itemsOf_toJson, hitems]
    exact List.mem_map_of_mem hlast

/-! ## Reading the files back -/

/-- A value that is written is read back from its file. -/
theorem loads_contentOf {value : Json} (hdecoded : IsDecoded value) :
    (decodeUtf8? (contentOf value)).bind Json.loads = some value := by
  have hsorted := Json.sortKeys_of_isCanonical hdecoded.isCanonical
  have hblanks : Json.AreBlanks ['\n'] := by simp [Json.AreBlanks, Json.isBlankChar]
  rw [contentOf, decodeUtf8?_utf8, Option.bind_some, hsorted,
    Json.loads_write (.indented 2) true hdecoded.readable hblanks, hsorted]

theorem isDecoded_text (value : String) : IsDecoded (.text value) := ⟨.text value, trivial⟩

theorem isDecoded_array {items : List Json} (hitems : ∀ item ∈ items, IsDecoded item) :
    IsDecoded (.array items) := by
  constructor
  · rw [Json.isCanonical_array_iff]
    exact fun item hitem => (hitems item hitem).isCanonical
  · rw [Json.Readable, Json.readableItems_iff]
    exact fun item hitem => (hitems item hitem).readable

theorem isDecoded_object {fields : List (String × Json)}
    (hkeys : (fields.map Prod.fst).IsChain (· < ·))
    (hfields : ∀ field ∈ fields, IsDecoded field.2) : IsDecoded (.object fields) := by
  constructor
  · rw [Json.isCanonical_object_iff]
    exact ⟨hkeys, fun field hfield => (hfields field hfield).isCanonical⟩
  · rw [Json.Readable, Json.readableFields_iff, List.forall_mem_map]
    exact fun field hfield => (hfields field hfield).readable

theorem isDecoded_written {item : Json} {entry : Entry} (hwritten : WrittenAs item entry) :
    IsDecoded item :=
  ⟨hwritten.isCanonical, hwritten.readable⟩

theorem isDecoded_items (snapshot : Snapshot) : ∀ item ∈ snapshot.items, IsDecoded item :=
  AttestationRegistry.forall_items_of_written snapshot.written fun _ _ => isDecoded_written

theorem isDecoded_snapshot (sha256 : Octets → Digest) (snapshot : Snapshot) :
    IsDecoded (snapshot.toJson sha256) := by
  have hkeys : AttestationRegistry.registryFields.IsChain (· < ·) := by decide
  refine isDecoded_object hkeys ?_
  simp only [List.forall_mem_cons]
  exact ⟨isDecoded_array (isDecoded_items snapshot), isDecoded_text _, isDecoded_text _,
    ⟨AttestationRegistry.isCanonical_previousJson _, AttestationRegistry.readable_previousJson _⟩,
    isDecoded_text _, ⟨.int _, trivial⟩, isDecoded_text _, nofun⟩

/-- The proof that is built for a registry, and the entry that it is about. -/
theorem buildInclusionProof_spec {sha256 : Octets → Digest} {snapshot : Snapshot}
    {attestationId : String} {proof : Json}
    (hok : AttestationRegistry.buildInclusionProof sha256 (snapshot.toJson sha256) attestationId =
      .ok proof) :
    IsDecoded proof ∧ ∃ entry, WrittenAs (proof.get "entry") entry ∧
      entry.attestationId.text = attestationId := by
  obtain ⟨_, -, hmatched⟩ := bind_eq_ok hok
  rw [snapshot.itemsOf_toJson] at hmatched
  dsimp only at hmatched
  split at hmatched
  case h_1 leafIndex item hmatches =>
    obtain rfl := Except.ok.inj hmatched
    have hfound : (leafIndex, item) ∈
        AttestationRegistry.matchesOf snapshot.items attestationId := by
      rw [hmatches]
      exact List.mem_singleton.mpr rfl
    rw [AttestationRegistry.matchesOf, List.mem_filter, List.mem_map] at hfound
    obtain ⟨⟨⟨held, index⟩, hplace, hswap⟩, hid⟩ := hfound
    obtain ⟨rfl, rfl⟩ := Prod.mk.inj hswap
    rw [List.mem_zipIdx_iff_getElem?] at hplace
    obtain ⟨entry, -, hwritten⟩ := snapshot.writtenAs_of_getElem? hplace
    constructor
    · have hregistry := isDecoded_snapshot sha256 snapshot
      have hkeys : AttestationRegistry.proofFields.IsChain (· < ·) := by decide
      refine isDecoded_object hkeys ?_
      simp only [List.forall_mem_cons]
      refine ⟨isDecoded_written hwritten, ⟨.int _, trivial⟩, hregistry.get _, isDecoded_text _,
        isDecoded_array ?_, hregistry.get _, nofun⟩
      rw [List.forall_mem_map]
      exact fun sibling _ => isDecoded_text sibling.text
    · refine ⟨entry, hwritten, ?_⟩
      rw [decide_eq_true_eq] at hid
      dsimp only at hid
      rw [hwritten.get_attestation_id] at hid
      exact Json.text.inj hid
  case h_2 => cases hmatched

theorem caseDigest_of_prepareInputs {evidence inputs : Json} {evidenceRaw : Octets}
    {evidenceName verdict rationale : String}
    (hok : prepareInputs system evidence evidenceRaw evidenceName verdict rationale =
      .ok inputs) :
    ∃ digest, (inputs.get "case_ref").get "case_digest" = .text digest := by
  obtain ⟨runner, -, hrest⟩ := bind_eq_ok hok
  obtain ⟨case, -, hrest⟩ := bind_eq_ok hrest
  obtain ⟨-, hrest⟩ := raiseUnless_bind_eq_ok hrest
  obtain ⟨digest, -, hrest⟩ := orRaise_bind_eq_ok hrest
  obtain ⟨⟨startedAt, started⟩, -, hrest⟩ := bind_eq_ok hrest
  obtain ⟨⟨completedAt, completed⟩, -, hrest⟩ := bind_eq_ok hrest
  obtain ⟨backwards, -, hrest⟩ := bind_eq_ok hrest
  obtain ⟨-, hrest⟩ := raiseUnless_bind_eq_ok hrest
  obtain ⟨text, -, hanswer⟩ := orRaise_bind_eq_ok hrest
  obtain rfl := Except.ok.inj hanswer
  exact ⟨digest, rfl⟩

/-- The keys of a summary, sorted. -/
def summaryFields : List String :=
  ["attestation_id", "automatic_confirmation", "case_digest", "checkpoint_id",
    "finding_created", "inclusion_proof_valid", "merkle_root", "output_files",
    "published_remotely", "registry_sha256", "registry_size", "signature_status", "status",
    "verdict"]

theorem isDecoded_summary (system : System PrivateKey) (request : Request)
    {published : Published} (hattestation : IsDecoded published.attestation)
    (hregistry : IsDecoded published.registry) (hdigest : IsDecoded published.caseDigest) :
    IsDecoded (summary system request published) := by
  have hkeys : summaryFields.IsChain (· < ·) := by decide
  have hfalse : IsDecoded (.bool false) := ⟨.bool _, trivial⟩
  have hnames : IsDecoded (.array (outputFiles.map Json.text)) := by
    apply isDecoded_array
    rw [List.forall_mem_map]
    exact fun name _ => isDecoded_text name
  refine isDecoded_object hkeys ?_
  simp only [List.forall_mem_cons]
  exact ⟨hattestation.get _, hfalse, hdigest, isDecoded_text _, hfalse, ⟨.bool _, trivial⟩,
    hregistry.get _, hnames, hfalse, isDecoded_text _, hregistry.get _, isDecoded_text _,
    isDecoded_text _, isDecoded_text _, nofun⟩

/-! ## Runs -/

/-- The values of a run verify against each other. -/
structure VerifyTogether (system : System PrivateKey) (tree : Tree) (request : Request)
    (published : Published) : Prop where
  trusted : loadTrustedKeys system tree request.trustedKeysPath = .ok published.trusted
  attestation : (Attestation.settled (Attestation.verifyPayload system.primitives
    published.attestation (trustedKey published.trusted) published.caseDigest.text?
    (some (system.artifactRoot tree request.evidencePath.dropLast)))).status = .valid
  registry : ∃ report,
    verifyRegistry system.primitives.sha256 published.registry = .ok report
  registered : ∃ entry : Entry,
    entryFromAttestation system.primitives.sha256 published.attestation = .ok entry.metadata ∧
      entry.toJson ∈ itemsOf (published.registry.get "entries")
  continued : ∀ previous ∈ published.previous, ∃ report,
    verifyRegistryChain system.primitives.sha256 published.registry previous = .ok report
  checkpoint : ∃ report, verifySignedCheckpoint system.primitives published.checkpoint
    (trustedKey published.trusted) (some published.registry) = .ok report
  proof : ∃ root size report, published.registry.get "merkle_root" = .text root ∧
    published.registry.get "size" = .int size ∧
    verifyInclusionProof system.primitives.sha256 published.proof root (some size) = .ok report ∧
    published.attestation.get "attestation_id" = .text report.attestationId.text

/-- What was verified before anything is written. -/
theorem verifyTogether_of_prepare {published : Published}
    (hok : prepare system tree request = .ok published) :
    VerifyTogether system tree request published ∧
      ∀ payload ∈ payloads system request published, IsDecoded payload.2 := by
  obtain ⟨⟨evidence, evidenceRaw⟩, -, hrest⟩ := bind_eq_ok hok
  obtain ⟨trusted, htrusted, hrest⟩ := bind_eq_ok hrest
  obtain ⟨inputs, hinputs, hrest⟩ := bind_eq_ok hrest
  obtain ⟨-, -, hrest⟩ := bind_eq_ok hrest
  obtain ⟨attestation, hattestation, hrest⟩ := bind_eq_ok hrest
  obtain ⟨previous, hprevious, hrest⟩ := bind_eq_ok hrest
  obtain ⟨registry, hregistry, hrest⟩ := bind_eq_ok hrest
  obtain ⟨checkpoint, hcheckpoint, hrest⟩ := bind_eq_ok hrest
  obtain ⟨verified, hverified, hrest⟩ := bind_eq_ok hrest
  obtain ⟨attestationId, hid, hrest⟩ := orRaise_bind_eq_ok hrest
  obtain ⟨proof, hproof, hrest⟩ := bind_eq_ok hrest
  obtain ⟨report, hreport, hanswer⟩ := bind_eq_ok hrest
  obtain rfl := Except.ok.inj hanswer
  obtain ⟨answered, hanswered, hsigned⟩ := bind_eq_ok hattestation
  obtain ⟨hvalid, hsame⟩ := raiseUnless_bind_eq_ok hsigned
  obtain rfl := Except.ok.inj hsame
  obtain ⟨payload, -, hposted⟩ := bind_eq_ok hcheckpoint
  have hextended := isExtended_extendedRegistry (isPrevious_previousRegistry hprevious) hregistry
  obtain ⟨snapshot, rfl⟩ := hextended.snapshot
  obtain ⟨hproofDecoded, entry, hwritten, hentryId⟩ := buildInclusionProof_spec hproof
  have hattestationDecoded := isDecoded_postSignerRequest hanswered
  have hregistryDecoded := isDecoded_snapshot system.primitives.sha256 snapshot
  constructor
  · constructor
    case trusted => exact htrusted
    case attestation => exact hvalid
    case registry => exact ⟨_, snapshot.verifyRegistry_toJson _⟩
    case registered => exact hextended.registered
    case continued =>
      intro found hfound
      obtain ⟨pair, hpair, rfl⟩ := Option.map_eq_some_iff.mp hfound
      exact hextended.continued pair hpair
    case checkpoint => exact ⟨verified, hverified⟩
    case proof =>
      refine ⟨_, _, report, rfl, rfl, hreport, ?_⟩
      obtain ⟨other, -, hother, -, -, -, -, -, -, hsameId, -⟩ :=
        AttestationRegistry.verifyInclusionProof_eq_ok hreport
      have hotherId := (AttestationRegistry.normalizeEntry_eq_ok hother).2.2.2.1
      rw [hwritten.get_attestation_id, hentryId] at hotherId
      rw [Json.text?_eq_some_iff.mp hid, hsameId]
      exact hotherId
  · obtain ⟨digest, hdigest⟩ := caseDigest_of_prepareInputs hinputs
    have hdigestDecoded : IsDecoded ((inputs.get "case_ref").get "case_digest") := by
      rw [hdigest]
      exact isDecoded_text digest
    simp only [payloads, List.forall_mem_cons]
    exact ⟨hattestationDecoded, hregistryDecoded, isDecoded_postSignerRequest hposted,
      hproofDecoded,
      isDecoded_summary system request hattestationDecoded hregistryDecoded hdigestDecoded, nofun⟩

/-- What a run that returns leaves behind. -/
structure IsOutcome (system : System PrivateKey) (tree : Tree) (request : Request)
    (published : Published) (answer : Json) (after : Tree) : Prop where
  answer : answer = summary system request published
  absent : ∀ name ∈ outputFiles, tree (request.outputDir ++ [name]) = none
  created : ∀ payload ∈ payloads system request published, ∃ content,
    after (request.outputDir ++ [payload.1]) = some (.file content) ∧
      (decodeUtf8? content).bind Json.loads = some payload.2
  unchanged : ∀ path, (∀ name ∈ outputFiles, path ≠ request.outputDir ++ [name]) →
    after path = tree path
  verified : VerifyTogether system tree request published

/-- A run creates all its files or none. -/
structure AllOrNothing (system : System PrivateKey) (tree : Tree) (request : Request) :
    Prop where
  undone : ∀ raised after,
    runAttestationWorkflow system tree request = (.error raised, after) → after = tree
  published : ∀ answer after,
    runAttestationWorkflow system tree request = (.ok answer, after) →
      ∃ published, IsOutcome system tree request published answer after

theorem runs_publish_all_or_nothing (system : System PrivateKey) (tree : Tree)
    (request : Request) : AllOrNothing system tree request := by
  constructor
  case undone =>
    intro raised after hrun
    unfold runAttestationWorkflow at hrun
    split at hrun
    case h_1 => exact (Prod.mk.inj hrun).2.symm
    case h_2 =>
      dsimp only at hrun
      split at hrun
      case h_1 hpublish =>
        obtain ⟨-, rfl⟩ := Prod.mk.inj hrun
        exact publish_error (isExclusive_writeNewJson system) hpublish
      case h_2 => cases hrun
  case published =>
    intro answer after hrun
    unfold runAttestationWorkflow at hrun
    split at hrun
    case h_1 => cases hrun
    case h_2 published hprepare =>
      dsimp only at hrun
      split at hrun
      case h_1 => cases hrun
      case h_2 hpublish =>
        obtain ⟨hanswer, rfl⟩ := Prod.mk.inj hrun
        obtain ⟨hverified, hdecoded⟩ := verifyTogether_of_prepare hprepare
        have hfiles := publish_ok (isExclusive_writeNewJson system) hpublish
        refine ⟨published, (Except.ok.inj hanswer).symm, ?_, ?_, ?_, hverified⟩
        · intro name hname
          have hnames : name ∈ (payloads system request published).map Prod.fst := hname
          obtain ⟨payload, hpayload, rfl⟩ := List.mem_map.mp hnames
          exact hfiles.absent _ (List.mem_map_of_mem hpayload)
        · intro payload hpayload
          exact ⟨_, hfiles.created _ (List.mem_map_of_mem hpayload),
            loads_contentOf (hdecoded payload hpayload)⟩
        · intro path hpath
          apply hfiles.unchanged
          intro hmem
          rw [List.map_map, List.mem_map] at hmem
          obtain ⟨payload, hpayload, hsame⟩ := hmem
          have hname : payload.1 ∈ outputFiles := by
            show payload.1 ∈ (payloads system request published).map Prod.fst
            exact List.mem_map_of_mem hpayload
          exact hpath payload.1 hname hsame.symm

end AttestationWorkflow

end AegisForge.Shared
