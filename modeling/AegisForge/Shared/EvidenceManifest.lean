import Mathlib.Data.Prod.Lex
import AegisForge.Core.CanonicalJson
import AegisForge.Core.Checks
import AegisForge.Core.JsonEquality
import AegisForge.Core.Merkle
import AegisForge.Shared.AttestorRegistry

/-!
# Evidence manifests

The root of a manifest is the root of a Merkle tree over its entries.  A leaf is the hash
of the three texts of an entry with a NUL between them, so a root binds the entries as far
as no two different entries have the same text.
-/

namespace AegisForge.Shared.EvidenceManifest

open AegisForge.Core
open AttestorRegistry (itemsOf isArray)

def manifestError (message : String) : Raised := ⟨.evidenceManifestError, message⟩

def schemaVersion : String := "evidence-manifest-v1"

/-! ## Entries -/

@[ext]
structure Entry where
  id : String
  type : String
  digest : String
  deriving DecidableEq, Repr

namespace Entry

/-- What a leaf is the hash of. -/
def text (entry : Entry) : List Char :=
  entry.id.toList ++ '\x00' :: entry.type.toList ++ '\x00' :: entry.digest.toList

def IsFilled (entry : Entry) : Prop := entry.id ≠ "" ∧ entry.type ≠ "" ∧ entry.digest ≠ ""

instance (entry : Entry) : Decidable entry.IsFilled := inferInstanceAs (Decidable (_ ∧ _))

def toJson (entry : Entry) : Json :=
  .object [("digest", .text entry.digest), ("id", .text entry.id), ("type", .text entry.type)]

/-- What entries are sorted by, and what no two entries share. -/
def key (entry : Entry) : String ×ₗ String := toLex (entry.id, entry.type)

end Entry

/-- The checks of `_leaf`. -/
def entryOf (value : Json) : Except Raised Entry := do
  raiseUnless (value.hasExactly ["digest", "id", "type"] = true)
    (manifestError "invalid_manifest_entry")
  let id ← orRaise (manifestError "invalid_manifest_entry_values") (value.get "id").text?
  let type ← orRaise (manifestError "invalid_manifest_entry_values") (value.get "type").text?
  let digest ← orRaise (manifestError "invalid_manifest_entry_values") (value.get "digest").text?
  let entry : Entry := ⟨id, type, digest⟩
  raiseUnless entry.IsFilled (manifestError "invalid_manifest_entry_values")
  pure entry

/-! ## The tree -/

variable (sha256 : Octets → Digest)

/-- `_leaf`. -/
def leaf (entry : Entry) : Digest := sha256 (utf8 entry.text)

def nodeBytes (left right : Digest) : Octets := utf8 (left.text.toList ++ right.text.toList)

def nodeHash (left right : Digest) : Digest := sha256 (nodeBytes left right)

/-- What entries are sorted by, which raises where a value has none. -/
def sortKey (value : Json) : Except Raised (String ×ₗ String) := do
  raiseUnless (value.isObject = true) ⟨.typeError, "not subscriptable"⟩
  let id ← orRaise ⟨.keyError, "id"⟩ (value.get? "id")
  let type ← orRaise ⟨.keyError, "type"⟩ (value.get? "type")
  let id ← orRaise ⟨.typeError, "'<' not supported"⟩ id.text?
  let type ← orRaise ⟨.typeError, "'<' not supported"⟩ type.text?
  pure (toLex (id, type))

/-- `sorted(entries, key=...)`. -/
def sortedEntries (values : List Json) : Except Raised (List Json) := do
  let keys ← values.mapM sortKey
  pure (((keys.zip values).insertionSort fun left right => left.1 ≤ right.1).map Prod.snd)

/-- `merkle_root`. -/
def merkleRoot (values : List Json) : Except Raised Digest := do
  raiseUnless (values ≠ []) (manifestError "manifest_entries_required")
  let sorted ← sortedEntries values
  let entries ← sorted.mapM entryOf
  -- The level is not empty, so that it has a root.
  orRaise (manifestError "manifest_entries_required")
    (Merkle.root (nodeHash sha256) (entries.map (leaf sha256)))

structure Verified where
  merkleRoot : String
  entryCount : ℕ
  deriving DecidableEq, Repr

/-- `verify_manifest`. -/
def verifyManifest (manifest : Json) : Except Raised Verified := do
  raiseUnless (manifest.isObject = true ∧
      (manifest.get "schema_version").text? = some schemaVersion)
    (manifestError "unsupported_manifest_schema")
  let values := itemsOf (manifest.get "entries")
  raiseUnless (isArray (manifest.get "entries") = true ∧
      Json.equal (manifest.get "entry_count") (.int values.length) = true)
    (manifestError "manifest_entry_count_mismatch")
  raiseUnless ((manifest.get? "agent_id").all fun agentId =>
      agentId.text?.any fun text => text ≠ "") (manifestError "invalid_manifest_agent_id")
  let expected ← merkleRoot sha256 values
  raiseUnless ((values.map fun value => (value.get "id", value.get "type")).Nodup)
    (manifestError "duplicate_manifest_entry")
  raiseUnless ((manifest.get "merkle_root").text? = some expected.text)
    (manifestError "manifest_root_mismatch")
  pure ⟨expected.text, values.length⟩

/-- What is bound, by the ids and types of its entries. -/
def boundArtifacts : List (String × String) :=
  [("grant", "capability_grant"), ("receipt", "execution_receipt"),
    ("contract", "outcome_contract"), ("outcome", "verified_outcome"),
    ("evidence", "outcome_evidence")]

/-- `by_key.get((id, type))`, where the last entry of a key counts. -/
def entryByKey? (manifest : Json) (id type : String) : Option Json :=
  (itemsOf (manifest.get "entries")).reverse.find? fun entry =>
    entry.get "id" = .text id ∧ entry.get "type" = .text type

/-- `digest`. -/
def artifactDigest (value : Json) : Digest := sha256 value.sortKeys.canonicalBytes

/-- `verify_artifact_bindings`. -/
def verifyArtifactBindings (manifest artifacts : Json) : Except Raised Unit := do
  let _ ← verifyManifest sha256 manifest
  raiseUnless (artifacts.isObject = true) (manifestError "artifact_bindings_required")
  boundArtifacts.forM fun bound => do
    let entry ← orRaise (manifestError s!"manifest_entry_missing:{bound.1}")
      (entryByKey? manifest bound.1 bound.2)
    let artifact ← orRaise (manifestError s!"artifact_missing:{bound.1}")
      (artifacts.get? bound.1)
    raiseUnless (entry.get "digest" = .text (artifactDigest sha256 artifact).text)
      (manifestError s!"manifest_artifact_mismatch:{bound.1}")

/-- The entries of a manifest. -/
def entriesOf (manifest : Json) : List Entry :=
  (itemsOf (manifest.get "entries")).filterMap fun value => (entryOf value).toOption

/-- The entries in the order of the leaves. -/
def orderedEntries (manifest : Json) : List Entry :=
  ((sortedEntries (itemsOf (manifest.get "entries"))).toOption.getD []).filterMap fun value =>
    (entryOf value).toOption

/-- The leaves of a manifest. -/
def leavesOf (manifest : Json) : List Digest := (orderedEntries manifest).map (leaf sha256)

/-- What is hashed for a manifest. -/
def manifestInputs (manifest : Json) : List Octets :=
  ((orderedEntries manifest).map fun entry => utf8 entry.text) ++
    (Merkle.treePairs (nodeHash sha256) (leavesOf sha256 manifest)).map fun pair =>
      nodeBytes pair.1 pair.2

/-! ## Accepted manifests -/

variable {sha256}

theorem length_of_mapM {A B : Type} {read : A → Except Raised B} {values : List A}
    {results : List B} (hresults : values.mapM read = .ok results) :
    results.length = values.length := by
  induction values generalizing results with
  | nil =>
      obtain rfl := Except.ok.inj hresults
      rfl
  | cons value rest ih =>
      rw [List.mapM_cons] at hresults
      obtain ⟨result, -, hrest⟩ := bind_eq_ok hresults
      obtain ⟨others, hothers, hdone⟩ := bind_eq_ok hrest
      obtain rfl := Except.ok.inj hdone
      rw [List.length_cons, List.length_cons, ih hothers]

theorem perm_of_sortedEntries {values sorted : List Json}
    (hsorted : sortedEntries values = .ok sorted) : sorted.Perm values := by
  obtain ⟨keys, hkeys, hdone⟩ := bind_eq_ok hsorted
  obtain rfl := Except.ok.inj hdone
  refine ((List.perm_insertionSort _ _).map Prod.snd).trans ?_
  rw [List.map_snd_zip (length_of_mapM hkeys).ge]

theorem mapM_entryOf {values : List Json} {entries : List Entry}
    (hentries : values.mapM entryOf = .ok entries) :
    entries = values.filterMap fun value => (entryOf value).toOption := by
  induction values generalizing entries with
  | nil => exact (Except.ok.inj hentries).symm
  | cons value rest ih =>
      rw [List.mapM_cons] at hentries
      obtain ⟨entry, hentry, hrest⟩ := bind_eq_ok hentries
      obtain ⟨others, hothers, hdone⟩ := bind_eq_ok hrest
      obtain rfl := Except.ok.inj hdone
      rw [List.filterMap_cons, hentry, ih hothers]
      rfl

theorem isFilled_of_entryOf {value : Json} {entry : Entry} (hentry : entryOf value = .ok entry) :
    entry.IsFilled := by
  obtain ⟨-, hread⟩ := raiseUnless_bind_eq_ok hentry
  obtain ⟨id, -, htyped⟩ := orRaise_bind_eq_ok hread
  obtain ⟨type, -, hdigested⟩ := orRaise_bind_eq_ok htyped
  obtain ⟨digest, -, hvalid⟩ := orRaise_bind_eq_ok hdigested
  obtain ⟨hfilled, hdone⟩ := raiseUnless_bind_eq_ok hvalid
  obtain rfl := Except.ok.inj hdone
  exact hfilled

theorem isFilled_of_mem_entriesOf {manifest : Json} {entry : Entry}
    (hentry : entry ∈ entriesOf manifest) : entry.IsFilled := by
  obtain ⟨value, -, hvalue⟩ := List.mem_filterMap.mp hentry
  exact isFilled_of_entryOf (eq_ok_of_toOption hvalue)

/-- A manifest whose root is that of its entries. -/
structure Accepted (sha256 : Octets → Digest) (manifest : Json) (digest : Digest) : Prop where
  root : Merkle.root (nodeHash sha256) (leavesOf sha256 manifest) = some digest
  entries : (orderedEntries manifest).Perm (entriesOf manifest)
  named : (manifest.get "merkle_root").text? = some digest.text

theorem accepted_of_verifyManifest {manifest : Json} {result : Verified}
    (hverified : verifyManifest sha256 manifest = .ok result) :
    ∃ digest, Accepted sha256 manifest digest := by
  obtain ⟨-, hcounted⟩ := raiseUnless_bind_eq_ok hverified
  obtain ⟨-, hagent⟩ := raiseUnless_bind_eq_ok hcounted
  obtain ⟨-, hrooted⟩ := raiseUnless_bind_eq_ok hagent
  obtain ⟨digest, hroot, hunique⟩ := bind_eq_ok hrooted
  obtain ⟨-, hnamed⟩ := raiseUnless_bind_eq_ok hunique
  obtain ⟨hnamed, -⟩ := raiseUnless_bind_eq_ok hnamed
  obtain ⟨-, hsorting⟩ := raiseUnless_bind_eq_ok hroot
  obtain ⟨sorted, hsorted, hentries⟩ := bind_eq_ok hsorting
  obtain ⟨entries, hentries, htree⟩ := bind_eq_ok hentries
  have hordered : orderedEntries manifest = entries := by
    rw [orderedEntries, hsorted, mapM_entryOf hentries]
    rfl
  refine ⟨digest, ?_, ?_, hnamed⟩
  · rw [leavesOf, hordered]
    exact orRaise_eq_ok htree
  · rw [hordered, mapM_entryOf hentries]
    exact (perm_of_sortedEntries hsorted).filterMap _

/-! ## Leaves and nodes -/

theorem nodeBytes_inj {left right otherLeft otherRight : Digest}
    (hbytes : nodeBytes left right = nodeBytes otherLeft otherRight) :
    left = otherLeft ∧ right = otherRight := by
  obtain ⟨hleft, hright⟩ := List.append_inj (utf8_injective hbytes)
    (by rw [Digest.length_text, Digest.length_text])
  exact ⟨Digest.text_injective (String.toList_injective hleft),
    Digest.text_injective (String.toList_injective hright)⟩

/-- A leaf has a NUL, a node has none. -/
theorem leafBytes_ne_nodeBytes (entry : Entry) (left right : Digest) :
    utf8 entry.text ≠ nodeBytes left right := by
  intro hbytes
  have hnul : '\x00' ∈ left.text.toList ++ right.text.toList := by
    rw [← utf8_injective hbytes, Entry.text]
    simp
  have hdigits : '\x00' ∈ hexDigits := by
    rcases List.mem_append.mp hnul with hleft | hright
    · exact left.mem_hexDigits _ hleft
    · exact right.mem_hexDigits _ hright
  exact absurd hdigits (by decide)

/-! ## Manifests with one root -/

section Binding

variable {left right : Json} {leftDigest rightDigest : Digest}

theorem injOn_nodeHash {inputs : List Octets} (hfree : CollisionFree sha256 inputs)
    {pairs : List (Digest × Digest)} (hpairs : ∀ pair ∈ pairs, nodeBytes pair.1 pair.2 ∈ inputs) :
    Set.InjOn (fun pair => nodeHash sha256 pair.1 pair.2) {pair | pair ∈ pairs} := by
  intro left hleft right hright hhash
  obtain ⟨hfirst, hsecond⟩ :=
    nodeBytes_inj (hfree _ (hpairs left hleft) _ (hpairs right hright) hhash)
  exact Prod.ext hfirst hsecond

theorem leafBytes_mem {manifest : Json} {entry : Entry} (hentry : entry ∈ orderedEntries manifest) :
    utf8 entry.text ∈ manifestInputs sha256 manifest :=
  List.mem_append_left _ (List.mem_map.mpr ⟨entry, hentry, rfl⟩)

theorem nodeBytes_mem {manifest : Json} {pair : Digest × Digest}
    (hpair : pair ∈ Merkle.treePairs (nodeHash sha256) (leavesOf sha256 manifest)) :
    nodeBytes pair.1 pair.2 ∈ manifestInputs sha256 manifest :=
  List.mem_append_right _ (List.mem_map.mpr ⟨pair, hpair, rfl⟩)

/-- Manifests with one root have the same leaves. -/
theorem exists_text_eq (hleft : Accepted sha256 left leftDigest)
    (hright : Accepted sha256 right rightDigest)
    (hfree : CollisionFree sha256 (manifestInputs sha256 left ++ manifestInputs sha256 right))
    (hroot : leftDigest = rightDigest) {entry : Entry} (hentry : entry ∈ orderedEntries left) :
    ∃ other ∈ orderedEntries right, other.text = entry.text := by
  subst hroot
  have hpairs : ∀ pair ∈ Merkle.treePairs (nodeHash sha256) (leavesOf sha256 left) ++
      Merkle.treePairs (nodeHash sha256) (leavesOf sha256 right),
      nodeBytes pair.1 pair.2 ∈ manifestInputs sha256 left ++ manifestInputs sha256 right := by
    rw [List.forall_mem_append]
    exact ⟨fun pair hpair => List.mem_append_left _ (nodeBytes_mem hpair),
      fun pair hpair => List.mem_append_right _ (nodeBytes_mem hpair)⟩
  have hleaves : ∀ other ∈ leavesOf sha256 left ++ leavesOf sha256 right,
      ∃ entry : Entry, utf8 entry.text ∈ manifestInputs sha256 left ++ manifestInputs sha256 right ∧
        other = leaf sha256 entry := by
    intro other hother
    rcases List.mem_append.mp hother with hmem | hmem
    · obtain ⟨entry, hentry, rfl⟩ := List.mem_map.mp hmem
      exact ⟨entry, List.mem_append_left _ (leafBytes_mem hentry), rfl⟩
    · obtain ⟨entry, hentry, rfl⟩ := List.mem_map.mp hmem
      exact ⟨entry, List.mem_append_right _ (leafBytes_mem hentry), rfl⟩
  have hdisjoint : ∀ other ∈ leavesOf sha256 left ++ leavesOf sha256 right,
      ∀ pair ∈ Merkle.treePairs (nodeHash sha256) (leavesOf sha256 left) ++
        Merkle.treePairs (nodeHash sha256) (leavesOf sha256 right),
      other ≠ nodeHash sha256 pair.1 pair.2 := by
    intro other hother pair hpair hsame
    obtain ⟨entry, hinput, rfl⟩ := hleaves other hother
    exact leafBytes_ne_nodeBytes entry _ _ (hfree _ hinput _ (hpairs pair hpair) hsame)
  have hmem := Merkle.mem_of_root_eq (hleft.root.trans hright.root.symm)
    (injOn_nodeHash hfree hpairs) hdisjoint (List.mem_map_of_mem hentry)
  obtain ⟨other, hother, hhash⟩ := List.mem_map.mp hmem
  exact ⟨other, hother, utf8_injective (hfree _ (List.mem_append_right _ (leafBytes_mem hother))
    _ (List.mem_append_left _ (leafBytes_mem hentry)) hhash)⟩

/-- Where entries are told apart by their texts, a root belongs to one set of entries. -/
theorem mem_entriesOf_of_root_eq (hleft : Accepted sha256 left leftDigest)
    (hright : Accepted sha256 right rightDigest)
    (hfree : CollisionFree sha256 (manifestInputs sha256 left ++ manifestInputs sha256 right))
    (hroot : leftDigest = rightDigest)
    (hinjective : ∀ first ∈ entriesOf left, ∀ second ∈ entriesOf right,
      second.text = first.text → second = first)
    {entry : Entry} (hentry : entry ∈ entriesOf left) : entry ∈ entriesOf right := by
  obtain ⟨other, hother, htext⟩ :=
    exists_text_eq hleft hright hfree hroot (hleft.entries.mem_iff.mpr hentry)
  have hmem := hright.entries.mem_iff.mp hother
  rwa [hinjective entry hentry other hmem htext] at hmem

end Binding

/-! ## Manifests with one entry -/

/-- The manifest of one entry. -/
def singleManifest (sha256 : Octets → Digest) (entry : Entry) : Json := .object [
  ("entries", .array [entry.toJson]),
  ("entry_count", .int 1),
  ("merkle_root", .text (leaf sha256 entry).text),
  ("schema_version", .text schemaVersion)]

section Single

variable {entry : Entry}

theorem entryOf_toJson (hfilled : entry.IsFilled) : entryOf entry.toJson = .ok entry := by
  rw [entryOf, raiseUnless_bind_eq_ok_iff, orRaise_bind_eq_ok_iff]
  refine ⟨rfl, entry.id, rfl, ?_⟩
  rw [orRaise_bind_eq_ok_iff]
  refine ⟨entry.type, rfl, ?_⟩
  rw [orRaise_bind_eq_ok_iff]
  refine ⟨entry.digest, rfl, ?_⟩
  exact raiseUnless_bind_eq_ok_iff.mpr ⟨hfilled, rfl⟩

theorem sortedEntries_toJson (entry : Entry) :
    sortedEntries [entry.toJson] = .ok [entry.toJson] := rfl

theorem merkleRoot_toJson (hfilled : entry.IsFilled) :
    merkleRoot sha256 [entry.toJson] = .ok (leaf sha256 entry) := by
  have hentries : [entry.toJson].mapM entryOf = .ok [entry] := by
    rw [List.mapM_cons, entryOf_toJson hfilled]
    rfl
  have hroot : Merkle.root (nodeHash sha256) ([entry].map (leaf sha256)) =
      some (leaf sha256 entry) := by
    rw [Merkle.root_of_length_le_one (by simp)]
    rfl
  rw [merkleRoot, raiseUnless_bind_eq_ok_iff, bind_eq_ok_iff]
  refine ⟨by simp, _, sortedEntries_toJson entry, ?_⟩
  rw [bind_eq_ok_iff]
  refine ⟨_, hentries, ?_⟩
  rw [hroot]
  rfl

theorem verifyManifest_single (hfilled : entry.IsFilled) :
    verifyManifest sha256 (singleManifest sha256 entry) =
      .ok ⟨(leaf sha256 entry).text, 1⟩ := by
  rw [verifyManifest, raiseUnless_bind_eq_ok_iff, raiseUnless_bind_eq_ok_iff,
    raiseUnless_bind_eq_ok_iff]
  refine ⟨⟨rfl, rfl⟩, ⟨rfl, ?_⟩, rfl, ?_⟩
  · exact Json.equal_int_iff.mpr rfl
  · rw [bind_eq_ok_iff]
    refine ⟨_, merkleRoot_toJson hfilled, ?_⟩
    rw [raiseUnless_bind_eq_ok_iff, raiseUnless_bind_eq_ok_iff]
    exact ⟨List.nodup_singleton _, rfl, rfl⟩

theorem entriesOf_single (hfilled : entry.IsFilled) :
    entriesOf (singleManifest sha256 entry) = [entry] := by
  have hvalues : itemsOf ((singleManifest sha256 entry).get "entries") = [entry.toJson] := rfl
  rw [entriesOf, hvalues, List.filterMap_cons, entryOf_toJson hfilled]
  rfl

theorem manifestInputs_single (hfilled : entry.IsFilled) :
    manifestInputs sha256 (singleManifest sha256 entry) = [utf8 entry.text] := by
  have hvalues : itemsOf ((singleManifest sha256 entry).get "entries") = [entry.toJson] := rfl
  have hordered : orderedEntries (singleManifest sha256 entry) = [entry] := by
    rw [orderedEntries, hvalues, sortedEntries_toJson]
    show [entry.toJson].filterMap _ = _
    rw [List.filterMap_cons, entryOf_toJson hfilled]
    rfl
  rw [manifestInputs, leavesOf, hordered, Merkle.treePairs, if_neg (by simp)]
  rfl

end Single

/-! ## What a root binds -/

/-- For manifests over any set of entries, a root belongs to one set of entries exactly when
no two different entries of the set have the same text. -/
theorem root_binds_entries_iff (sha256 : Octets → Digest) (allowed : Set Entry) :
    (∀ left right leftResult rightResult,
      verifyManifest sha256 left = .ok leftResult →
      verifyManifest sha256 right = .ok rightResult →
      (∀ entry ∈ entriesOf left ++ entriesOf right, entry ∈ allowed) →
      CollisionFree sha256 (manifestInputs sha256 left ++ manifestInputs sha256 right) →
      left.get "merkle_root" = right.get "merkle_root" →
      ∀ entry, entry ∈ entriesOf left ↔ entry ∈ entriesOf right) ↔
    Set.InjOn Entry.text {entry | entry ∈ allowed ∧ entry.IsFilled} := by
  constructor
  · rintro hbinds first ⟨hfirst, hfirstFilled⟩ second ⟨hsecond, hsecondFilled⟩ htext
    have hfree : CollisionFree sha256 (manifestInputs sha256 (singleManifest sha256 first) ++
        manifestInputs sha256 (singleManifest sha256 second)) := by
      rw [manifestInputs_single hfirstFilled, manifestInputs_single hsecondFilled, htext]
      simp [CollisionFree]
    have hroots : (singleManifest sha256 first).get "merkle_root" =
        (singleManifest sha256 second).get "merkle_root" := by
      show Json.text _ = Json.text _
      rw [leaf, leaf, htext]
    have hallowed : ∀ entry ∈ entriesOf (singleManifest sha256 first) ++
        entriesOf (singleManifest sha256 second), entry ∈ allowed := by
      rw [entriesOf_single hfirstFilled, entriesOf_single hsecondFilled]
      simp [hfirst, hsecond]
    have hsame := hbinds _ _ _ _ (verifyManifest_single hfirstFilled)
      (verifyManifest_single hsecondFilled) hallowed hfree hroots first
    rw [entriesOf_single hfirstFilled, entriesOf_single hsecondFilled] at hsame
    simpa using hsame
  · intro hinjective left right leftResult rightResult hleft hright hallowed hfree hroots entry
    obtain ⟨leftDigest, hleftAccepted⟩ := accepted_of_verifyManifest hleft
    obtain ⟨rightDigest, hrightAccepted⟩ := accepted_of_verifyManifest hright
    have hdigests : leftDigest = rightDigest := by
      have hnamed := hrightAccepted.named
      rw [← hroots, hleftAccepted.named] at hnamed
      exact Digest.text_injective (Option.some.inj hnamed)
    obtain ⟨hleftAllowed, hrightAllowed⟩ := List.forall_mem_append.mp hallowed
    have htells : ∀ first ∈ entriesOf left, ∀ second ∈ entriesOf right,
        second.text = first.text → second = first := fun first hfirst second hsecond htext =>
      hinjective ⟨hrightAllowed second hsecond, isFilled_of_mem_entriesOf hsecond⟩
        ⟨hleftAllowed first hfirst, isFilled_of_mem_entriesOf hfirst⟩ htext
    have hfreeSwapped : CollisionFree sha256
        (manifestInputs sha256 right ++ manifestInputs sha256 left) :=
      hfree.mono fun input hinput => (List.mem_append.mp hinput).elim
        (List.mem_append_right _) (List.mem_append_left _)
    constructor
    · exact mem_entriesOf_of_root_eq hleftAccepted hrightAccepted hfree hdigests htells
    · exact mem_entriesOf_of_root_eq hrightAccepted hleftAccepted hfreeSwapped hdigests.symm
        fun first hfirst second hsecond htext => (htells second hsecond first hfirst htext.symm).symm

/-! ## A NUL inside of an id -/

namespace Sample

/-- SHA-256 of the one text of both entries. -/
def textSha256 (_ : Octets) : Digest :=
  ⟨"cf92326f85f50aa865be765403a20d1b6772cd24f2628a15b31d53eb9150b043", by decide +kernel⟩

def longId : Entry := ⟨"a\x00b", "c", "d"⟩

def longType : Entry := ⟨"a", "b\x00c", "d"⟩

end Sample

open Sample in
/-- Two entries with one text make two manifests with one root. -/
theorem not_root_binds_nul :
    ∃ left right leftResult rightResult,
      verifyManifest textSha256 left = .ok leftResult ∧
        verifyManifest textSha256 right = .ok rightResult ∧
          CollisionFree textSha256 (manifestInputs textSha256 left ++ manifestInputs textSha256 right) ∧
            left.get "merkle_root" = right.get "merkle_root" ∧
              longId ∈ entriesOf left ∧ longId ∉ entriesOf right := by
  have hid : longId.IsFilled := by decide
  have htype : longType.IsFilled := by decide
  refine ⟨singleManifest textSha256 longId, singleManifest textSha256 longType, _, _,
    verifyManifest_single hid, verifyManifest_single htype, ?_, rfl, ?_, ?_⟩
  · have htext : longId.text = longType.text := by decide
    rw [manifestInputs_single hid, manifestInputs_single htype, htext]
    simp [CollisionFree]
  · rw [entriesOf_single hid]
    exact List.mem_singleton_self _
  · rw [entriesOf_single htype]
    decide

end AegisForge.Shared.EvidenceManifest
