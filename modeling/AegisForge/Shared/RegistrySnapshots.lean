import Mathlib.Data.List.Forall2
import AegisForge.Shared.AttestationRegistry

/-!
# Snapshots of the attestation registry

The registries that pass verification are the dictionaries of snapshots.  A
snapshot keeps beside every normalized entry the way in which it is written.
-/

namespace AegisForge.Shared.AttestationRegistry

open AegisForge.Core
open Json (array? array?_eq_some_iff int? int?_eq_some_iff)
open Attestation (FilledText Verdict)

/-! ## Entries -/

/-- The ways to write an entry: with its index and without. -/
def WrittenAs (item : Json) (entry : Entry) : Prop :=
  item = entry.toJson ∨ item = entry.metadata

namespace Entry

theorem isCanonical_toJson (entry : Entry) : entry.toJson.IsCanonical := by
  have hkeys : entryFields.IsChain (· < ·) := by decide
  rw [toJson, Json.isCanonical_object_iff]
  exact ⟨hkeys, by simp⟩

theorem isCanonical_metadata (entry : Entry) : entry.metadata.IsCanonical := by
  have hkeys : entryMetadataFields.IsChain (· < ·) := by decide
  rw [metadata, Json.isCanonical_object_iff]
  exact ⟨hkeys, by simp⟩

theorem readable_toJson (entry : Entry) : entry.toJson.Readable := by
  simp [toJson, Json.Readable, Json.ReadableFields]

theorem readable_metadata (entry : Entry) : entry.metadata.Readable := by
  simp [metadata, Json.Readable, Json.ReadableFields]

theorem toJson_injective : Function.Injective toJson := by
  intro left right hentries
  rw [toJson, toJson] at hentries
  simp only [Json.object.injEq, List.cons.injEq, Prod.mk.injEq, Json.text.injEq, Json.int.injEq,
    Int.natCast_inj, true_and, and_true] at hentries
  obtain ⟨hid, hsha256, hcase, hindex, hissued, hkey, hverdict⟩ := hentries
  exact Entry.ext hindex (Digest.text_injective hid) (Digest.text_injective hsha256)
    (Digest.text_injective hcase) (Verdict.text_injective hverdict)
    (FilledText.text_injective hissued) (FilledText.text_injective hkey)

theorem get?_index_toJson (entry : Entry) : entry.toJson.get? "index" = some (.int entry.index) :=
  rfl

theorem indexAgrees_toJson (entry : Entry) : indexAgrees entry.toJson entry.index = true := by
  rw [indexAgrees, get?_index_toJson, decide_eq_true_eq]

theorem toJson_ne_metadata (left right : Entry) : left.toJson ≠ right.metadata := by
  simp [toJson, metadata]

end Entry

theorem WrittenAs.isCanonical {item : Json} {entry : Entry} (hwritten : WrittenAs item entry) :
    item.IsCanonical := by
  rcases hwritten with rfl | rfl
  · exact entry.isCanonical_toJson
  · exact entry.isCanonical_metadata

theorem WrittenAs.readable {item : Json} {entry : Entry} (hwritten : WrittenAs item entry) :
    item.Readable := by
  rcases hwritten with rfl | rfl
  · exact entry.readable_toJson
  · exact entry.readable_metadata

theorem forall_items_of_written {P : Json → Prop} {items : List Json} {entries : List Entry}
    (hwritten : List.Forall₂ WrittenAs items entries)
    (hitem : ∀ item entry, WrittenAs item entry → P item) : ∀ item ∈ items, P item := by
  induction hwritten with
  | nil => exact nofun
  | cons hfirst _ ih => exact List.forall_mem_cons.mpr ⟨hitem _ _ hfirst, ih⟩

/-- The checks of the fields, without the index. -/
theorem normalizeEntry_eq_ok {item : Json} {index : ℕ} {entry : Entry}
    (hok : normalizeEntry item index = .ok entry) :
    (item.hasExactly entryFields = true ∨ item.hasExactly entryMetadataFields = true) ∧
      indexAgrees item index = true ∧ entry.index = index ∧
      item.get "attestation_id" = .text entry.attestationId.text ∧
      item.get "attestation_sha256" = .text entry.attestationSha256.text ∧
      item.get "case_digest" = .text entry.caseDigest.text ∧
      item.get "verdict" = .text entry.verdict.text ∧
      item.get "issued_at" = .text entry.issuedAt.text ∧
      item.get "key_id" = .text entry.keyId.text := by
  obtain ⟨-, hrest⟩ := raiseUnless_bind_eq_ok hok
  obtain ⟨hfields, hchecked⟩ := raiseUnless_bind_eq_ok hrest
  obtain ⟨hindex, hplaced⟩ := raiseUnless_bind_eq_ok hchecked
  obtain ⟨attestationId, hid, hnamed⟩ := orRaise_bind_eq_ok hplaced
  obtain ⟨attestationSha256, hsha256, hhashed⟩ := orRaise_bind_eq_ok hnamed
  obtain ⟨caseDigest, hcase, hcased⟩ := orRaise_bind_eq_ok hhashed
  obtain ⟨verdict, hverdict, hjudged⟩ := orRaise_bind_eq_ok hcased
  obtain ⟨issuedAt, hissued, hdated⟩ := orRaise_bind_eq_ok hjudged
  obtain ⟨keyId, hkey, hanswer⟩ := orRaise_bind_eq_ok hdated
  obtain rfl := Except.ok.inj hanswer
  exact ⟨hfields, hindex, rfl, digest?_eq_some_iff.mp hid, digest?_eq_some_iff.mp hsha256,
    digest?_eq_some_iff.mp hcase, verdict?_eq_some_iff.mp hverdict,
    filledText?_eq_some_iff.mp hissued, filledText?_eq_some_iff.mp hkey⟩

theorem normalizeEntry_toJson (entry : Entry) :
    normalizeEntry entry.toJson entry.index = .ok entry := by
  rw [normalizeEntry]
  simp only [require, demand, raiseUnless_bind_eq_ok_iff, orRaise_bind_eq_ok_iff]
  exact ⟨rfl, Or.inl rfl, entry.indexAgrees_toJson, _,
    digest?_eq_some_iff.mpr rfl, _, digest?_eq_some_iff.mpr rfl, _,
    digest?_eq_some_iff.mpr rfl, _, verdict?_eq_some_iff.mpr rfl, _,
    filledText?_eq_some_iff.mpr rfl, _, filledText?_eq_some_iff.mpr rfl, rfl⟩

theorem normalizeEntry_metadata (entry : Entry) :
    normalizeEntry entry.metadata entry.index = .ok entry := by
  rw [normalizeEntry]
  simp only [require, demand, raiseUnless_bind_eq_ok_iff, orRaise_bind_eq_ok_iff]
  exact ⟨rfl, Or.inr rfl, rfl, _, digest?_eq_some_iff.mpr rfl, _, digest?_eq_some_iff.mpr rfl, _,
    digest?_eq_some_iff.mpr rfl, _, verdict?_eq_some_iff.mpr rfl, _,
    filledText?_eq_some_iff.mpr rfl, _, filledText?_eq_some_iff.mpr rfl, rfl⟩

/-- Normalization reads the entry that is written. -/
theorem normalizeEntry_eq_ok_iff {item : Json} (hcanonical : item.IsCanonical) {index : ℕ}
    {entry : Entry} :
    normalizeEntry item index = .ok entry ↔ entry.index = index ∧ WrittenAs item entry := by
  constructor
  · intro hok
    obtain ⟨hfields, hindex, hentry, hid, hsha256, hcase, hverdict, hissued, hkey⟩ :=
      normalizeEntry_eq_ok hok
    refine ⟨hentry, ?_⟩
    rcases hfields with hfull | hmetadata
    · left
      have hkeyed : "index" ∈ item.keys := (Json.mem_keys_of_hasExactly hfull).mpr (by decide)
      rw [indexAgrees, Json.get?_eq_some_get hkeyed] at hindex
      simp only [decide_eq_true_eq] at hindex
      rw [Json.eq_object_of_hasExactly hcanonical (by decide) hfull]
      simp only [entryFields, List.map_cons, List.map_nil, hid, hsha256, hcase, hindex, hissued,
        hkey, hverdict, Entry.toJson, hentry]
    · right
      rw [Json.eq_object_of_hasExactly hcanonical (by decide) hmetadata]
      have hkeys : entryMetadataFields = ["attestation_id", "attestation_sha256", "case_digest",
        "issued_at", "key_id", "verdict"] := rfl
      simp only [hkeys, List.map_cons, List.map_nil, hid, hsha256, hcase, hissued, hkey, hverdict,
        Entry.metadata]
  · rintro ⟨rfl, rfl | rfl⟩
    · exact normalizeEntry_toJson entry
    · exact normalizeEntry_metadata entry

/-- Entries are numbered from the index on. -/
theorem normalizeEntries_eq_ok_iff {items : List Json}
    (hcanonical : ∀ item ∈ items, item.IsCanonical) {index : ℕ} {entries : List Entry} :
    normalizeEntries index items = .ok entries ↔
      entries.map Entry.index = List.range' index items.length ∧
        List.Forall₂ WrittenAs items entries := by
  induction items generalizing index entries with
  | nil =>
      rw [normalizeEntries, List.forall₂_nil_left_iff]
      constructor
      · intro hok
        obtain rfl := Except.ok.inj hok
        exact ⟨rfl, rfl⟩
      · rintro ⟨-, rfl⟩
        rfl
  | cons item rest ih =>
      simp only [List.forall_mem_cons] at hcanonical
      simp only [normalizeEntries, bind_eq_ok_iff, normalizeEntry_eq_ok_iff hcanonical.1,
        ih hcanonical.2]
      constructor
      · rintro ⟨entry, ⟨hindex, hwritten⟩, others, ⟨hindices, hothers⟩, hanswer⟩
        obtain rfl := Except.ok.inj hanswer
        rw [List.map_cons, hindex, hindices, List.length_cons, List.range'_succ]
        exact ⟨rfl, .cons hwritten hothers⟩
      · rintro ⟨hindices, hall⟩
        cases hall with
        | cons hwritten hothers =>
            rw [List.map_cons, List.length_cons, List.range'_succ, List.cons.injEq] at hindices
            exact ⟨_, ⟨hindices.1, hwritten⟩, _, ⟨hindices.2, hothers⟩, rfl⟩

/-! ## Checkpoints -/

theorem Checkpoint.isCanonical_toJson (checkpoint : Checkpoint) :
    checkpoint.toJson.IsCanonical := by
  have hkeys : checkpointFields.IsChain (· < ·) := by decide
  rw [toJson, Json.isCanonical_object_iff]
  exact ⟨hkeys, by simp⟩

theorem Checkpoint.readable_toJson (checkpoint : Checkpoint) : checkpoint.toJson.Readable := by
  simp [toJson, Json.Readable, Json.ReadableFields]

theorem validateCheckpoint_toJson (checkpoint : Checkpoint) :
    validateCheckpoint checkpoint.toJson = .ok checkpoint := by
  rw [validateCheckpoint]
  simp only [require, demand, raiseUnless_bind_eq_ok_iff, orRaise_bind_eq_ok_iff]
  refine ⟨rfl, checkpoint.size, ?_, _, digest?_eq_some_iff.mpr rfl, _,
    digest?_eq_some_iff.mpr rfl, rfl⟩
  exact Option.filter_eq_some_iff.mpr ⟨rfl, by simp⟩

theorem validateCheckpoint_eq_ok_iff {value : Json} (hcanonical : value.IsCanonical)
    {checkpoint : Checkpoint} :
    validateCheckpoint value = .ok checkpoint ↔ value = checkpoint.toJson := by
  constructor
  · intro hok
    obtain ⟨hfields, hrest⟩ := raiseUnless_bind_eq_ok hok
    obtain ⟨size, hsize, hsized⟩ := orRaise_bind_eq_ok hrest
    obtain ⟨merkleRoot, hroot, hrooted⟩ := orRaise_bind_eq_ok hsized
    obtain ⟨registrySha256, hsha256, hanswer⟩ := orRaise_bind_eq_ok hrooted
    obtain rfl := Except.ok.inj hanswer
    obtain ⟨hint, hpositive⟩ := Option.filter_eq_some_iff.mp hsize
    rw [decide_eq_true_eq] at hpositive
    rw [Json.eq_object_of_hasExactly hcanonical (by decide) hfields]
    simp only [checkpointFields, List.map_cons, List.map_nil, int?_eq_some_iff.mp hint,
      digest?_eq_some_iff.mp hroot, digest?_eq_some_iff.mp hsha256, Checkpoint.toJson,
      Int.toNat_of_nonneg hpositive]
  · rintro rfl
    exact validateCheckpoint_toJson checkpoint

/-- A previous checkpoint as it is written. -/
def previousJson : Option Checkpoint → Json
  | none => .null
  | some checkpoint => checkpoint.toJson

theorem isCanonical_previousJson (previous : Option Checkpoint) :
    (previousJson previous).IsCanonical := by
  cases previous with
  | none => exact .null
  | some checkpoint => exact checkpoint.isCanonical_toJson

theorem readable_previousJson (previous : Option Checkpoint) :
    (previousJson previous).Readable := by
  cases previous with
  | none => exact trivial
  | some checkpoint => exact checkpoint.readable_toJson

theorem validatePrevious_eq_ok_iff {value : Json} (hcanonical : value.IsCanonical)
    {previous : Option Checkpoint} :
    validatePrevious value = .ok previous ↔ value = previousJson previous := by
  rw [validatePrevious]
  split
  case isTrue hnull =>
    cases value with
    | null =>
        constructor
        · intro hok
          obtain rfl := Except.ok.inj hok
          rfl
        · intro hprevious
          cases previous with
          | none => rfl
          | some checkpoint => cases hprevious
    | _ => cases hnull
  case isFalse hvalue =>
    simp only [bind_eq_ok_iff, validateCheckpoint_eq_ok_iff hcanonical]
    constructor
    · rintro ⟨checkpoint, rfl, hanswer⟩
      obtain rfl := Except.ok.inj hanswer
      rfl
    · rintro rfl
      cases previous with
      | none => exact absurd rfl hvalue
      | some checkpoint => exact ⟨checkpoint, rfl, rfl⟩

/-! ## Snapshots -/

/-- The contents of a registry. -/
structure Snapshot where
  items : List Json
  entries : List Entry
  written : List.Forall₂ WrittenAs items entries
  indexed : entries.map Entry.index = List.range entries.length
  distinct : (entries.map Entry.attestationId).Nodup
  previous : Option Checkpoint

namespace Snapshot

variable (sha256 : Octets → Digest) (snapshot : Snapshot)

theorem length_items : snapshot.items.length = snapshot.entries.length :=
  snapshot.written.length_eq

def root : Digest := rootFromEntries sha256 (snapshot.entries.map Entry.toJson)

def toJson : Json :=
  .object [("entries", .array snapshot.items), ("hash_algorithm", .text hashAlgorithm),
    ("merkle_root", .text (snapshot.root sha256).text),
    ("previous_checkpoint", previousJson snapshot.previous),
    ("schema_version", .text schemaVersion), ("size", .int snapshot.entries.length),
    ("tree_algorithm", .text treeAlgorithm)]

def report : RegistryReport :=
  ⟨snapshot.entries.length, snapshot.root sha256,
    registrySha256 sha256 (snapshot.toJson sha256)⟩

theorem isCanonical_items : ∀ item ∈ snapshot.items, item.IsCanonical :=
  forall_items_of_written snapshot.written fun _ _ hwritten => hwritten.isCanonical

theorem isCanonical_toJson : (snapshot.toJson sha256).IsCanonical := by
  have hkeys : registryFields.IsChain (· < ·) := by decide
  rw [toJson, Json.isCanonical_object_iff]
  refine ⟨hkeys, ?_⟩
  simp only [List.forall_mem_cons, Json.isCanonical_array_iff]
  exact ⟨snapshot.isCanonical_items, .text _, .text _, isCanonical_previousJson _, .text _,
    .int _, .text _, fun field hfield => absurd hfield List.not_mem_nil⟩

theorem normalizeEntries_items : normalizeEntries 0 snapshot.items = .ok snapshot.entries := by
  rw [normalizeEntries_eq_ok_iff snapshot.isCanonical_items, snapshot.length_items,
    ← List.range_eq_range']
  exact ⟨snapshot.indexed, snapshot.written⟩

/-- Snapshots are accepted. -/
theorem verifyRegistry_toJson :
    verifyRegistry sha256 (snapshot.toJson sha256) = .ok (snapshot.report sha256) := by
  rw [verifyRegistry]
  refine raiseUnless_bind_eq_ok_iff.mpr ⟨rfl, ?_⟩
  refine raiseUnless_bind_eq_ok_iff.mpr ⟨rfl, ?_⟩
  refine raiseUnless_bind_eq_ok_iff.mpr ⟨rfl, ?_⟩
  refine raiseUnless_bind_eq_ok_iff.mpr ⟨rfl, ?_⟩
  refine raiseUnless_bind_eq_ok_iff.mpr ⟨rfl, ?_⟩
  refine orRaise_bind_eq_ok_iff.mpr ⟨snapshot.items, rfl, ?_⟩
  refine orRaise_bind_eq_ok_iff.mpr ⟨snapshot.entries.length, rfl, ?_⟩
  refine raiseUnless_bind_eq_ok_iff.mpr ⟨by rw [snapshot.length_items], ?_⟩
  refine bind_eq_ok_iff.mpr ⟨snapshot.entries, snapshot.normalizeEntries_items, ?_⟩
  refine raiseUnless_bind_eq_ok_iff.mpr ⟨snapshot.distinct, ?_⟩
  refine raiseUnless_bind_eq_ok_iff.mpr ⟨rfl, ?_⟩
  refine bind_eq_ok_iff.mpr ⟨snapshot.previous,
    (validatePrevious_eq_ok_iff (isCanonical_previousJson _)).mpr rfl, ?_⟩
  rw [snapshot.length_items]
  rfl

end Snapshot

/-- What is accepted is a snapshot. -/
theorem exists_snapshot {sha256 : Octets → Digest} {registry : Json}
    (hcanonical : registry.IsCanonical) {report : RegistryReport}
    (hok : verifyRegistry sha256 registry = .ok report) :
    ∃ snapshot : Snapshot, registry = snapshot.toJson sha256 ∧
      report = snapshot.report sha256 := by
  obtain ⟨-, hfield⟩ := raiseUnless_bind_eq_ok hok
  obtain ⟨hfields, hschema⟩ := raiseUnless_bind_eq_ok hfield
  obtain ⟨hschema, hhash⟩ := raiseUnless_bind_eq_ok hschema
  obtain ⟨hhash, htree⟩ := raiseUnless_bind_eq_ok hhash
  obtain ⟨htree, hlisted⟩ := raiseUnless_bind_eq_ok htree
  obtain ⟨items, hitems, hsized⟩ := orRaise_bind_eq_ok hlisted
  obtain ⟨size, hsize, hcounted⟩ := orRaise_bind_eq_ok hsized
  obtain ⟨hcount, hread⟩ := raiseUnless_bind_eq_ok hcounted
  obtain ⟨entries, hentries, hdistinguished⟩ := bind_eq_ok hread
  obtain ⟨hdistinct, hrooted⟩ := raiseUnless_bind_eq_ok hdistinguished
  obtain ⟨hroot, hlinked⟩ := raiseUnless_bind_eq_ok hrooted
  obtain ⟨previous, hprevious, hanswer⟩ := bind_eq_ok hlinked
  rw [array?_eq_some_iff] at hitems
  rw [int?_eq_some_iff] at hsize
  have hitemsCanonical : ∀ item ∈ items, item.IsCanonical := by
    rw [← Json.isCanonical_array_iff, ← hitems]
    exact Json.isCanonical_get hcanonical "entries"
  rw [normalizeEntries_eq_ok_iff hitemsCanonical, ← List.range_eq_range'] at hentries
  rw [validatePrevious_eq_ok_iff (Json.isCanonical_get hcanonical _)] at hprevious
  have hlength := hentries.2.length_eq
  let snapshot : Snapshot :=
    ⟨items, entries, hentries.2, hlength ▸ hentries.1, hdistinct, previous⟩
  have hregistry : registry = snapshot.toJson sha256 := by
    rw [Json.eq_object_of_hasExactly hcanonical (by decide) hfields]
    simp only [registryFields, List.map_cons, List.map_nil, hitems, hhash, hroot, hprevious,
      hschema, hsize, htree, hcount, hlength]
    rfl
  refine ⟨snapshot, hregistry, ?_⟩
  obtain rfl := Except.ok.inj hanswer
  rw [Snapshot.report, ← hregistry, hlength]
  rfl

end AegisForge.Shared.AttestationRegistry
