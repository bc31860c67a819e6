import AegisForge.Shared.InclusionProofs

/-!
# Appending to the registry

A registry is continued by building a new one over its entries and its checkpoint.
The chain verifier compares the entries as they are written.
-/

namespace AegisForge.Shared.AttestationRegistry

open AegisForge.Core

/-- Items that carry their index are the normalized entries. -/
theorem map_toJson_eq_iff {items : List Json} {entries : List Entry}
    (hwritten : List.Forall₂ WrittenAs items entries) :
    entries.map Entry.toJson = items ↔ ∀ item ∈ items, "index" ∈ item.keys := by
  induction hwritten with
  | nil => simp
  | cons hfirst _ ih =>
      rw [List.map_cons, List.cons.injEq, List.forall_mem_cons, hfirst.mem_keys_iff, eq_comm]
      exact and_congr_right fun _ => ih

namespace Snapshot

/-- A registry that is built holds its entries with their index. -/
def built (entries : List Entry)
    (hindexed : entries.map Entry.index = List.range entries.length)
    (hdistinct : (entries.map Entry.attestationId).Nodup) (previous : Option Checkpoint) :
    Snapshot where
  items := entries.map Entry.toJson
  entries := entries
  written := List.forall₂_map_left_iff.mpr (List.forall₂_same.mpr fun _ _ => Or.inl rfl)
  indexed := hindexed
  distinct := hdistinct
  previous := previous

section Checkpoints

variable (sha256 : Octets → Digest) (snapshot : Snapshot)

def checkpoint : Checkpoint :=
  ⟨snapshot.entries.length, snapshot.root sha256,
    registrySha256 sha256 (snapshot.toJson sha256)⟩

theorem checkpointFor_toJson :
    checkpointFor sha256 (snapshot.toJson sha256) = .ok (snapshot.checkpoint sha256).toJson := by
  rw [checkpointFor, snapshot.verifyRegistry_toJson]
  rfl

end Checkpoints

variable {sha256 : Octets → Digest}

theorem buildRegistry_array {items : List Json} {entries : List Entry}
    (hentries : normalizeEntries 0 items = .ok entries)
    (hindexed : entries.map Entry.index = List.range entries.length)
    (hdistinct : (entries.map Entry.attestationId).Nodup) (previous : Option Checkpoint) :
    buildRegistry sha256 (.array items) (previousJson previous) =
      .ok ((built entries hindexed hdistinct previous).toJson sha256) := by
  rw [buildRegistry]
  refine orRaise_bind_eq_ok_iff.mpr ⟨items, rfl, ?_⟩
  refine bind_eq_ok_iff.mpr ⟨entries, hentries, ?_⟩
  refine raiseUnless_bind_eq_ok_iff.mpr ⟨hdistinct, ?_⟩
  exact bind_eq_ok_iff.mpr ⟨previous,
    (validatePrevious_eq_ok_iff (isCanonical_previousJson previous)).mpr rfl, rfl⟩

/-- A registry continues another one when it holds its checkpoint and its items. -/
theorem verifyRegistryChain_toJson {current previous : Snapshot} :
    (∃ report, verifyRegistryChain sha256 (current.toJson sha256) (previous.toJson sha256) =
        .ok report) ↔
      previousJson current.previous = (previous.checkpoint sha256).toJson ∧
        previous.entries.length < current.entries.length ∧
        current.items.take previous.entries.length = previous.items := by
  constructor
  · rintro ⟨report, hok⟩
    obtain ⟨_, hcurrent, hverified⟩ := bind_eq_ok hok
    obtain ⟨_, hprevious, hboth⟩ := bind_eq_ok hverified
    obtain ⟨_, hexpected, hlinked⟩ := bind_eq_ok hboth
    rw [verifyRegistry_toJson] at hcurrent hprevious
    rw [checkpointFor_toJson] at hexpected
    obtain rfl := Except.ok.inj hcurrent
    obtain rfl := Except.ok.inj hprevious
    obtain rfl := Except.ok.inj hexpected
    obtain ⟨hlink, hgrown⟩ := raiseUnless_bind_eq_ok hlinked
    obtain ⟨hlonger, hkept⟩ := raiseUnless_bind_eq_ok hgrown
    exact ⟨hlink, hlonger, (raiseUnless_bind_eq_ok hkept).1⟩
  · rintro ⟨hlink, hlonger, hitems⟩
    refine ⟨⟨previous.entries.length, current.entries.length, previous.root sha256,
      current.root sha256⟩, ?_⟩
    refine bind_eq_ok_iff.mpr ⟨_, current.verifyRegistry_toJson sha256, ?_⟩
    refine bind_eq_ok_iff.mpr ⟨_, previous.verifyRegistry_toJson sha256, ?_⟩
    refine bind_eq_ok_iff.mpr ⟨_, previous.checkpointFor_toJson sha256, ?_⟩
    refine raiseUnless_bind_eq_ok_iff.mpr ⟨hlink, ?_⟩
    refine raiseUnless_bind_eq_ok_iff.mpr ⟨hlonger, ?_⟩
    exact raiseUnless_bind_eq_ok_iff.mpr ⟨hitems, rfl⟩

end Snapshot

/-- The registry with one more entry is accepted, on its own and as a successor. -/
def AppendAccepted (sha256 : Octets → Digest) (registry item : Json) : Prop :=
  ∃ checkpoint appended, checkpointFor sha256 registry = .ok checkpoint ∧
    buildRegistry sha256 (.array (itemsOf (registry.get "entries") ++ [item])) checkpoint =
      .ok appended ∧
    (∃ report, verifyRegistry sha256 appended = .ok report) ∧
    ∃ chainReport, verifyRegistryChain sha256 appended registry = .ok chainReport

namespace Snapshot

variable {sha256 : Octets → Digest} {snapshot : Snapshot} {item : Json} {entry : Entry}

theorem normalizeEntries_append (hitem : normalizeEntry item snapshot.entries.length = .ok entry)
    (hcanonical : item.IsCanonical) :
    normalizeEntries 0 (snapshot.items ++ [item]) = .ok (snapshot.entries ++ [entry]) := by
  obtain ⟨hindex, hwritten⟩ := (normalizeEntry_eq_ok_iff hcanonical).mp hitem
  have hboth : ∀ held ∈ snapshot.items ++ [item], held.IsCanonical := by
    intro held hheld
    rcases List.mem_append.mp hheld with hold | hnew
    · exact snapshot.isCanonical_items held hold
    · rwa [List.mem_singleton.mp hnew]
  rw [normalizeEntries_eq_ok_iff hboth]
  constructor
  · rw [List.map_append, snapshot.indexed, List.length_append, snapshot.length_items,
      ← List.range_eq_range', List.length_singleton, List.range_succ, List.map_singleton, hindex]
  · exact List.rel_append snapshot.written (.cons hwritten .nil)

/-- The law of appending, by the snapshot. -/
theorem appendAccepted_toJson
    (hitem : normalizeEntry item snapshot.entries.length = .ok entry)
    (hcanonical : item.IsCanonical)
    (hfresh : entry.attestationId ∉ snapshot.entries.map Entry.attestationId) :
    AppendAccepted sha256 (snapshot.toJson sha256) item ↔
      ∀ held ∈ snapshot.items, "index" ∈ held.keys := by
  obtain ⟨hindex, -⟩ := (normalizeEntry_eq_ok_iff hcanonical).mp hitem
  have hindexed : (snapshot.entries ++ [entry]).map Entry.index =
      List.range (snapshot.entries ++ [entry]).length := by
    rw [List.map_append, snapshot.indexed, List.length_append, List.length_singleton,
      List.range_succ, List.map_singleton, hindex]
  have hdistinct : ((snapshot.entries ++ [entry]).map Entry.attestationId).Nodup := by
    rw [List.map_append, List.map_singleton, List.nodup_append_comm, List.singleton_append,
      List.nodup_cons]
    exact ⟨hfresh, snapshot.distinct⟩
  let appended : Snapshot :=
    built (snapshot.entries ++ [entry]) hindexed hdistinct (some (snapshot.checkpoint sha256))
  have hbuilt : buildRegistry sha256 (.array (snapshot.items ++ [item]))
      (snapshot.checkpoint sha256).toJson = .ok (appended.toJson sha256) :=
    buildRegistry_array (normalizeEntries_append hitem hcanonical) hindexed hdistinct
      (some (snapshot.checkpoint sha256))
  have hchain : (∃ report, verifyRegistryChain sha256 (appended.toJson sha256)
      (snapshot.toJson sha256) = .ok report) ↔ ∀ held ∈ snapshot.items, "index" ∈ held.keys := by
    rw [verifyRegistryChain_toJson, ← map_toJson_eq_iff snapshot.written]
    simp [appended, built, previousJson]
  rw [← hchain, AppendAccepted, snapshot.checkpointFor_toJson, itemsOf_toJson]
  constructor
  · rintro ⟨_, _, hcheckpoint, hother, -, hreport⟩
    obtain rfl := Except.ok.inj hcheckpoint
    rw [hbuilt] at hother
    obtain rfl := Except.ok.inj hother
    exact hreport
  · intro hreport
    exact ⟨_, _, rfl, hbuilt, ⟨_, appended.verifyRegistry_toJson sha256⟩, hreport⟩

/-- A fresh attestation id is the id of no item, and conversely. -/
theorem notMem_attestationIds_iff (hwritten : WrittenAs item entry) :
    entry.attestationId ∉ snapshot.entries.map Entry.attestationId ↔
      ∀ held ∈ snapshot.items, held.get "attestation_id" ≠ item.get "attestation_id" := by
  rw [hwritten.get_attestation_id]
  have hitems := snapshot.written
  generalize snapshot.items = items at hitems ⊢
  generalize snapshot.entries = entries at hitems ⊢
  induction hitems with
  | nil => simp
  | cons hfirst _ ih =>
      rw [List.map_cons, List.mem_cons, not_or, List.forall_mem_cons, hfirst.get_attestation_id]
      apply and_congr (not_congr _) ih
      rw [Json.text.injEq, Digest.text_injective.eq_iff, eq_comm]

end Snapshot

/-- A registry can be continued exactly where every entry carries its index. -/
theorem append_accepted_iff (sha256 : Octets → Digest) (registry : Json)
    (hregistry : registry.IsCanonical) (report : RegistryReport)
    (haccepted : verifyRegistry sha256 registry = .ok report) (item : Json)
    (hitem : item.IsCanonical) (entry : Entry)
    (hentry : normalizeEntry item report.size = .ok entry)
    (hfresh : ∀ held ∈ itemsOf (registry.get "entries"),
      held.get "attestation_id" ≠ item.get "attestation_id") :
    AppendAccepted sha256 registry item ↔
      ∀ held ∈ itemsOf (registry.get "entries"), "index" ∈ held.keys := by
  obtain ⟨snapshot, rfl, rfl⟩ := exists_snapshot hregistry haccepted
  rw [snapshot.itemsOf_toJson] at hfresh ⊢
  have hwritten := ((normalizeEntry_eq_ok_iff hitem).mp hentry).2
  exact snapshot.appendAccepted_toJson hentry hitem
    ((snapshot.notMem_attestationIds_iff hwritten).mpr hfresh)

namespace Sample

def thirdEntry : Entry :=
  { firstEntry with
    index := 2
    attestationId := digest '4' (by decide) }

theorem thirdEntry_fresh :
    thirdEntry.attestationId ∉ entries.map Entry.attestationId := by
  intro hmem
  simp only [entries, List.map_cons, List.map_nil, List.mem_cons, List.not_mem_nil, or_false]
    at hmem
  rcases hmem with hsame | hsame <;>
    · have htext := congrArg String.toList (congrArg Digest.text hsame)
      simp [firstEntry, secondEntry, thirdEntry, digest] at htext

end Sample

/-- A registry of two entries without their index is accepted and cannot be continued. -/
theorem bare_registry_not_continued :
    ∃ registry report item entry, registry.IsCanonical ∧
      verifyRegistry Sha256.sha256 registry = .ok report ∧ item.IsCanonical ∧
      normalizeEntry item report.size = .ok entry ∧
      (∀ held ∈ itemsOf (registry.get "entries"),
        held.get "attestation_id" ≠ item.get "attestation_id") ∧
      ¬AppendAccepted Sha256.sha256 registry item := by
  have hentry : normalizeEntry Sample.thirdEntry.metadata Sample.bareSnapshot.entries.length =
      .ok Sample.thirdEntry :=
    normalizeEntry_metadata Sample.thirdEntry
  refine ⟨Sample.bareSnapshot.toJson _, Sample.bareSnapshot.report _, Sample.thirdEntry.metadata,
    Sample.thirdEntry, Sample.bareSnapshot.isCanonical_toJson _,
    Sample.bareSnapshot.verifyRegistry_toJson _, Sample.thirdEntry.isCanonical_metadata, hentry,
    (Snapshot.notMem_attestationIds_iff (Or.inr rfl)).mp Sample.thirdEntry_fresh, ?_⟩
  intro happend
  have hkeys := (Sample.bareSnapshot.appendAccepted_toJson hentry
    Sample.thirdEntry.isCanonical_metadata Sample.thirdEntry_fresh).mp happend
  have hkey := hkeys Sample.firstEntry.metadata List.mem_cons_self
  have hwritten : WrittenAs Sample.firstEntry.metadata Sample.firstEntry := Or.inr rfl
  exact Sample.firstEntry.toJson_ne_metadata Sample.firstEntry (hwritten.mem_keys_iff.mp hkey).symm

/-- A registry of two entries with their index can be continued. -/
theorem indexed_registry_continued :
    AppendAccepted Sha256.sha256 (Sample.snapshot.toJson Sha256.sha256)
      Sample.thirdEntry.metadata := by
  apply (append_accepted_iff Sha256.sha256 _ (Sample.snapshot.isCanonical_toJson _) _
    (Sample.snapshot.verifyRegistry_toJson _) _ Sample.thirdEntry.isCanonical_metadata
    Sample.thirdEntry (normalizeEntry_metadata Sample.thirdEntry)
    ((Snapshot.notMem_attestationIds_iff (Or.inr rfl)).mp Sample.thirdEntry_fresh)).mpr
  rw [Snapshot.itemsOf_toJson]
  exact (map_toJson_eq_iff Sample.snapshot.written).mp rfl

end AegisForge.Shared.AttestationRegistry
