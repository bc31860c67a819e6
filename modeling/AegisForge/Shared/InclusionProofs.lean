import AegisForge.Core.Sha256
import AegisForge.Shared.RegistrySnapshots

/-!
# Inclusion proofs

What the root of an accepted registry fixes as long as the hash function has no
collisions among the bytes that were hashed.
-/

namespace AegisForge.Shared.AttestationRegistry

open AegisForge.Core
open Json (array? array?_eq_some_iff int? int?_eq_some_iff)

/-! ## Hashed bytes -/

section Inputs

variable (sha256 : Octets → Digest)

/-- The bytes that are hashed for the root of entries. -/
def treeInputs (entries : List Json) : List Octets :=
  entries.map leafBytes ++
    (Merkle.treePairs (parentHash sha256) (entries.map (leafHash sha256))).map fun pair =>
      parentBytes pair.1 pair.2

/-- The bytes that verification hashes for the root of a registry. -/
def registryInputs (registry : Json) : List Octets :=
  match normalizeEntries 0 (itemsOf (registry.get "entries")) with
  | .ok entries => treeInputs sha256 (entries.map Entry.toJson)
  | .error _ => []

/-- The bytes that the proofs of a registry are built from. -/
def proverInputs (registry : Json) : List Octets :=
  treeInputs sha256 (itemsOf (registry.get "entries"))

/-- The bytes that the verification of an entry hashes. -/
def climbInputs (entry : Entry) (treeSize leafIndex : ℕ) (siblings : List Digest) :
    List Octets :=
  leafBytes entry.toJson ::
    (Merkle.climbPairs (parentHash sha256) treeSize leafIndex (leafHash sha256 entry.toJson)
      siblings).map fun pair => parentBytes pair.1 pair.2

/-- The bytes that the verification of an inclusion proof hashes. -/
def proofInputs (proof : Json) : List Octets :=
  let treeSize := ((int? (proof.get "tree_size")).getD 0).toNat
  let leafIndex := ((int? (proof.get "leaf_index")).getD 0).toNat
  match normalizeEntry (proof.get "entry") leafIndex with
  | .ok entry =>
      climbInputs sha256 entry treeSize leafIndex ((digests? (proof.get "siblings")).getD [])
  | .error _ => []

end Inputs

section Collisions

variable {sha256 : Octets → Digest} {inputs : List Octets}

theorem parentBytes_inj {left right otherLeft otherRight : Digest}
    (hbytes : parentBytes left right = parentBytes otherLeft otherRight) :
    left = otherLeft ∧ right = otherRight := by
  have happend := (List.cons.inj hbytes).2
  obtain ⟨hleft, hright⟩ := List.append_inj happend (by simp)
  exact ⟨Digest.bytes_injective hleft, Digest.bytes_injective hright⟩

/-- Parents are hashed injectively. -/
theorem injOn_parentHash (hfree : CollisionFree sha256 inputs)
    {pairs : List (Digest × Digest)}
    (hpairs : ∀ pair ∈ pairs, parentBytes pair.1 pair.2 ∈ inputs) :
    Set.InjOn (fun pair => parentHash sha256 pair.1 pair.2) {pair | pair ∈ pairs} := by
  intro left hleft right hright hparent
  have hbytes := hfree _ (hpairs left hleft) _ (hpairs right hright) hparent
  obtain ⟨hfirst, hsecond⟩ := parentBytes_inj hbytes
  exact Prod.ext hfirst hsecond

/-- Leaves are hashed injectively. -/
theorem eq_of_leafHash_eq (hfree : CollisionFree sha256 inputs) {left right : Json}
    (hleft : leafBytes left ∈ inputs) (hright : leafBytes right ∈ inputs)
    (hleftReadable : left.Readable) (hrightReadable : right.Readable)
    (hleaf : leafHash sha256 left = leafHash sha256 right) : left = right := by
  have hbytes := hfree _ hleft _ hright hleaf
  exact Json.eq_of_canonicalBytes_eq hleftReadable hrightReadable (List.cons.inj hbytes).2

/-- No leaf is a parent. -/
theorem leafHash_ne_parentHash (hfree : CollisionFree sha256 inputs) {leaf : Json}
    {left right : Digest} (hleaf : leafBytes leaf ∈ inputs)
    (hparent : parentBytes left right ∈ inputs) :
    leafHash sha256 leaf ≠ parentHash sha256 left right := by
  intro hsame
  have hbytes := hfree _ hleaf _ hparent hsame
  exact absurd (List.cons.inj hbytes).1 (by decide)

theorem leafBytes_mem_treeInputs {entries : List Json} {entry : Json} (hentry : entry ∈ entries) :
    leafBytes entry ∈ treeInputs sha256 entries :=
  List.mem_append_left _ (List.mem_map_of_mem hentry)

theorem parentBytes_mem_treeInputs {entries : List Json} {pair : Digest × Digest}
    (hpair : pair ∈ Merkle.treePairs (parentHash sha256) (entries.map (leafHash sha256))) :
    parentBytes pair.1 pair.2 ∈ treeInputs sha256 entries :=
  List.mem_append_right _ (List.mem_map.mpr ⟨pair, hpair, rfl⟩)

end Collisions

namespace Snapshot

variable (sha256 : Octets → Digest) (snapshot : Snapshot)

/-- The leaves of the root. -/
def leaves : List Digest := (snapshot.entries.map Entry.toJson).map (leafHash sha256)

/-- The leaves that proofs are built from. -/
def rawLeaves : List Digest := snapshot.items.map (leafHash sha256)

@[simp]
theorem length_leaves : (snapshot.leaves sha256).length = snapshot.entries.length := by
  simp [leaves]

@[simp]
theorem length_rawLeaves : (snapshot.rawLeaves sha256).length = snapshot.entries.length := by
  simp [rawLeaves, snapshot.length_items]

theorem itemsOf_toJson : itemsOf ((snapshot.toJson sha256).get "entries") = snapshot.items := rfl

theorem registryInputs_toJson :
    registryInputs sha256 (snapshot.toJson sha256) =
      treeInputs sha256 (snapshot.entries.map Entry.toJson) := by
  rw [registryInputs, itemsOf_toJson, normalizeEntries_items]

/-- The root of a registry with entries is the root of its leaves. -/
theorem root_leaves (hne : snapshot.entries ≠ []) :
    Merkle.root (parentHash sha256) (snapshot.leaves sha256) = some (snapshot.root sha256) := by
  have hleaves : snapshot.leaves sha256 ≠ [] := by
    rw [← List.length_pos_iff, length_leaves]
    exact List.length_pos_iff.mpr hne
  obtain ⟨top, htop⟩ := Option.isSome_iff_exists.mp
    (Merkle.isSome_root (parentHash sha256) hleaves)
  rw [root, rootFromEntries, ← leaves, htop]
  rfl

theorem index_of_getElem? {index : ℕ} {entry : Entry}
    (hentry : snapshot.entries[index]? = some entry) : entry.index = index := by
  have hindex := congrArg (fun indices => indices[index]?) snapshot.indexed
  obtain ⟨hlt, -⟩ := List.getElem?_eq_some_iff.mp hentry
  simp only [List.getElem?_map, hentry, Option.map_some, List.getElem?_range hlt] at hindex
  exact Option.some.inj hindex

/-- The item and the entry at one place. -/
theorem writtenAs_of_getElem? {index : ℕ} {item : Json}
    (hitem : snapshot.items[index]? = some item) :
    ∃ entry, snapshot.entries[index]? = some entry ∧ WrittenAs item entry := by
  obtain ⟨hindex, hitem⟩ := List.getElem?_eq_some_iff.mp hitem
  have hentry : index < snapshot.entries.length := snapshot.length_items ▸ hindex
  refine ⟨snapshot.entries[index], List.getElem?_eq_getElem hentry, ?_⟩
  rw [← hitem]
  exact snapshot.written.get hindex hentry

end Snapshot

/-! ## Accepted proofs -/

/-- What an accepted inclusion proof says. -/
theorem verifyInclusionProof_eq_ok {sha256 : Octets → Digest} {proof : Json}
    {expectedRoot : String} {expectedSize : Option ℤ} {report : InclusionReport}
    (hok : verifyInclusionProof sha256 proof expectedRoot expectedSize = .ok report) :
    ∃ entry siblings, normalizeEntry (proof.get "entry") report.leafIndex = .ok entry ∧
      proof.get "tree_size" = .int report.treeSize ∧
      proof.get "leaf_index" = .int report.leafIndex ∧
      digests? (proof.get "siblings") = some siblings ∧
      report.leafIndex < report.treeSize ∧ report.merkleRoot.text = expectedRoot ∧
      (∀ size ∈ expectedSize, size = report.treeSize) ∧
      report.attestationId = entry.attestationId ∧
      Merkle.climb (parentHash sha256) report.treeSize report.leafIndex
        (leafHash sha256 entry.toJson) siblings = .ok report.merkleRoot := by
  obtain ⟨-, hfields⟩ := raiseUnless_bind_eq_ok hok
  obtain ⟨-, hexpected⟩ := raiseUnless_bind_eq_ok hfields
  obtain ⟨root, hroot, hrooted⟩ := orRaise_bind_eq_ok hexpected
  obtain ⟨-, hsized⟩ := raiseUnless_bind_eq_ok hrooted
  obtain ⟨treeSize, hsize, hmeasured⟩ := orRaise_bind_eq_ok hsized
  obtain ⟨hall, hplaced⟩ := raiseUnless_bind_eq_ok hmeasured
  obtain ⟨leafIndex, hindex, hentered⟩ := orRaise_bind_eq_ok hplaced
  obtain ⟨entry, hentry, hlisted⟩ := bind_eq_ok hentered
  obtain ⟨siblings, hsiblings, hclimbed⟩ := orRaise_bind_eq_ok hlisted
  obtain ⟨hsize, hpositive⟩ := Option.filter_eq_some_iff.mp hsize
  obtain ⟨hindex, hwithin⟩ := Option.filter_eq_some_iff.mp hindex
  rw [int?_eq_some_iff] at hsize hindex
  rw [decide_eq_true_eq] at hpositive hwithin
  cases hclimb : Merkle.climb (parentHash sha256) treeSize.toNat leafIndex.toNat
      (leafHash sha256 entry.toJson) siblings with
  | error refusal =>
      rw [hclimb] at hclimbed
      cases hclimbed
  | ok current =>
      rw [hclimb] at hclimbed
      obtain ⟨hcurrent, hanswer⟩ := raiseUnless_bind_eq_ok hclimbed
      obtain rfl := Except.ok.inj hanswer
      refine ⟨entry, siblings, hentry, ?_, ?_, hsiblings, ?_, ?_, ?_, rfl, hclimb⟩
      · rw [hsize, Int.toNat_of_nonneg (by omega)]
      · rw [hindex, Int.toNat_of_nonneg hwithin.1]
      · show leafIndex.toNat < treeSize.toNat
        omega
      · rw [hcurrent]
        exact Digest.ofText?_eq_some_iff.mp hroot
      · intro size hmem
        rw [Option.mem_def] at hmem
        rw [hmem, Option.all_some, decide_eq_true_eq] at hall
        rw [hall, Int.toNat_of_nonneg (by omega)]

theorem proofInputs_eq {sha256 : Octets → Digest} {proof : Json} {entry : Entry}
    {treeSize leafIndex : ℕ} {siblings : List Digest}
    (hentry : normalizeEntry (proof.get "entry") leafIndex = .ok entry)
    (hsize : proof.get "tree_size" = .int treeSize)
    (hindex : proof.get "leaf_index" = .int leafIndex)
    (hsiblings : digests? (proof.get "siblings") = some siblings) :
    proofInputs sha256 proof = climbInputs sha256 entry treeSize leafIndex siblings := by
  simp only [proofInputs, hsize, hindex, int?, Option.getD_some, Int.toNat_natCast, hentry,
    hsiblings]

/-- The dictionary that `build_inclusion_proof` answers. -/
def proofJson (item : Json) (leafIndex treeSize : ℕ) (root : Digest) (siblings : List Digest) :
    Json :=
  .object [("entry", item), ("leaf_index", .int leafIndex), ("merkle_root", .text root.text),
    ("schema_version", .text proofSchemaVersion),
    ("siblings", .array (siblings.map fun sibling => .text sibling.text)),
    ("tree_size", .int treeSize)]

theorem digests?_texts (digests : List Digest) :
    digests? (.array (digests.map fun digest => .text digest.text)) = some digests := by
  rw [digests?, array?, Option.bind_some]
  induction digests with
  | nil => rfl
  | cons digest rest ih =>
      rw [List.map_cons, List.mapM_cons, digest?_eq_some_iff.mpr rfl, ih]
      rfl

theorem proofInputs_proofJson {sha256 : Octets → Digest} {item : Json} {entry : Entry}
    {leafIndex treeSize : ℕ} {root : Digest} {siblings : List Digest}
    (hentry : normalizeEntry item leafIndex = .ok entry) :
    proofInputs sha256 (proofJson item leafIndex treeSize root siblings) =
      climbInputs sha256 entry treeSize leafIndex siblings :=
  proofInputs_eq hentry rfl rfl (digests?_texts siblings)

/-- A proof with the fields in order is accepted when its climb gets to the root. -/
theorem verifyInclusionProof_proofJson {sha256 : Octets → Digest} {item : Json} {entry : Entry}
    {leafIndex treeSize : ℕ} {root : Digest} {siblings : List Digest}
    (hindex : leafIndex < treeSize) (hentry : normalizeEntry item leafIndex = .ok entry) :
    (∃ report, verifyInclusionProof sha256 (proofJson item leafIndex treeSize root siblings)
        root.text (some treeSize) = .ok report) ↔
      Merkle.climb (parentHash sha256) treeSize leafIndex (leafHash sha256 entry.toJson)
        siblings = .ok root := by
  constructor
  · rintro ⟨report, hok⟩
    obtain ⟨other, others, hother, hsize, hplace, hsiblings, -, hroot, -, -, hclimb⟩ :=
      verifyInclusionProof_eq_ok hok
    have htreeSize : report.treeSize = treeSize := Int.natCast_inj.mp (Json.int.inj hsize).symm
    have hleafIndex : report.leafIndex = leafIndex :=
      Int.natCast_inj.mp (Json.int.inj hplace).symm
    have hothers : others = siblings :=
      Option.some.inj (hsiblings.symm.trans (digests?_texts siblings))
    rw [hleafIndex] at hother hclimb
    obtain rfl := Except.ok.inj (hother.symm.trans hentry)
    rwa [htreeSize, hothers, Digest.text_injective hroot] at hclimb
  · intro hclimb
    refine ⟨⟨entry.attestationId, leafIndex, treeSize, root⟩, ?_⟩
    rw [verifyInclusionProof]
    refine raiseUnless_bind_eq_ok_iff.mpr ⟨⟨rfl, rfl⟩, ?_⟩
    refine raiseUnless_bind_eq_ok_iff.mpr ⟨rfl, ?_⟩
    refine orRaise_bind_eq_ok_iff.mpr ⟨root, Digest.ofText?_text root, ?_⟩
    refine raiseUnless_bind_eq_ok_iff.mpr ⟨rfl, ?_⟩
    refine orRaise_bind_eq_ok_iff.mpr
      ⟨treeSize, Option.filter_eq_some_iff.mpr ⟨rfl, by simp; omega⟩, ?_⟩
    refine raiseUnless_bind_eq_ok_iff.mpr ⟨by simp, ?_⟩
    refine orRaise_bind_eq_ok_iff.mpr
      ⟨leafIndex, Option.filter_eq_some_iff.mpr ⟨rfl, by simp [hindex]⟩, ?_⟩
    refine bind_eq_ok_iff.mpr ⟨entry, hentry, ?_⟩
    refine orRaise_bind_eq_ok_iff.mpr ⟨siblings, digests?_texts siblings, ?_⟩
    simp only [Int.toNat_natCast, hclimb]
    exact raiseUnless_bind_eq_ok_iff.mpr ⟨trivial, rfl⟩

/-! ## A registry of two entries -/

namespace Sample

def digest (digit : Char) (hdigit : digit ∈ hexDigits) : Digest where
  text := String.ofList (List.replicate 64 digit)
  valid := by simp [isDigestText, hdigit]

def firstEntry : Entry where
  index := 0
  attestationId := digest '1' (by decide)
  attestationSha256 := digest '3' (by decide)
  caseDigest := digest '3' (by decide)
  verdict := .reproduced
  issuedAt := ⟨"2026-01-01", by decide⟩
  keyId := ⟨"key-1", by decide⟩

def secondEntry : Entry :=
  { firstEntry with
    index := 1
    attestationId := digest '2' (by decide) }

def entries : List Entry := [firstEntry, secondEntry]

theorem attestationId_ne : firstEntry.attestationId ≠ secondEntry.attestationId := by
  intro hsame
  have htext := congrArg String.toList (congrArg Digest.text hsame)
  simp [firstEntry, secondEntry, digest] at htext

/-- The registry as it is built. -/
def snapshot : Snapshot where
  items := entries.map Entry.toJson
  entries := entries
  written := .cons (Or.inl rfl) (.cons (Or.inl rfl) .nil)
  indexed := rfl
  distinct := by simpa [entries] using attestationId_ne
  previous := none

/-- The registry without the indices of its entries. -/
def bareSnapshot : Snapshot where
  items := entries.map Entry.metadata
  entries := entries
  written := .cons (Or.inr rfl) (.cons (Or.inr rfl) .nil)
  indexed := rfl
  distinct := by simpa [entries] using attestationId_ne
  previous := none

def firstLeaf : Digest :=
  ⟨"f4119288bab7aea6d78a1a4f41355c48fe1f88dea0b82942f43156590cb1cf9a", by decide +kernel⟩

def secondLeaf : Digest :=
  ⟨"dc1360e4737b24ffede3320d090934f89cc6edfb2aeb7e9fe7db498f25a7e22a", by decide +kernel⟩

def bareLeaf : Digest :=
  ⟨"105e6c340a8895d62292ae4de9cbbd0d88a99ce2d373c1bb9936bb2622dd9765", by decide +kernel⟩

theorem leafHash_firstEntry : leafHash Sha256.sha256 firstEntry.toJson = firstLeaf := by
  decide +kernel

theorem leafHash_secondEntry : leafHash Sha256.sha256 secondEntry.toJson = secondLeaf := by
  decide +kernel

theorem leafHash_bareEntry : leafHash Sha256.sha256 firstEntry.metadata = bareLeaf := by
  decide +kernel

theorem rootFromEntries_entries :
    rootFromEntries Sha256.sha256 (entries.map Entry.toJson) =
      parentHash Sha256.sha256 firstLeaf secondLeaf := by
  rw [← leafHash_firstEntry, ← leafHash_secondEntry]
  simp [rootFromEntries, entries, Merkle.root, Merkle.levelUp]

theorem path_bareSnapshot :
    Merkle.path (parentHash Sha256.sha256) (bareSnapshot.rawLeaves Sha256.sha256) 1 =
      [bareLeaf] := by
  rw [← leafHash_bareEntry]
  simp [Snapshot.rawLeaves, bareSnapshot, entries, Merkle.path, Merkle.siblingOf, Merkle.levelUp]

def rootDigest : Digest :=
  ⟨"62ef1c7f32afa925d304ab1ee85b364744071fe9a5b5af29568765c9f225eb78", by decide +kernel⟩

def emptyDigest : Digest :=
  ⟨"7e177eaf7c83ef2759aa2e6ef1945043cd3f6bd7de5f62214d3a22d8ab54ef99", by decide +kernel⟩

theorem parentHash_leaves : parentHash Sha256.sha256 firstLeaf secondLeaf = rootDigest := by
  decide +kernel

theorem emptyRoot_eq : emptyRoot Sha256.sha256 = emptyDigest := by
  decide +kernel

/-- The bytes that are hashed for the sample. -/
def inputs : List Octets :=
  [emptyRootBytes, leafBytes firstEntry.toJson, leafBytes secondEntry.toJson,
    parentBytes firstLeaf secondLeaf]

theorem collisionFree_inputs : CollisionFree Sha256.sha256 inputs := by
  apply CollisionFree.of_nodup
  have hdigests :
      inputs.map Sha256.sha256 = [emptyDigest, firstLeaf, secondLeaf, rootDigest] := by
    show [emptyRoot Sha256.sha256, leafHash Sha256.sha256 firstEntry.toJson,
      leafHash Sha256.sha256 secondEntry.toJson,
      parentHash Sha256.sha256 firstLeaf secondLeaf] = _
    rw [emptyRoot_eq, leafHash_firstEntry, leafHash_secondEntry, parentHash_leaves]
  rw [hdigests]
  decide +kernel

theorem treeInputs_entries : treeInputs Sha256.sha256 (entries.map Entry.toJson) =
    [leafBytes firstEntry.toJson, leafBytes secondEntry.toJson,
      parentBytes firstLeaf secondLeaf] := by
  rw [← leafHash_firstEntry, ← leafHash_secondEntry]
  simp [treeInputs, entries, Merkle.treePairs, Merkle.levelUp]

end Sample

/-! ## Soundness -/

/-- A climb with an entry to the root of a registry starts at the entry of the
registry there. -/
theorem Snapshot.climb_sound {sha256 : Octets → Digest} (snapshot : Snapshot) {entry : Entry}
    {leafIndex : ℕ} {siblings : List Digest} (hindex : leafIndex < snapshot.entries.length)
    (hclimb : Merkle.climb (parentHash sha256) snapshot.entries.length leafIndex
      (leafHash sha256 entry.toJson) siblings = .ok (snapshot.root sha256))
    (hfree : CollisionFree sha256
      (treeInputs sha256 (snapshot.entries.map Entry.toJson) ++
        climbInputs sha256 entry snapshot.entries.length leafIndex siblings)) :
    snapshot.entries[leafIndex]? = some entry ∧
      Merkle.path (parentHash sha256) (snapshot.leaves sha256) leafIndex = siblings := by
  have hne : snapshot.entries ≠ [] := by
    rintro hnil
    simp [hnil] at hindex
  rw [← snapshot.length_leaves sha256] at hclimb hindex
  have hinjective : Set.InjOn (fun pair => parentHash sha256 pair.1 pair.2)
      {pair | pair ∈ Merkle.treePairs (parentHash sha256) (snapshot.leaves sha256) ++
        Merkle.climbPairs (parentHash sha256) (snapshot.leaves sha256).length leafIndex
          (leafHash sha256 entry.toJson) siblings} := by
    apply injOn_parentHash hfree
    intro pair hpair
    rw [snapshot.length_leaves] at hpair
    rcases List.mem_append.mp hpair with htree | hclimbed
    · exact List.mem_append_left _ (parentBytes_mem_treeInputs htree)
    · exact List.mem_append_right _
        (List.mem_cons_of_mem _ (List.mem_map.mpr ⟨pair, hclimbed, rfl⟩))
  obtain ⟨hleaf, hpath⟩ := Merkle.climb_sound hindex (snapshot.root_leaves sha256 hne) hclimb
    hinjective
  refine ⟨?_, hpath⟩
  rw [leaves, List.map_map, List.getElem?_map, Option.map_eq_some_iff] at hleaf
  obtain ⟨held, hheld, hsame⟩ := hleaf
  have hmem : held.toJson ∈ snapshot.entries.map Entry.toJson :=
    List.mem_map_of_mem (List.mem_of_getElem? hheld)
  have hjson : held.toJson = entry.toJson :=
    eq_of_leafHash_eq hfree (List.mem_append_left _ (leafBytes_mem_treeInputs hmem))
      (List.mem_append_right _ List.mem_cons_self) held.readable_toJson entry.readable_toJson
      hsame
  rw [hheld, Entry.toJson_injective hjson]

/-- An accepted inclusion proof proves the entry of the registry at its place. -/
theorem inclusion_proof_sound (sha256 : Octets → Digest) (registry proof : Json)
    (hregistry : registry.IsCanonical) (report : RegistryReport)
    (haccepted : verifyRegistry sha256 registry = .ok report) (proofReport : InclusionReport)
    (hproof : verifyInclusionProof sha256 proof report.merkleRoot.text (some report.size) =
      .ok proofReport)
    (hfree : CollisionFree sha256 (registryInputs sha256 registry ++ proofInputs sha256 proof)) :
    proof.get "leaf_index" = .int proofReport.leafIndex ∧
      ∃ item entry, (itemsOf (registry.get "entries"))[proofReport.leafIndex]? = some item ∧
        normalizeEntry item proofReport.leafIndex = .ok entry ∧
        normalizeEntry (proof.get "entry") proofReport.leafIndex = .ok entry ∧
        proofReport.attestationId = entry.attestationId := by
  obtain ⟨snapshot, rfl, rfl⟩ := exists_snapshot hregistry haccepted
  obtain ⟨entry, siblings, hentry, hsize, hindex, hsiblings, hwithin, hroot, hexpected, hid,
    hclimb⟩ := verifyInclusionProof_eq_ok hproof
  have htreeSize : proofReport.treeSize = snapshot.entries.length := by
    exact Int.natCast_inj.mp (hexpected _ rfl).symm
  have hrootDigest : proofReport.merkleRoot = snapshot.root sha256 := Digest.text_injective hroot
  rw [snapshot.registryInputs_toJson, proofInputs_eq hentry hsize hindex hsiblings, htreeSize]
    at hfree
  rw [htreeSize] at hwithin
  rw [htreeSize, hrootDigest] at hclimb
  obtain ⟨hheld, -⟩ := snapshot.climb_sound hwithin hclimb hfree
  have hitemIndex : proofReport.leafIndex < snapshot.items.length := by
    rwa [snapshot.length_items]
  have hitem := List.getElem?_eq_getElem hitemIndex
  obtain ⟨other, hother, hwritten⟩ := snapshot.writtenAs_of_getElem? hitem
  obtain rfl := Option.some.inj (hheld.symm.trans hother)
  refine ⟨hindex, _, entry, hitem, ?_, hentry, hid⟩
  rw [normalizeEntry_eq_ok_iff hwritten.isCanonical]
  exact ⟨snapshot.index_of_getElem? hheld, hwritten⟩

/-- The accepted proof for the second of two entries proves the second entry. -/
theorem sample_inclusion_proof_sound :
    ∃ proof proofReport, verifyInclusionProof Sha256.sha256 proof
        (Sample.snapshot.report Sha256.sha256).merkleRoot.text (some 2) = .ok proofReport ∧
      ∃ item entry,
        (itemsOf ((Sample.snapshot.toJson Sha256.sha256).get "entries"))[proofReport.leafIndex]? =
            some item ∧
          normalizeEntry item proofReport.leafIndex = .ok entry ∧
          normalizeEntry (proof.get "entry") proofReport.leafIndex = .ok entry ∧
          proofReport.attestationId = entry.attestationId := by
  have hentry : normalizeEntry Sample.secondEntry.toJson 1 = .ok Sample.secondEntry :=
    normalizeEntry_toJson Sample.secondEntry
  have hclimb : Merkle.climb (parentHash Sha256.sha256) 2 1
      (leafHash Sha256.sha256 Sample.secondEntry.toJson) [Sample.firstLeaf] =
        .ok (Sample.snapshot.root Sha256.sha256) := by
    rw [show Sample.snapshot.root Sha256.sha256 = _ from Sample.rootFromEntries_entries,
      Sample.leafHash_secondEntry]
    simp [Merkle.climb]
  obtain ⟨proofReport, hproof⟩ :=
    (verifyInclusionProof_proofJson (by decide) hentry).mpr hclimb
  refine ⟨_, proofReport, hproof, ?_⟩
  apply (inclusion_proof_sound Sha256.sha256 (Sample.snapshot.toJson Sha256.sha256) _
    (Sample.snapshot.isCanonical_toJson _) _ (Sample.snapshot.verifyRegistry_toJson _) proofReport
    hproof _).2
  apply Sample.collisionFree_inputs.mono
  rw [Snapshot.registryInputs_toJson, proofInputs_proofJson hentry]
  show ∀ input ∈ treeInputs Sha256.sha256 (Sample.entries.map Entry.toJson) ++
    climbInputs Sha256.sha256 Sample.secondEntry 2 1 [Sample.firstLeaf], input ∈ Sample.inputs
  rw [Sample.treeInputs_entries, climbInputs, Sample.leafHash_secondEntry]
  simp [Sample.inputs, Merkle.climbPairs, Merkle.ordered]

/-! ## Binding -/

theorem head?_emptyRootBytes : emptyRootBytes.head? = some 65 := by decide +kernel

theorem eq_of_map_eq {A B : Type} {f : A → B} {left right : List A}
    (hmap : left.map f = right.map f)
    (hinjective : ∀ first ∈ left, ∀ second ∈ right, f first = f second → first = second) :
    left = right := by
  induction left generalizing right with
  | nil => exact (List.map_eq_nil_iff.mp hmap.symm).symm
  | cons first rest ih =>
      cases right with
      | nil => cases hmap
      | cons second others =>
          rw [List.map_cons, List.map_cons, List.cons.injEq] at hmap
          rw [hinjective first List.mem_cons_self second List.mem_cons_self hmap.1]
          rw [ih hmap.2 fun a ha b hb =>
            hinjective a (List.mem_cons_of_mem _ ha) b (List.mem_cons_of_mem _ hb)]

namespace Snapshot

variable {sha256 : Octets → Digest} {left right : Snapshot}

theorem root_of_entries_eq_nil {snapshot : Snapshot} (hnil : snapshot.entries = []) :
    snapshot.root sha256 = emptyRoot sha256 := by
  rw [root, rootFromEntries, hnil, List.map_nil, List.map_nil,
    Merkle.root_of_length_le_one (by simp)]
  rfl

/-- A registry with entries does not have the root of an empty one. -/
theorem entries_eq_nil_of_root_eq {snapshot : Snapshot}
    (hroot : snapshot.root sha256 = emptyRoot sha256)
    (hfree : CollisionFree sha256
      (emptyRootBytes :: treeInputs sha256 (snapshot.entries.map Entry.toJson))) :
    snapshot.entries = [] := by
  by_contra hne
  have htop := snapshot.root_leaves sha256 hne
  rw [hroot] at htop
  rcases Merkle.root_mem htop with hleaf | ⟨pair, hpair, hparent⟩
  · obtain ⟨entry, hentry, hsame⟩ := List.mem_map.mp hleaf
    have hbytes := hfree _
      (List.mem_cons_of_mem _ (leafBytes_mem_treeInputs hentry)) _ List.mem_cons_self hsame
    have hfirst := congrArg List.head? hbytes
    rw [head?_emptyRootBytes] at hfirst
    exact absurd (Option.some.inj hfirst) (by decide)
  · have hbytes := hfree _ List.mem_cons_self _
      (List.mem_cons_of_mem _ (parentBytes_mem_treeInputs hpair)) hparent
    have hfirst := congrArg List.head? hbytes
    rw [head?_emptyRootBytes] at hfirst
    exact absurd (Option.some.inj hfirst) (by decide)

/-- The last entry states the number of entries. -/
theorem length_eq_of_getLast? {snapshot : Snapshot} {last : Entry}
    (hlast : snapshot.entries.getLast? = some last) :
    snapshot.entries.length = last.index + 1 := by
  rw [List.getLast?_eq_getElem?] at hlast
  have hindex := snapshot.index_of_getElem? hlast
  obtain ⟨hlt, -⟩ := List.getElem?_eq_some_iff.mp hlast
  omega

theorem getLast?_leaves {snapshot : Snapshot} {last : Entry}
    (hlast : snapshot.entries.getLast? = some last) :
    (snapshot.leaves sha256).getLast? = some (leafHash sha256 last.toJson) := by
  rw [leaves, List.getLast?_map, List.getLast?_map, hlast]
  rfl

/-- Leaves fix their entries. -/
theorem entries_eq_of_leaves_eq (hleaves : left.leaves sha256 = right.leaves sha256)
    (hfree : CollisionFree sha256
      (treeInputs sha256 (left.entries.map Entry.toJson) ++
        treeInputs sha256 (right.entries.map Entry.toJson))) : left.entries = right.entries := by
  apply List.map_injective_iff.mpr Entry.toJson_injective
  apply eq_of_map_eq hleaves
  intro first hfirst second hsecond
  obtain ⟨firstEntry, -, rfl⟩ := List.mem_map.mp hfirst
  obtain ⟨secondEntry, -, rfl⟩ := List.mem_map.mp hsecond
  exact eq_of_leafHash_eq hfree
    (List.mem_append_left _ (leafBytes_mem_treeInputs hfirst))
    (List.mem_append_right _ (leafBytes_mem_treeInputs hsecond))
    firstEntry.readable_toJson secondEntry.readable_toJson

theorem injOn_treePairs (inputs : List Octets) (hfree : CollisionFree sha256
    (inputs ++ (treeInputs sha256 (left.entries.map Entry.toJson) ++
      treeInputs sha256 (right.entries.map Entry.toJson)))) :
    Set.InjOn (fun pair => parentHash sha256 pair.1 pair.2)
      {pair | pair ∈ Merkle.treePairs (parentHash sha256) (left.leaves sha256) ++
        Merkle.treePairs (parentHash sha256) (right.leaves sha256)} := by
  apply injOn_parentHash hfree
  intro pair hpair
  apply List.mem_append_right
  rcases List.mem_append.mp hpair with hleft | hright
  · exact List.mem_append_left _ (parentBytes_mem_treeInputs hleft)
  · exact List.mem_append_right _ (parentBytes_mem_treeInputs hright)

/-- The root fixes the last entry, so it fixes the number of entries. -/
theorem length_eq_of_root_eq (hleft : left.entries ≠ []) (hright : right.entries ≠ [])
    (hroot : left.root sha256 = right.root sha256)
    (hfree : CollisionFree sha256
      (treeInputs sha256 (left.entries.map Entry.toJson) ++
        treeInputs sha256 (right.entries.map Entry.toJson))) :
    left.entries.length = right.entries.length := by
  obtain ⟨leftLast, hleftLast⟩ := Option.isSome_iff_exists.mp (List.getLast?_isSome.mpr hleft)
  obtain ⟨rightLast, hrightLast⟩ :=
    Option.isSome_iff_exists.mp (List.getLast?_isSome.mpr hright)
  have hleftLeaf : leafBytes leftLast.toJson ∈
      treeInputs sha256 (left.entries.map Entry.toJson) ++
        treeInputs sha256 (right.entries.map Entry.toJson) :=
    List.mem_append_left _ (leafBytes_mem_treeInputs
      (List.mem_map_of_mem (List.mem_of_getLast? hleftLast)))
  have hrightLeaf : leafBytes rightLast.toJson ∈
      treeInputs sha256 (left.entries.map Entry.toJson) ++
        treeInputs sha256 (right.entries.map Entry.toJson) :=
    List.mem_append_right _ (leafBytes_mem_treeInputs
      (List.mem_map_of_mem (List.mem_of_getLast? hrightLast)))
  have hroots : Merkle.root (parentHash sha256) (left.leaves sha256) =
      Merkle.root (parentHash sha256) (right.leaves sha256) := by
    rw [left.root_leaves sha256 hleft, right.root_leaves sha256 hright, hroot]
  have hleaves : leafHash sha256 leftLast.toJson = leafHash sha256 rightLast.toJson := by
    apply Merkle.getLast_eq_of_root_eq (getLast?_leaves hleftLast) (getLast?_leaves hrightLast)
      hroots (injOn_treePairs [] hfree)
    intro pair hpair
    have hparent : parentBytes pair.1 pair.2 ∈
        treeInputs sha256 (left.entries.map Entry.toJson) ++
          treeInputs sha256 (right.entries.map Entry.toJson) := by
      rcases List.mem_append.mp hpair with hinLeft | hinRight
      · exact List.mem_append_left _ (parentBytes_mem_treeInputs hinLeft)
      · exact List.mem_append_right _ (parentBytes_mem_treeInputs hinRight)
    exact ⟨leafHash_ne_parentHash hfree hleftLeaf hparent,
      leafHash_ne_parentHash hfree hrightLeaf hparent⟩
  have hlast := eq_of_leafHash_eq hfree hleftLeaf hrightLeaf leftLast.readable_toJson
    rightLast.readable_toJson hleaves
  rw [length_eq_of_getLast? hleftLast, length_eq_of_getLast? hrightLast,
    Entry.toJson_injective hlast]

/-- The root fixes the entries, whatever their number. -/
theorem entries_eq_of_root_eq (hroot : left.root sha256 = right.root sha256)
    (hfree : CollisionFree sha256
      (emptyRootBytes :: (treeInputs sha256 (left.entries.map Entry.toJson) ++
        treeInputs sha256 (right.entries.map Entry.toJson)))) :
    left.entries = right.entries := by
  have hboth : CollisionFree sha256 (treeInputs sha256 (left.entries.map Entry.toJson) ++
      treeInputs sha256 (right.entries.map Entry.toJson)) :=
    hfree.mono fun _ hinput => List.mem_cons_of_mem _ hinput
  by_cases hleft : left.entries = []
  · have hright := entries_eq_nil_of_root_eq (hroot ▸ root_of_entries_eq_nil hleft)
      (hfree.mono fun input hinput => by
        rcases List.mem_cons.mp hinput with rfl | htree
        · exact List.mem_cons_self
        · exact List.mem_cons_of_mem _ (List.mem_append_right _ htree))
    rw [hleft, hright]
  by_cases hright : right.entries = []
  · have hleft := entries_eq_nil_of_root_eq (hroot.trans (root_of_entries_eq_nil hright))
      (hfree.mono fun input hinput => by
        rcases List.mem_cons.mp hinput with rfl | htree
        · exact List.mem_cons_self
        · exact List.mem_cons_of_mem _ (List.mem_append_left _ htree))
    rw [hleft, hright]
  apply entries_eq_of_leaves_eq _ hboth
  apply Merkle.eq_of_root_eq
  · rw [length_leaves, length_leaves, length_eq_of_root_eq hleft hright hroot hboth]
  · rw [left.root_leaves sha256 hleft, right.root_leaves sha256 hright, hroot]
  · exact injOn_treePairs [] hboth

end Snapshot

/-- Accepted registries with one root have the same normalized entries. -/
theorem registry_root_binds (sha256 : Octets → Digest) (left right : Json)
    (hleft : left.IsCanonical) (hright : right.IsCanonical)
    (leftReport rightReport : RegistryReport)
    (hleftAccepted : verifyRegistry sha256 left = .ok leftReport)
    (hrightAccepted : verifyRegistry sha256 right = .ok rightReport)
    (hroot : left.get "merkle_root" = right.get "merkle_root")
    (hfree : CollisionFree sha256
      (emptyRootBytes :: (registryInputs sha256 left ++ registryInputs sha256 right))) :
    ∃ entries, normalizeEntries 0 (itemsOf (left.get "entries")) = .ok entries ∧
      normalizeEntries 0 (itemsOf (right.get "entries")) = .ok entries := by
  obtain ⟨leftSnapshot, rfl, -⟩ := exists_snapshot hleft hleftAccepted
  obtain ⟨rightSnapshot, rfl, -⟩ := exists_snapshot hright hrightAccepted
  rw [Snapshot.registryInputs_toJson, Snapshot.registryInputs_toJson] at hfree
  have hroots : leftSnapshot.root sha256 = rightSnapshot.root sha256 :=
    Digest.text_injective (Json.text.inj hroot)
  refine ⟨leftSnapshot.entries, leftSnapshot.normalizeEntries_items, ?_⟩
  rw [Snapshot.entries_eq_of_root_eq hroots hfree]
  exact rightSnapshot.normalizeEntries_items

/-- The registries with and without indices have one root and one list of entries. -/
theorem sample_registry_root_binds :
    ∃ entries, normalizeEntries 0
        (itemsOf ((Sample.snapshot.toJson Sha256.sha256).get "entries")) = .ok entries ∧
      normalizeEntries 0
        (itemsOf ((Sample.bareSnapshot.toJson Sha256.sha256).get "entries")) = .ok entries := by
  apply registry_root_binds Sha256.sha256 _ _ (Sample.snapshot.isCanonical_toJson _)
    (Sample.bareSnapshot.isCanonical_toJson _) _ _ (Sample.snapshot.verifyRegistry_toJson _)
    (Sample.bareSnapshot.verifyRegistry_toJson _) rfl
  apply Sample.collisionFree_inputs.mono
  rw [Snapshot.registryInputs_toJson, Snapshot.registryInputs_toJson]
  show ∀ input ∈ emptyRootBytes :: (treeInputs Sha256.sha256 (Sample.entries.map Entry.toJson) ++
    treeInputs Sha256.sha256 (Sample.entries.map Entry.toJson)), input ∈ Sample.inputs
  rw [Sample.treeInputs_entries]
  simp [Sample.inputs]

/-! ## Completeness -/

theorem WrittenAs.get_attestation_id {item : Json} {entry : Entry}
    (hwritten : WrittenAs item entry) :
    item.get "attestation_id" = .text entry.attestationId.text := by
  rcases hwritten with rfl | rfl <;> rfl

/-- An item with its index is the normalized entry. -/
theorem WrittenAs.mem_keys_iff {item : Json} {entry : Entry} (hwritten : WrittenAs item entry) :
    "index" ∈ item.keys ↔ item = entry.toJson := by
  rcases hwritten with rfl | rfl
  · simp [Entry.toJson, Json.keys]
  · have hkey : "index" ∉ entry.metadata.keys := by
      show "index" ∉ entryMetadataFields
      decide
    simp only [hkey, false_iff]
    exact (entry.toJson_ne_metadata entry).symm

namespace Snapshot

variable (sha256 : Octets → Digest) (snapshot : Snapshot)

theorem eq_singleton_of_nodup {A : Type} {list : List A} {only : A} (hnodup : list.Nodup)
    (hmem : only ∈ list) (hall : ∀ other ∈ list, other = only) : list = [only] := by
  match list with
  | [first] => rw [hall first List.mem_cons_self]
  | first :: second :: rest =>
      have hfirst := hall first List.mem_cons_self
      have hsecond := hall second (List.mem_cons_of_mem _ List.mem_cons_self)
      rw [List.nodup_cons] at hnodup
      exact absurd (by rw [hfirst, hsecond]; exact List.mem_cons_self) hnodup.1

theorem nodup_zipIdx_swap (items : List Json) : (items.zipIdx.map Prod.swap).Nodup := by
  apply List.Nodup.of_map Prod.fst
  rw [List.map_map, show Prod.fst ∘ Prod.swap = (Prod.snd : Json × ℕ → ℕ) from rfl,
    List.zipIdx_map_snd]
  exact List.nodup_range'

/-- An attestation id that occurs at a place occurs there only. -/
theorem matchesOf_items {index : ℕ} {item : Json} {attestationId : String}
    (hitem : snapshot.items[index]? = some item)
    (hid : item.get "attestation_id" = .text attestationId) :
    matchesOf snapshot.items attestationId = [(index, item)] := by
  apply eq_singleton_of_nodup ((nodup_zipIdx_swap snapshot.items).filter _)
  · rw [List.mem_filter, List.mem_map]
    exact ⟨⟨(item, index), List.mem_zipIdx_iff_getElem?.mpr hitem, rfl⟩, by simpa using hid⟩
  · intro found hfound
    rw [List.mem_filter, List.mem_map] at hfound
    obtain ⟨⟨⟨held, other⟩, hother, rfl⟩, hsame⟩ := hfound
    rw [List.mem_zipIdx_iff_getElem?] at hother
    obtain ⟨entry, hentry, hwritten⟩ := snapshot.writtenAs_of_getElem? hitem
    obtain ⟨otherEntry, hotherEntry, hotherWritten⟩ := snapshot.writtenAs_of_getElem? hother
    rw [hwritten.get_attestation_id] at hid
    rw [decide_eq_true_eq, Prod.snd_swap, hotherWritten.get_attestation_id, ← hid] at hsame
    have hids : (snapshot.entries.map Entry.attestationId)[other]? =
        (snapshot.entries.map Entry.attestationId)[index]? := by
      rw [List.getElem?_map, List.getElem?_map, hentry, hotherEntry, Option.map_some,
        Option.map_some, Digest.text_injective (Json.text.inj hsame)]
    obtain ⟨hlt, -⟩ := List.getElem?_eq_some_iff.mp hotherEntry
    have hplace : other = index :=
      (List.getElem?_inj (by rwa [List.length_map]) snapshot.distinct).mp hids
    rw [hplace] at hother ⊢
    rw [Option.some.inj (hitem.symm.trans hother)]
    rfl

theorem buildInclusionProof_toJson {index : ℕ} {item : Json} {attestationId : String}
    (hitem : snapshot.items[index]? = some item)
    (hid : item.get "attestation_id" = .text attestationId) :
    buildInclusionProof sha256 (snapshot.toJson sha256) attestationId =
      .ok (proofJson item index snapshot.entries.length (snapshot.root sha256)
        (Merkle.path (parentHash sha256) (snapshot.rawLeaves sha256) index)) := by
  simp only [buildInclusionProof, snapshot.verifyRegistry_toJson, itemsOf_toJson,
    snapshot.matchesOf_items hitem hid]
  rfl

variable {sha256 snapshot}

theorem getElem?_rawLeaves {index : ℕ} {item : Json}
    (hitem : snapshot.items[index]? = some item) :
    (snapshot.rawLeaves sha256)[index]? = some (leafHash sha256 item) := by
  rw [rawLeaves, List.getElem?_map, hitem, Option.map_some]

theorem getElem?_leaves {index : ℕ} {entry : Entry}
    (hentry : snapshot.entries[index]? = some entry) :
    (snapshot.leaves sha256)[index]? = some (leafHash sha256 entry.toJson) := by
  rw [leaves, List.map_map, List.getElem?_map, hentry, Option.map_some, Function.comp_apply]

/-- An item that carries its index has the leaf of its entry. -/
theorem rawLeaves_eq_of_mem_keys {index : ℕ} {item : Json}
    (hitem : snapshot.items[index]? = some item) (hkey : "index" ∈ item.keys) :
    (snapshot.rawLeaves sha256)[index]? = (snapshot.leaves sha256)[index]? := by
  obtain ⟨entry, hentry, hwritten⟩ := snapshot.writtenAs_of_getElem? hitem
  rw [getElem?_rawLeaves hitem, getElem?_leaves hentry, ← hwritten.mem_keys_iff.mp hkey]

/-- Without collisions, no other item has the leaf of its entry. -/
theorem mem_keys_of_rawLeaves_eq {index : ℕ} {item : Json}
    (hitem : snapshot.items[index]? = some item)
    (hleaf : (snapshot.rawLeaves sha256)[index]? = (snapshot.leaves sha256)[index]?)
    (hfree : CollisionFree sha256 (treeInputs sha256 snapshot.items ++
      treeInputs sha256 (snapshot.entries.map Entry.toJson))) : "index" ∈ item.keys := by
  obtain ⟨entry, hentry, hwritten⟩ := snapshot.writtenAs_of_getElem? hitem
  rw [getElem?_rawLeaves hitem, getElem?_leaves hentry] at hleaf
  rw [hwritten.mem_keys_iff]
  apply eq_of_leafHash_eq hfree
    (List.mem_append_left _ (leafBytes_mem_treeInputs (List.mem_of_getElem? hitem)))
    (List.mem_append_right _ (leafBytes_mem_treeInputs
      (List.mem_map_of_mem (List.mem_of_getElem? hentry))))
    hwritten.readable entry.readable_toJson (Option.some.inj hleaf)

end Snapshot

/-- The items beside a place carry their index, and so does the item at the place if
its node becomes its own sibling on the way to the root. -/
def IndexedBeside (items : List Json) (index : ℕ) : Prop :=
  ∀ other item, items[other]? = some item →
    other ≠ index ∨ Merkle.meetsItself index items.length = true → "index" ∈ item.keys

namespace Snapshot

variable {sha256 : Octets → Digest} {snapshot : Snapshot}

/-- The built path is the path of the root where the items beside it carry their index. -/
theorem path_rawLeaves {index : ℕ} (hindex : index < snapshot.entries.length)
    (hindexed : IndexedBeside snapshot.items index) :
    Merkle.path (parentHash sha256) (snapshot.rawLeaves sha256) index =
      Merkle.path (parentHash sha256) (snapshot.leaves sha256) index := by
  have hlength : (snapshot.rawLeaves sha256).length = (snapshot.leaves sha256).length := by
    rw [length_rawLeaves, length_leaves]
  have hbeside : ∀ other, (other ≠ index ∨
      Merkle.meetsItself index snapshot.items.length = true) →
      (snapshot.rawLeaves sha256)[other]? = (snapshot.leaves sha256)[other]? := by
    intro other hother
    by_cases hwithin : other < snapshot.items.length
    · have hitem := List.getElem?_eq_getElem hwithin
      exact rawLeaves_eq_of_mem_keys hitem (hindexed other _ hitem hother)
    · rw [snapshot.length_items] at hwithin
      rw [List.getElem?_eq_none (by simpa using hwithin),
        List.getElem?_eq_none (by simpa using hwithin)]
  by_cases hitself : Merkle.meetsItself index snapshot.items.length = true
  · rw [List.ext_getElem? fun other => hbeside other (Or.inr hitself)]
  · apply Merkle.path_congr hlength (by simpa using hindex)
    · rw [snapshot.length_items] at hitself
      simpa using hitself
    · exact fun other hother => hbeside other (Or.inl hother)

/-- Without collisions, the built path is the path of the root nowhere else. -/
theorem indexedBeside_of_path_eq {index : ℕ} (hindex : index < snapshot.entries.length)
    (hpath : Merkle.path (parentHash sha256) (snapshot.rawLeaves sha256) index =
      Merkle.path (parentHash sha256) (snapshot.leaves sha256) index)
    (hfree : CollisionFree sha256 (treeInputs sha256 snapshot.items ++
      treeInputs sha256 (snapshot.entries.map Entry.toJson))) :
    IndexedBeside snapshot.items index := by
  have hlength : (snapshot.rawLeaves sha256).length = (snapshot.leaves sha256).length := by
    rw [length_rawLeaves, length_leaves]
  obtain ⟨hothers, hitself⟩ := Merkle.leaves_eq_of_path_eq hlength (by simpa using hindex) hpath
    (injOn_parentHash hfree fun pair hpair => by
      rcases List.mem_append.mp hpair with hraw | hnormalized
      · exact List.mem_append_left _ (parentBytes_mem_treeInputs hraw)
      · exact List.mem_append_right _ (parentBytes_mem_treeInputs hnormalized))
  rw [length_rawLeaves] at hitself
  intro other item hitem hbeside
  apply mem_keys_of_rawLeaves_eq hitem _ hfree
  by_cases hother : other = index
  · rw [hother] at hbeside ⊢
    rw [snapshot.length_items] at hbeside
    exact hitself (hbeside.resolve_left (absurd rfl))
  · exact hothers other hother

/-- The climb of a built proof gets to the root when its path is the path of the root. -/
theorem climb_rawLeaves {index : ℕ} {entry : Entry}
    (hentry : snapshot.entries[index]? = some entry)
    (hpath : Merkle.path (parentHash sha256) (snapshot.rawLeaves sha256) index =
      Merkle.path (parentHash sha256) (snapshot.leaves sha256) index) :
    Merkle.climb (parentHash sha256) snapshot.entries.length index
      (leafHash sha256 entry.toJson)
      (Merkle.path (parentHash sha256) (snapshot.rawLeaves sha256) index) =
        .ok (snapshot.root sha256) := by
  have hne : snapshot.entries ≠ [] := by
    rintro hnil
    simp [hnil] at hentry
  rw [hpath, ← snapshot.length_leaves sha256]
  exact Merkle.climb_path (getElem?_leaves hentry) (snapshot.root_leaves sha256 hne)

end Snapshot

/-- The proof that is built for an attestation id is accepted. -/
def ProvesInclusion (sha256 : Octets → Digest) (registry : Json) (report : RegistryReport)
    (attestationId : String) : Prop :=
  ∃ proof proofReport, buildInclusionProof sha256 registry attestationId = .ok proof ∧
    verifyInclusionProof sha256 proof report.merkleRoot.text (some report.size) =
      .ok proofReport

/-- The bytes that are hashed when a proof is built and verified. -/
def inclusionInputs (sha256 : Octets → Digest) (registry : Json) (attestationId : String) :
    List Octets :=
  proverInputs sha256 registry ++ registryInputs sha256 registry ++
    match buildInclusionProof sha256 registry attestationId with
    | .ok proof => proofInputs sha256 proof
    | .error _ => []

namespace Snapshot

variable {sha256 : Octets → Digest} {snapshot : Snapshot} {index : ℕ} {item : Json}
  {entry : Entry} {attestationId : String}

theorem provesInclusion_toJson (hitem : snapshot.items[index]? = some item)
    (hentry : snapshot.entries[index]? = some entry) (hwritten : WrittenAs item entry)
    (hid : item.get "attestation_id" = .text attestationId) :
    ProvesInclusion sha256 (snapshot.toJson sha256) (snapshot.report sha256) attestationId ↔
      Merkle.climb (parentHash sha256) snapshot.entries.length index
        (leafHash sha256 entry.toJson)
        (Merkle.path (parentHash sha256) (snapshot.rawLeaves sha256) index) =
          .ok (snapshot.root sha256) := by
  obtain ⟨hindex, -⟩ := List.getElem?_eq_some_iff.mp hentry
  have hnormalized : normalizeEntry item index = .ok entry :=
    (normalizeEntry_eq_ok_iff hwritten.isCanonical).mpr
      ⟨snapshot.index_of_getElem? hentry, hwritten⟩
  rw [← verifyInclusionProof_proofJson hindex hnormalized, ProvesInclusion]
  simp only [snapshot.buildInclusionProof_toJson sha256 hitem hid, Except.ok.injEq,
    exists_and_left, exists_eq_left']
  rfl

theorem inclusionInputs_toJson (hitem : snapshot.items[index]? = some item)
    (hentry : snapshot.entries[index]? = some entry) (hwritten : WrittenAs item entry)
    (hid : item.get "attestation_id" = .text attestationId) :
    inclusionInputs sha256 (snapshot.toJson sha256) attestationId =
      treeInputs sha256 snapshot.items ++
          treeInputs sha256 (snapshot.entries.map Entry.toJson) ++
        climbInputs sha256 entry snapshot.entries.length index
          (Merkle.path (parentHash sha256) (snapshot.rawLeaves sha256) index) := by
  have hnormalized : normalizeEntry item index = .ok entry :=
    (normalizeEntry_eq_ok_iff hwritten.isCanonical).mpr
      ⟨snapshot.index_of_getElem? hentry, hwritten⟩
  rw [inclusionInputs, proverInputs, itemsOf_toJson, registryInputs_toJson,
    snapshot.buildInclusionProof_toJson sha256 hitem hid]
  congr 1
  exact proofInputs_proofJson hnormalized

end Snapshot

/-- A built inclusion proof is accepted where the entries beside it carry their index,
and without collisions nowhere else. -/
theorem inclusion_proof_accepted_iff (sha256 : Octets → Digest) (registry : Json)
    (hregistry : registry.IsCanonical) (report : RegistryReport)
    (haccepted : verifyRegistry sha256 registry = .ok report) (index : ℕ) (item : Json)
    (hitem : (itemsOf (registry.get "entries"))[index]? = some item) (attestationId : String)
    (hid : item.get "attestation_id" = .text attestationId) :
    (IndexedBeside (itemsOf (registry.get "entries")) index →
      ProvesInclusion sha256 registry report attestationId) ∧
    (CollisionFree sha256 (inclusionInputs sha256 registry attestationId) →
      ProvesInclusion sha256 registry report attestationId →
        IndexedBeside (itemsOf (registry.get "entries")) index) := by
  obtain ⟨snapshot, rfl, rfl⟩ := exists_snapshot hregistry haccepted
  rw [snapshot.itemsOf_toJson] at hitem ⊢
  obtain ⟨entry, hentry, hwritten⟩ := snapshot.writtenAs_of_getElem? hitem
  obtain ⟨hindex, -⟩ := List.getElem?_eq_some_iff.mp hentry
  rw [snapshot.provesInclusion_toJson hitem hentry hwritten hid,
    snapshot.inclusionInputs_toJson hitem hentry hwritten hid]
  constructor
  · intro hindexed
    exact snapshot.climb_rawLeaves hentry (snapshot.path_rawLeaves hindex hindexed)
  · intro hfree hclimb
    have hpath := (snapshot.climb_sound hindex hclimb (hfree.mono fun input hinput => by
      simp only [List.mem_append] at hinput ⊢
      tauto)).2
    exact snapshot.indexedBeside_of_path_eq hindex hpath.symm
      (hfree.mono fun input hinput => List.mem_append_left _ hinput)

/-- The proof for the second of two entries without their index is refused. -/
theorem bare_inclusion_proof_refused :
    ∃ registry report attestationId, registry.IsCanonical ∧
      verifyRegistry Sha256.sha256 registry = .ok report ∧
      (∃ item ∈ itemsOf (registry.get "entries"),
        item.get "attestation_id" = .text attestationId) ∧
      ¬ProvesInclusion Sha256.sha256 registry report attestationId := by
  refine ⟨Sample.bareSnapshot.toJson _, Sample.bareSnapshot.report _,
    Sample.secondEntry.attestationId.text, Sample.bareSnapshot.isCanonical_toJson _,
    Sample.bareSnapshot.verifyRegistry_toJson _,
    ⟨Sample.secondEntry.metadata, by simp [Snapshot.itemsOf_toJson, Sample.bareSnapshot,
      Sample.entries], rfl⟩, ?_⟩
  have hitem : Sample.bareSnapshot.items[1]? = some Sample.secondEntry.metadata := rfl
  have hentry : Sample.bareSnapshot.entries[1]? = some Sample.secondEntry := rfl
  rw [Snapshot.provesInclusion_toJson hitem hentry (Or.inr rfl) rfl, Sample.path_bareSnapshot,
    show Sample.bareSnapshot.root Sha256.sha256 = _ from Sample.rootFromEntries_entries,
    Sample.leafHash_secondEntry]
  decide +kernel

/-- The proof for the second of two entries with their index is accepted. -/
theorem indexed_inclusion_proof_accepted :
    ProvesInclusion Sha256.sha256 (Sample.snapshot.toJson Sha256.sha256)
      (Sample.snapshot.report Sha256.sha256) Sample.secondEntry.attestationId.text := by
  apply (inclusion_proof_accepted_iff Sha256.sha256 _ (Sample.snapshot.isCanonical_toJson _) _
    (Sample.snapshot.verifyRegistry_toJson _) 1 Sample.secondEntry.toJson rfl _ rfl).1
  intro other item hitem _
  have hmem : item ∈ [Sample.firstEntry.toJson, Sample.secondEntry.toJson] :=
    List.mem_of_getElem? hitem
  simp only [List.mem_cons, List.not_mem_nil, or_false] at hmem
  rcases hmem with rfl | rfl
  · exact (WrittenAs.mem_keys_iff (Or.inl rfl)).mpr rfl
  · exact (WrittenAs.mem_keys_iff (Or.inl rfl)).mpr rfl

end AegisForge.Shared.AttestationRegistry
