import AegisForge.Shared.CaseBundleExport
import AegisForge.Shared.CaseRoundTrip
import AegisForge.Shared.TaskParentGraph

/-!
# Which case bundles are accepted

The members of a bundle are accepted exactly if they are a case, a forest of its tasks,
the observations of these, and the manifest that the bytes of the other members fix.
-/

namespace AegisForge.Shared.ResearchCaseBundle

open AegisForge.Core TaskParentGraph

theorem raiseUnless_eq_ok_iff {condition : Prop} [Decidable condition] {error : Raised}
    {value : PUnit} : raiseUnless condition error = .ok value ↔ condition := by
  refine ⟨raiseUnless_eq_ok, fun hcondition => ?_⟩
  rw [raiseUnless, if_pos hcondition]

theorem orRaise_eq_ok_iff {A : Type} {error : Raised} {found : Option A} {value : A} :
    orRaise error found = .ok value ↔ found = some value := by
  cases found <;> simp [orRaise]

/-! ## Manifests -/

/-- The entries for the bytes of the members. -/
def entriesOf (files : List (String × Octets)) : List Json :=
  manifestEntries (fileOf files "case.json") (fileOf files "tasks.json")
    (fileOf files "evidence.json")

/-- `manifest_core` of the first version. -/
def legacyCore (caseId caseDigest : String) (entries : List Json) : Json :=
  .object [("case_digest", .text caseDigest), ("case_id", .text caseId),
    ("entries", .array entries), ("schema_version", .text legacySchemaVersion)]

/-- The manifest of a case, which the entries fix. -/
inductive IsManifest (caseId caseDigest : String) (entries : List Json) : String → Json → Prop
  | current : IsManifest caseId caseDigest entries schemaVersion
      (exportManifest caseId caseDigest entries)
  | legacy : IsManifest caseId caseDigest entries legacySchemaVersion (.object [
      ("bundle_sha256",
        .text (Sha256.sha256 (canonicalBytes (legacyCore caseId caseDigest entries))).text),
      ("case_digest", .text caseDigest), ("case_id", .text caseId), ("entries", .array entries),
      ("schema_version", .text legacySchemaVersion)])

theorem IsManifest.get {caseId caseDigest version : String} {entries : List Json} {manifest : Json}
    (hmanifest : IsManifest caseId caseDigest entries version manifest) :
    manifest.get "case_id" = .text caseId ∧ manifest.get "case_digest" = .text caseDigest := by
  cases hmanifest <;> exact ⟨rfl, rfl⟩

section Manifests

variable {files : List (String × Octets)} {seen after : List String} {entry manifest : Json}
variable {entries : List Json} {name version caseId caseDigest : String}

/-- A dictionary with sorted keys, by the set of its keys. -/
theorem eq_object_of_perm {value : Json} {keys sorted : List String}
    (hcanonical : value.IsCanonical) (hexactly : value.hasExactly keys = true)
    (hperm : keys.Perm sorted) (hsorted : sorted.Pairwise (· < ·)) :
    value = .object (sorted.map fun key => (key, value.get key)) := by
  refine Json.eq_object_of_hasExactly hcanonical hsorted ?_
  simp only [Json.hasExactly, Bool.and_eq_true, List.all_eq_true, decide_eq_true_eq]
    at hexactly ⊢
  exact ⟨⟨hexactly.1.1, fun key hkey => hperm.mem_iff.mp (hexactly.1.2 key hkey)⟩,
    fun key hkey => hexactly.2 key (hperm.mem_iff.mpr hkey)⟩

/-- An entry is the one that its member has. -/
theorem checkEntry_eq_ok_iff (hcanonical : entry.IsCanonical) :
    checkEntry files seen entry = .ok name ↔
      entry = manifestEntry name (fileOf files name) ∧ name ∈ members ∧ name ∉ seen := by
  simp only [checkEntry, raiseUnless_bind_eq_ok_iff, orRaise_bind_eq_ok_iff,
    Option.filter_eq_some_iff, Json.text?_eq_some_iff, Json.int?_eq_some_iff]
  constructor
  · rintro ⟨hexactly, -, path, ⟨hpath, hmember⟩, size, ⟨hsize, -⟩, digest, ⟨hdigest, -⟩,
      ⟨rfl, rfl⟩, hname⟩
    obtain rfl : path = name := Except.ok.inj hname
    rw [Bool.and_eq_true, decide_eq_true_eq, decide_eq_true_eq] at hmember
    refine ⟨?_, hmember⟩
    rw [Json.eq_object_of_hasExactly hcanonical (by decide) hexactly]
    simp only [List.map_cons, List.map_nil, hpath, hsize, hdigest]
    rfl
  · rintro ⟨rfl, hmember, hnew⟩
    refine ⟨rfl, rfl, name, ⟨rfl, by simp [hmember, hnew]⟩, _, ⟨rfl, by simp⟩, _,
      ⟨rfl, Digest.valid _⟩, ⟨rfl, rfl⟩, rfl⟩

/-- Entries that pass their checks are those of different members. -/
theorem checkEntries_eq_ok (hcanonical : ∀ entry ∈ entries, entry.IsCanonical)
    (hok : checkEntries files seen entries = .ok after) :
    ∃ names : List String, entries = names.map (fun name => manifestEntry name (fileOf files name)) ∧
      names.Nodup ∧ (∀ name ∈ names, name ∈ members ∧ name ∉ seen) ∧
      after = names.reverse ++ seen := by
  induction entries generalizing seen with
  | nil => exact ⟨[], rfl, List.nodup_nil, by simp, (Except.ok.inj hok).symm⟩
  | cons entry rest ih =>
      rw [List.forall_mem_cons] at hcanonical
      obtain ⟨name, hentry, hrest⟩ := bind_eq_ok hok
      obtain ⟨rfl, hmember, hnew⟩ := (checkEntry_eq_ok_iff hcanonical.1).mp hentry
      obtain ⟨names, rfl, hnodup, hnames, rfl⟩ := ih hcanonical.2 hrest
      refine ⟨name :: names, rfl, List.nodup_cons.mpr ⟨fun hmem => ?_, hnodup⟩, ?_, by simp⟩
      · exact (hnames name hmem).2 List.mem_cons_self
      · rw [List.forall_mem_cons]
        exact ⟨⟨hmember, hnew⟩, fun other hother => ⟨(hnames other hother).1, fun hmem =>
          (hnames other hother).2 (List.mem_cons_of_mem _ hmem)⟩⟩

theorem checkSorted_texts_iff {first second third : String} {value : PUnit} :
    checkSorted [.text first, .text second, .text third] = .ok value ↔
      first ≤ second ∧ second ≤ third := by
  change raiseUnless ([decide (second < first), decide (third < second)].all (!·) = true) _ =
    .ok value ↔ _
  simp only [List.all_cons, List.all_nil, Bool.and_true, Bool.and_eq_true, Bool.not_eq_true',
    decide_eq_false_iff_not, not_lt]
  exact raiseUnless_eq_ok_iff

/-- The paths of the members, each once and in order. -/
theorem eq_of_sorted {names : List String} (hnodup : names.Nodup)
    (hmembers : ∀ name ∈ names, name ∈ members) (hcovers : ∀ name ∈ members, name ∈ names)
    {value : PUnit} (hsorted : checkSorted (names.map Json.text) = .ok value) :
    names = ["case.json", "evidence.json", "tasks.json"] := by
  have hperm : names.Perm ["case.json", "evidence.json", "tasks.json"] := by
    have hexpected : members.Perm ["case.json", "evidence.json", "tasks.json"] := by decide
    exact ((List.perm_ext_iff_of_nodup hnodup (by decide)).mpr fun name =>
      ⟨hmembers name, hcovers name⟩).trans hexpected
  obtain ⟨first, second, third, rfl⟩ := List.length_eq_three.mp hperm.length_eq
  obtain ⟨hfirst, hsecond⟩ := checkSorted_texts_iff.mp hsorted
  refine List.Perm.eq_of_pairwise (fun _ _ _ _ => le_antisymm) ?_ (by decide) hperm
  simp [hfirst, hsecond, hfirst.trans hsecond]

theorem isCanonical_manifestEntry (name : String) (raw : Octets) :
    (manifestEntry name raw).IsCanonical := by
  rw [manifestEntry, Json.isCanonical_object_iff]
  exact ⟨show ["path", "sha256", "size"].IsChain (· < ·) by decide, by simp [Json.IsCanonical.text,
    Json.IsCanonical.int]⟩

theorem checkEntry_manifestEntry (hmember : name ∈ members) (hnew : name ∉ seen) :
    checkEntry files seen (manifestEntry name (fileOf files name)) = .ok name :=
  (checkEntry_eq_ok_iff (isCanonical_manifestEntry _ _)).mpr ⟨rfl, hmember, hnew⟩

/-- The entries that pass their checks are those of the members. -/
theorem entries_eq_iff (hcanonical : ∀ entry ∈ entries, entry.IsCanonical) :
    ((∃ value, checkSorted (entries.map fun entry => entry.get "path") = .ok value) ∧
        ∃ seen, checkEntries files [] entries = .ok seen ∧ ∀ name ∈ members, name ∈ seen) ↔
      entries = entriesOf files := by
  constructor
  · rintro ⟨⟨value, hsorted⟩, seen, hentries, hcovers⟩
    obtain ⟨names, rfl, hnodup, hnames, rfl⟩ := checkEntries_eq_ok hcanonical hentries
    have hpaths : (names.map fun name => manifestEntry name (fileOf files name)).map
        (fun entry => entry.get "path") = names.map Json.text := by
      rw [List.map_map]
      rfl
    rw [hpaths] at hsorted
    rw [eq_of_sorted hnodup (fun name hname => (hnames name hname).1) (by simpa using hcovers)
      hsorted]
    rfl
  · rintro rfl
    refine ⟨⟨⟨⟩, checkSorted_texts_iff.mpr (by decide)⟩, ["tasks.json", "evidence.json",
      "case.json"], ?_, by decide⟩
    exact bind_eq_ok_iff.mpr ⟨_, checkEntry_manifestEntry (by decide) (by decide),
      bind_eq_ok_iff.mpr ⟨_, checkEntry_manifestEntry (by decide) (by decide),
        bind_eq_ok_iff.mpr ⟨_, checkEntry_manifestEntry (by decide) (by decide), rfl⟩⟩⟩

theorem checkMerkleRoot_eq_ok_iff {value : PUnit} :
    checkMerkleRoot version manifest entries = .ok value ↔
      (version = schemaVersion → manifest.get "merkle_root" = .text (merkleRoot entries).text) := by
  rw [checkMerkleRoot]
  split
  case isFalse hversion => exact ⟨fun _ hsame => absurd hsame hversion, fun _ => rfl⟩
  case isTrue hversion =>
    simp only [orRaise_bind_eq_ok_iff, Option.filter_eq_some_iff, Json.text?_eq_some_iff,
      raiseUnless_eq_ok_iff, hversion, forall_const]
    constructor
    · rintro ⟨_, ⟨hroot, -⟩, rfl⟩
      exact hroot
    · exact fun hroot => ⟨_, ⟨hroot, Digest.valid _⟩, rfl⟩

/-- A manifest is accepted if it is the one that its case and its members have. -/
theorem checkManifest_eq_ok_iff (hcanonical : manifest.IsCanonical)
    (hcaseId : manifest.get "case_id" = .text caseId)
    (hcaseDigest : manifest.get "case_digest" = .text caseDigest) :
    checkManifest files manifest = .ok version ↔
      IsManifest caseId caseDigest (entriesOf files) version manifest := by
  simp only [checkManifest, canonicalJson, versionOf, bind_eq_ok_iff, raiseUnless_eq_ok_iff,
    orRaise_eq_ok_iff, checkMerkleRoot_eq_ok_iff, pure, Except.pure, Except.ok.injEq,
    Option.filter_eq_some_iff, Json.text?_eq_some_iff, Json.array?_eq_some_iff, existsAndEq,
    exists_const, and_true, exists_and_right]
  constructor
  · rintro ⟨-, entries, seen, ⟨hversion, hknown⟩, hfields, ⟨harray, -⟩, hsorted, hseen, hcovers,
      hroot, -, hdigest⟩
    have hentries := Json.isCanonical_get hcanonical "entries"
    rw [harray, Json.isCanonical_array_iff] at hentries
    obtain rfl := (entries_eq_iff hentries).mp ⟨hsorted, seen, hseen, hcovers⟩
    rcases List.mem_cons.mp (of_decide_eq_true hknown) with rfl | hcurrent
    · rw [manifestCore, if_neg (by decide), hcaseId, hcaseDigest, harray, hversion] at hdigest
      have hobject : manifest = .object (["bundle_sha256", "case_digest", "case_id", "entries",
          "schema_version"].map fun key => (key, manifest.get key)) :=
        eq_object_of_perm hcanonical hfields (by decide) (by decide)
      rw [hobject]
      simp only [List.map_cons, List.map_nil, hcaseId, hcaseDigest, harray, hversion, hdigest]
      exact .legacy
    · obtain rfl := List.mem_singleton.mp hcurrent
      have hroot := hroot rfl
      rw [manifestCore, if_pos rfl, hcaseId, hcaseDigest, harray, hversion, hroot] at hdigest
      have hobject : manifest = .object (["bundle_sha256", "case_digest", "case_id", "entries",
          "merkle_root", "schema_version"].map fun key => (key, manifest.get key)) :=
        eq_object_of_perm hcanonical hfields (by decide) (by decide)
      rw [hobject]
      simp only [List.map_cons, List.map_nil, hcaseId, hcaseDigest, harray, hversion, hdigest,
        hroot]
      exact .current
  · have hcanonical : ∀ entry ∈ entriesOf files, entry.IsCanonical := by
      simp [entriesOf, manifestEntries, isCanonical_manifestEntry]
    obtain ⟨hsorted, seen, hseen, hcovers⟩ := (entries_eq_iff hcanonical).mpr rfl
    rintro (_ | _)
    · exact ⟨rfl, _, seen, ⟨rfl, rfl⟩, rfl, ⟨rfl, rfl⟩, hsorted, hseen, hcovers, fun _ => rfl, rfl,
        rfl⟩
    · exact ⟨rfl, _, seen, ⟨rfl, rfl⟩, rfl, ⟨rfl, rfl⟩, hsorted, hseen, hcovers,
        fun hversion => absurd hversion (by decide), rfl, rfl⟩

end Manifests

/-! ## Cases -/

theorem wrapValueError_eq_ok_iff {A : Type} {message : String} {computation : Except Raised A}
    {value : A} : wrapValueError message computation = .ok value ↔ computation = .ok value := by
  cases computation <;> simp [wrapValueError]

theorem caseFromPayload_payload (case : ResearchCase) :
    caseFromPayload case.payload = .ok case := by
  rw [caseFromPayload, raiseUnless_bind_eq_ok_iff, ResearchCase.ofPayload?_payload]
  exact ⟨rfl, rfl⟩

/-- A case with its payload and its binding. -/
def BundleCase.of (case : ResearchCase) : BundleCase :=
  ⟨case, case.payload, researchCaseBinding case⟩

/-- The case file is the one that an export writes. -/
theorem checkCase_eq_ok_iff {manifest caseFile : Json} {bundled : BundleCase}
    (hcanonical : caseFile.IsCanonical) :
    checkCase manifest caseFile = .ok bundled ↔
      bundled = .of bundled.case ∧ caseFile = caseFileOf bundled.case ∧
        manifest.get "case_id" = .text bundled.case.caseId ∧
        manifest.get "case_digest" = .text (caseDigest bundled.case.payload).text := by
  simp only [checkCase, bind_eq_ok_iff, raiseUnless_eq_ok_iff, wrapValueError_eq_ok_iff,
    verifyResearchCaseBinding_eq_ok_iff, caseOfBinding_payload, caseFromPayload_payload, pure,
    Except.pure, Except.ok.injEq, existsAndEq, exists_const, and_true, true_and]
  constructor
  · rintro ⟨hexactly, case, ⟨hbinds, hequal⟩, ⟨hcaseId, hcaseDigest, -⟩, rfl⟩
    have hbinding := eq_of_binds hbinds (Json.keys_of_equal_object hequal).2
    rw [BundleCase.caseId, hbinding] at hcaseId
    rw [hbinding] at hcaseDigest
    refine ⟨congrArg (BundleCase.mk case case.payload) hbinding, ?_,
      Json.equal_text_right_iff.mp hcaseId, Json.equal_text_right_iff.mp hcaseDigest⟩
    rw [Json.eq_object_of_hasExactly hcanonical (by decide) hexactly, List.map_cons, hbinding]
    rfl
  · rintro ⟨hbundled, rfl, hcaseId, hcaseDigest⟩
    have hexact : (researchCaseBinding bundled.case).Exact :=
      ⟨bundled.case.exact_payload, trivial, trivial, trivial, trivial⟩
    exact ⟨rfl, bundled.case, ⟨fun _ _ => rfl, Json.equal_self hexact⟩,
      ⟨Json.equal_text_right_iff.mpr hcaseId, Json.equal_text_right_iff.mpr hcaseDigest,
        Json.equal_text_right_iff.mpr rfl⟩, hbundled.symm⟩

/-! ## Tasks and observations -/

/-- A dictionary with the records of a case under a key. -/
structure Lists (version caseId key : String) (file : Json) (records : List Json) : Prop where
  object : file.isObject = true
  schemaVersion : file.get "schema_version" = .text version
  caseId : file.get "case_id" = .text caseId
  records : file.get key = .array records

/-- A task of a case: a completed one holds a snapshot of it. -/
structure IsTask (case : ResearchCase) (task : Json) : Prop where
  object : task.isObject = true
  required : ∀ field ∈ taskRequiredFields, field ∈ task.keys
  expected : ∀ field ∈ task.keys, field ∈ taskRequiredFields ++ taskOptionalFields
  caseId : task.get "research_case_id" = .text case.caseId
  roundId : (Cell.json (task.get "round_id")).isRoundId = true
  snapshot : ∀ binding, resultBinding? (task.get "result") = some binding →
    ∃ snapshot, Binds binding snapshot ∧ sameCaseContract snapshot.payload case.payload = true
  completed : task.get "status" = .text "completed" →
    (resultBinding? (task.get "result")).isSome = true

/-- An observation of a task, with the role and the round of that. -/
structure IsObservation (case : ResearchCase) (tasks : List Record) (observation : Json) : Prop where
  object : observation.isObject = true
  required : ∀ field ∈ evidenceRequiredFields, field ∈ observation.keys
  expected : ∀ field ∈ observation.keys, field ∈ evidenceRequiredFields ++ evidenceOptionalFields
  caseId : observation.get "case_id" = .text case.caseId
  task : ∃ task ∈ tasks, ∃ id, observation.get "task_id" = .text id ∧
    (task.get "id").text? = some id ∧
    ((task.get "role").isNull = true ∨
      (Cell.json (observation.get "role")).equal (task.get "role") = true) ∧
    (Cell.json (observation.get "round_id")).equal (task.get "round_id") = true
  roundId : (Cell.json (observation.get "round_id")).isRoundId = true

section Records

variable {case : ResearchCase} {task observation file : Json} {tasks : List Json}
variable {records : List Record} {seen : List String} {version key id : String}

theorem get_ofJson (value : Json) (key : String) :
    (Record.ofJson value).get key = .json (value.get key) := by
  cases value with
  | object fields =>
      have hlookup : (fields.map fun field => (field.1, Cell.json field.2)).lookup key =
          (fields.lookup key).map Cell.json := by
        induction fields with
        | nil => rfl
        | cons field rest ih =>
            rw [List.map_cons, List.lookup_cons, List.lookup_cons, ih]
            cases key == field.1 <;> rfl
      rw [Record.get, Record.ofJson, hlookup, Json.get, Json.get?]
      cases fields.lookup key <;> rfl
  | _ => rfl

theorem recordsOf_eq_ok_iff (error : Raised) :
    recordsOf version (.of case) file key error = .ok tasks ↔
      Lists version case.caseId key file tasks := by
  rw [recordsOf, raiseUnless_bind_eq_ok_iff]
  constructor
  · rintro ⟨⟨hobject, hversion, hcaseId⟩, hrecords⟩
    exact ⟨hobject, Json.equal_text_right_iff.mp hversion, Json.equal_text_right_iff.mp hcaseId,
      Json.array?_eq_some_iff.mp (orRaise_eq_ok hrecords)⟩
  · rintro ⟨hobject, hversion, hcaseId, hrecords⟩
    refine ⟨⟨hobject, Json.equal_text_right_iff.mpr hversion,
      Json.equal_text_right_iff.mpr hcaseId⟩, ?_⟩
    rw [hrecords]
    rfl

theorem checkResult_eq_ok_iff {payload result : Json} {completed : Bool} {value : PUnit} :
    checkResult payload result completed = .ok value ↔
      (∀ binding, resultBinding? result = some binding →
        ∃ snapshot, Binds binding snapshot ∧ sameCaseContract snapshot.payload payload = true) ∧
      (completed = true → (resultBinding? result).isSome = true) := by
  rw [checkResult]
  cases resultBinding? result with
  | none => cases completed <;> simp [raiseUnless]
  | some binding =>
      simp only [bind_eq_ok_iff, wrapValueError_eq_ok_iff, verifyResearchCaseBinding_eq_ok_iff,
        caseOfBinding_payload, caseFromPayload_payload, raiseUnless_eq_ok_iff, pure, Except.pure,
        Except.ok.injEq, existsAndEq, Option.some.injEq, forall_eq', Option.isSome_some,
        implies_true, and_true, true_and]

theorem checkTask_eq_ok_iff :
    checkTask (.of case) seen task = .ok id ↔
      IsTask case task ∧ taskId? seen (Record.ofJson task) = some id := by
  simp only [checkTask, bind_eq_ok_iff, raiseUnless_eq_ok_iff, orRaise_eq_ok_iff, get_ofJson,
    checkResult_eq_ok_iff, pure, Except.pure, Except.ok.injEq, existsAndEq, exists_const, and_true]
  constructor
  · rintro ⟨hobject, hrequired, hexpected, hcaseId, hid, hround, hsnapshot, hcompleted⟩
    exact ⟨⟨hobject, hrequired, hexpected, Json.equal_text_right_iff.mp hcaseId, hround, hsnapshot,
      fun hstatus => hcompleted (decide_eq_true hstatus)⟩, hid⟩
  · rintro ⟨⟨hobject, hrequired, hexpected, hcaseId, hround, hsnapshot, hcompleted⟩, hid⟩
    exact ⟨hobject, hrequired, hexpected, Json.equal_text_right_iff.mpr hcaseId, hid, hround,
      hsnapshot, fun hstatus => hcompleted (of_decide_eq_true hstatus)⟩

theorem isTask_of_checkTasks {value : PUnit}
    (hok : checkTasks (.of case) seen tasks = .ok value) : ∀ task ∈ tasks, IsTask case task := by
  induction tasks generalizing seen with
  | nil => exact fun _ hmem => absurd hmem List.not_mem_nil
  | cons task rest ih =>
      obtain ⟨id, htask, hrest⟩ := bind_eq_ok hok
      exact List.forall_mem_cons.mpr ⟨(checkTask_eq_ok_iff.mp htask).1, ih hrest⟩

theorem checkTasks_of_isTask (htasks : ∀ task ∈ tasks, IsTask case task)
    (hids : ∀ task ∈ tasks, ∃ id, (task.get "id").text? = some id ∧ id ≠ "" ∧ id ∉ seen)
    (hdistinct : (tasks.map fun task => (task.get "id").text?).Nodup) :
    checkTasks (.of case) seen tasks = .ok ⟨⟩ := by
  induction tasks generalizing seen with
  | nil => rfl
  | cons task rest ih =>
      rw [List.forall_mem_cons] at htasks hids
      rw [List.map_cons, List.nodup_cons] at hdistinct
      obtain ⟨⟨id, hid, hfilled, hnew⟩, hothers⟩ := hids
      refine bind_eq_ok_iff.mpr ⟨id, checkTask_eq_ok_iff.mpr ⟨htasks.1,
        taskId?_eq_some_iff.mpr ⟨?_, hfilled, hnew⟩⟩, ih htasks.2 (fun other hother => ?_)
          hdistinct.2⟩
      · rw [get_ofJson]
        exact hid
      · obtain ⟨otherId, hotherId, hotherFilled, hotherNew⟩ := hothers other hother
        refine ⟨otherId, hotherId, hotherFilled, fun hmem => ?_⟩
        rcases List.mem_cons.mp hmem with rfl | hold
        · exact hdistinct.1 (List.mem_map.mpr ⟨other, hother, hotherId.trans hid.symm⟩)
        · exact hotherNew hold

theorem checkEvidenceRecord_eq_ok_iff {value : PUnit}
    (hdistinct : (records.map fun task => (task.get "id").text?).Nodup) :
    checkEvidenceRecord (.of case) records observation = .ok value ↔
      IsObservation case records observation := by
  simp only [checkEvidenceRecord, checkObservation, raiseUnless_bind_eq_ok_iff,
    orRaise_bind_eq_ok_iff, get_ofJson, Option.bind_eq_some_iff, taskOf?_eq_some_iff hdistinct]
  constructor
  · rintro ⟨hobject, hrequired, hexpected, hcaseId, -, task, ⟨id, hid, hmem, hsame⟩, hrole, hround⟩
    obtain ⟨hround, hvalid⟩ := raiseUnless_eq_ok_iff.mp hround
    exact ⟨hobject, hrequired, hexpected, Json.equal_text_right_iff.mp hcaseId,
      ⟨task, hmem, id, Json.text?_eq_some_iff.mp hid, hsame, hrole, hround⟩, hvalid⟩
  · rintro ⟨hobject, hrequired, hexpected, hcaseId, ⟨task, hmem, id, hid, hsame, hrole, hround⟩,
      hvalid⟩
    refine ⟨hobject, hrequired, hexpected, Json.equal_text_right_iff.mpr hcaseId, ?_, task,
      ⟨id, Json.text?_eq_some_iff.mpr hid, hmem, hsame⟩, hrole,
      raiseUnless_eq_ok_iff.mpr ⟨hround, hvalid⟩⟩
    rw [hid]
    rfl

theorem checkDeclaredRounds_eq_ok_iff {value : PUnit} :
    checkDeclaredRounds case (tasks.map Record.ofJson) = .ok value ↔
      (case.rounds = [] ∨ ∀ task ∈ tasks, task.get "round_id" = .null ∨
        ∃ spec ∈ case.rounds, task.get "round_id" = .text spec.roundId) := by
  simp only [checkDeclaredRounds, raiseUnless_eq_ok_iff, List.all_map, Function.comp_def,
    get_ofJson, List.all_eq_true, Bool.or_eq_true, Option.any_eq_true, decide_eq_true_eq,
    List.mem_map]
  refine or_congr Iff.rfl (forall₂_congr fun task _ => ?_)
  cases task.get "round_id" <;> simp [Cell.isNull, Cell.text?, Json.isNull, Json.text?, eq_comm,
    and_comm]

end Records

/-! ## Bundles -/

/-- The members of a bundle are a case, a forest of its tasks and their observations. -/
structure IsBundle (files : List (String × Octets)) (contents : Contents) : Prop where
  manifest : strictJson "manifest" (fileOf files "manifest.json") = .ok contents.manifest
  caseFile : strictJson "case" (fileOf files "case.json") = .ok contents.caseFile
  tasksFile : strictJson "tasks" (fileOf files "tasks.json") = .ok contents.tasksFile
  evidenceFile : strictJson "evidence" (fileOf files "evidence.json") = .ok contents.evidenceFile
  bundled : contents.bundled = .of contents.bundled.case
  isCase : contents.caseFile = caseFileOf contents.bundled.case
  isManifest : IsManifest contents.bundled.case.caseId
    (caseDigest contents.bundled.case.payload).text (entriesOf files) contents.version
    contents.manifest
  tasks : Lists contents.version contents.bundled.case.caseId "tasks" contents.tasksFile
    contents.tasks
  taskCount : contents.tasks.length ≤ maxTasks
  isTask : ∀ task ∈ contents.tasks, IsTask contents.bundled.case task
  isForest : IsTaskForest (contents.tasks.map Record.ofJson)
  declared : contents.bundled.case.rounds = [] ∨ ∀ task ∈ contents.tasks,
    task.get "round_id" = .null ∨
      ∃ spec ∈ contents.bundled.case.rounds, task.get "round_id" = .text spec.roundId
  observations : Lists contents.version contents.bundled.case.caseId "observations"
    contents.evidenceFile contents.observations
  evidenceCount : contents.observations.length ≤ maxEvidenceRows
  isObservation : ∀ observation ∈ contents.observations,
    IsObservation contents.bundled.case (contents.tasks.map Record.ofJson) observation

theorem isCanonical_of_strictJson {label : String} {raw : Octets} {value : Json}
    (hread : strictJson label raw = .ok value) : value.IsCanonical := by
  obtain ⟨text, -, hread⟩ := orRaise_bind_eq_ok hread
  obtain ⟨found, -, hread⟩ := orRaise_bind_eq_ok hread
  split at hread
  case h_1 => cases hread
  case h_2 =>
    obtain rfl := Except.ok.inj hread
    exact Json.isCanonical_sortKeys found

/-- The verifier accepts the members of a bundle exactly if they are one: the manifest of
its case and of the bytes of its members, and tasks and observations of that case only. -/
theorem verifyFiles_eq_ok_iff (files : List (String × Octets)) (contents : Contents) :
    verifyFiles files = .ok contents ↔ IsBundle files contents := by
  obtain ⟨version, manifest, caseFile, bundled, tasksFile, tasks, evidenceFile, observations⟩ :=
    contents
  simp only [verifyFiles, bind_eq_ok_iff, pure, Except.pure, Except.ok.injEq, Contents.mk.injEq,
    existsAndEq, and_true, true_and, exists_and_right, raiseUnless_eq_ok_iff, exists_const,
    checkDeclaredRounds_eq_ok_iff, exists_mapM_eq_ok_iff]
  constructor
  · rintro ⟨hmanifest, hversion, hcaseFile, hcase, htasksFile, htasks, htaskCount,
      ⟨_, hchecked⟩, ⟨_, hgraph⟩, hevidenceFile, hobservations, hevidenceCount, hdeclared, hobserved⟩
    obtain ⟨hbundled, hisCase, hcaseId, hcaseDigest⟩ :=
      (checkCase_eq_ok_iff (isCanonical_of_strictJson hcaseFile)).mp hcase
    have hisManifest := (checkManifest_eq_ok_iff (isCanonical_of_strictJson hmanifest) hcaseId
      hcaseDigest).mp hversion
    rw [hbundled] at htasks hchecked hobservations hobserved
    have hforest := isTaskForest_of_validate hgraph
    exact ⟨hmanifest, hcaseFile, htasksFile, hevidenceFile, hbundled, hisCase, hisManifest,
      (recordsOf_eq_ok_iff _).mp htasks, htaskCount, isTask_of_checkTasks hchecked, hforest,
      hdeclared, (recordsOf_eq_ok_iff _).mp hobservations, hevidenceCount,
      fun observation hmem => (checkEvidenceRecord_eq_ok_iff hforest.distinct).mp
        (hobserved observation hmem).choose_spec⟩
  · rintro ⟨hmanifest, hcaseFile, htasksFile, hevidenceFile, hbundled, hisCase, hisManifest, htasks,
      htaskCount, hisTask, hforest, hdeclared, hobservations, hevidenceCount, hobserved⟩
    have hids : ∀ task ∈ tasks, ∃ id, (task.get "id").text? = some id ∧ id ≠ "" ∧ id ∉ [] := by
      intro task htask
      obtain ⟨id, hid, hfilled⟩ := hforest.ids _ (List.mem_map_of_mem htask)
      rw [get_ofJson] at hid
      exact ⟨id, hid, hfilled, List.not_mem_nil⟩
    have hdistinct : (tasks.map fun task => (task.get "id").text?).Nodup := by
      have hdistinct := hforest.distinct
      simp only [List.map_map, Function.comp_def, get_ofJson] at hdistinct
      exact hdistinct
    obtain ⟨hcaseId, hcaseDigest⟩ := hisManifest.get
    have htasks := (recordsOf_eq_ok_iff (bundleError "tasks_file_schema_invalid")).mpr htasks
    have hobservations := (recordsOf_eq_ok_iff (bundleError "evidence_file_schema_invalid")).mpr
      hobservations
    have hchecked := checkTasks_of_isTask hisTask hids hdistinct
    have hobserved : ∀ observation ∈ observations, checkEvidenceRecord (.of bundled.case)
        (tasks.map Record.ofJson) observation = .ok ⟨⟩ := fun observation hmem =>
      (checkEvidenceRecord_eq_ok_iff hforest.distinct).mpr (hobserved observation hmem)
    rw [← hbundled] at htasks hobservations hchecked hobserved
    exact ⟨hmanifest, (checkManifest_eq_ok_iff (isCanonical_of_strictJson hmanifest) hcaseId
        hcaseDigest).mpr hisManifest, hcaseFile,
      (checkCase_eq_ok_iff (isCanonical_of_strictJson hcaseFile)).mpr
        ⟨hbundled, hisCase, hcaseId, hcaseDigest⟩,
      htasksFile, htasks, htaskCount, ⟨⟨⟩, hchecked⟩, validate_of_isTaskForest hforest,
      hevidenceFile, hobservations, hevidenceCount, hdeclared,
      fun observation hmem => ⟨⟨⟩, hobserved observation hmem⟩⟩

end AegisForge.Shared.ResearchCaseBundle
