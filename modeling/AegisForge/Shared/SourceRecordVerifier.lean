import AegisForge.Core.Checks
import AegisForge.Core.Lines
import AegisForge.Core.Sha1
import AegisForge.Core.StrictJson

/-!
# Records of source excerpts

A record names lines of a file by its blob, and carries their text.  It is checked
against the bytes of the file, whose lines are those that end with a line feed.
-/

namespace AegisForge.Shared.SourceRecordVerifier

open AegisForge.Core

/-- Where the caller expects the excerpt to come from. -/
structure Expected where
  repository : String
  commitSha : String
  path : String

def maxSourceRecordBytes : ℕ := 16 * 1024 * 1024

/-- `b"blob "`. -/
def blobMark : Octets := [98, 108, 111, 98, 32]

def gitBlobSha1 (content : Octets) : String :=
  Sha1.sha1 (blobMark ++ utf8 (Nat.toDigits 10 content.length) ++ 0 :: content)

/-- The field is required of the caller, and the record states the same. -/
def checkExpected (record : Json) (field value : String) : Except String PUnit := do
  raiseUnless (value ≠ "") ("expected_" ++ field ++ "_required")
  raiseUnless (record.get field = .text value) ("source_" ++ field ++ "_mismatch")

/-- A positive range of lines. -/
def lineRange? (record : Json) : Option (ℕ × ℕ) := do
  let first ← (record.get "start_line").int?
  let last ← (record.get "end_line").int?
  if 1 ≤ first ∧ first ≤ last then some (first.toNat, last.toNat) else none

/-- `verify_source_record_against_bytes`, whose errors are all
`SourceRecordVerificationError`. -/
def verifySourceRecordAgainstBytes (record : Json) (sourceBytes : Octets) (expected : Expected) :
    Except String Json := do
  raiseUnless (record.isObject = true) "source_record_must_be_object"
  raiseUnless (sourceBytes.length ≤ maxSourceRecordBytes) "source_bytes_exceed_size_limit"
  checkExpected record "repository" expected.repository
  checkExpected record "commit_sha" expected.commitSha
  checkExpected record "path" expected.path
  raiseUnless (Sha1.isSha1Text expected.commitSha = true) "source_commit_sha_invalid"
  let blobSha ← orRaise "source_git_blob_sha_invalid"
    ((record.get "git_blob_sha").text?.filter Sha1.isSha1Text)
  let range ← orRaise "source_line_range_invalid" (lineRange? record)
  raiseUnless (gitBlobSha1 sourceBytes = blobSha) "source_git_blob_sha_mismatch"
  raiseUnless ((decodeUtf8? sourceBytes).isSome = true) "source_bytes_not_utf8"
  let excerpt ← orRaise "source_excerpt_required"
    ((record.get "excerpt").text?.filter fun text => text ≠ "")
  let lines := reattach lineFeed (sourceBytes.splitOn lineFeed)
  raiseUnless (range.2 ≤ lines.length) "source_line_range_out_of_bounds"
  let actualExcerpt := (slice lines (range.1 - 1) range.2).flatten
  raiseUnless (actualExcerpt = utf8 excerpt.toList) "source_excerpt_mismatch"
  let actualSha := (Sha256.sha256 actualExcerpt).text
  raiseUnless (record.get "excerpt_sha256" = .text actualSha) "source_excerpt_sha256_mismatch"
  return .object [
    ("commit_sha", .text expected.commitSha),
    ("end_line", .int range.2),
    ("excerpt_sha256", .text actualSha),
    ("git_blob_sha", .text blobSha),
    ("path", .text expected.path),
    ("provenance_verified", .bool false),
    ("repository", .text expected.repository),
    ("start_line", .int range.1),
    ("valid", .bool true)]

/-! ## The lines of a text -/

/-- The lines of a text, each with the line feed that ends it. -/
def linesOf (content : String) : List (List Char) := linesBy (· == '\n') content.toList

/-- The text of a range of lines, of which the first has number one. -/
def excerptOf (content : String) (first last : ℕ) : String :=
  String.ofList (slice (linesOf content) (first - 1) last).flatten

theorem excerptOf_append (content : String) {first last next : ℕ} (hfirst : 1 ≤ first)
    (hlast : first ≤ last) (hnext : last ≤ next) :
    excerptOf content first last ++ excerptOf content (last + 1) next =
      excerptOf content first next := by
  rw [excerptOf, excerptOf, excerptOf, ← String.ofList_append, ← List.flatten_append,
    Nat.add_sub_cancel]
  rw [slice_append (linesOf content) (by omega) hnext]

theorem utf8_flatten (lines : List (List Char)) : utf8 lines.flatten = (lines.map utf8).flatten := by
  induction lines with
  | nil => rfl
  | cons line lines ih =>
      rw [List.flatten_cons, List.map_cons, List.flatten_cons, ← ih]
      exact List.flatMap_append

/-- The lines that the verifier finds are those of the text. -/
theorem reattach_utf8 (content : String) :
    reattach lineFeed ((utf8 content.toList).splitOn lineFeed) = (linesOf content).map utf8 := by
  rw [reattach_splitOn]
  exact linesBy_flatMap keepsEnds_utf8 content.toList

theorem flatten_slice_utf8 (content : String) (first last : ℕ) :
    (slice ((linesOf content).map utf8) (first - 1) last).flatten =
      utf8 (excerptOf content first last).toList := by
  rw [excerptOf, String.toList_ofList, utf8_flatten, map_slice]

/-! ## What is accepted -/

variable {record : Json} {expected : Expected} {content : String} {first last : ℕ}

/-- What is expected is filled and has the hash of a commit. -/
structure Expected.IsValid (expected : Expected) : Prop where
  repository : expected.repository ≠ ""
  path : expected.path ≠ ""
  commitSha : Sha1.isSha1Text expected.commitSha = true

/-- The record has the expected coordinates, the blob of the text and a range of
lines. -/
structure PointsTo (record : Json) (expected : Expected) (content : String) (first last : ℕ) :
    Prop where
  isObject : record.isObject = true
  repository : record.get "repository" = .text expected.repository
  commitSha : record.get "commit_sha" = .text expected.commitSha
  path : record.get "path" = .text expected.path
  blobSha : record.get "git_blob_sha" = .text (gitBlobSha1 (utf8 content.toList))
  startLine : record.get "start_line" = .int first
  endLine : record.get "end_line" = .int last

/-- The record carries the text, with its hash. -/
structure Carries (record : Json) (lines : String) : Prop where
  excerpt : record.get "excerpt" = .text lines
  excerptSha256 : record.get "excerpt_sha256" = .text (Sha256.sha256 (utf8 lines.toList)).text

def Accepts (record : Json) (content : String) (expected : Expected) : Prop :=
  ∃ answer, verifySourceRecordAgainstBytes record (utf8 content.toList) expected = .ok answer

def Rejects (record : Json) (content : String) (expected : Expected) : Prop :=
  ∃ error, verifySourceRecordAgainstBytes record (utf8 content.toList) expected = .error error

theorem rejects_of_not_accepts (hnot : ¬Accepts record content expected) :
    Rejects record content expected := by
  rw [Rejects]
  cases hverified :
      verifySourceRecordAgainstBytes record (utf8 content.toList) expected with
  | ok answer => exact absurd ⟨answer, hverified⟩ hnot
  | error error => exact ⟨error, rfl⟩

theorem checkExpected_bind_eq_ok_iff {field value : String} {rest : PUnit → Except String Json}
    {answer : Json} :
    (checkExpected record field value >>= rest) = .ok answer ↔
      value ≠ "" ∧ record.get field = .text value ∧ rest ⟨⟩ = .ok answer := by
  rw [bind_eq_ok_iff]
  constructor
  · rintro ⟨_, hchecked, hrest⟩
    obtain ⟨hfilled, hsame⟩ := raiseUnless_bind_eq_ok hchecked
    exact ⟨hfilled, raiseUnless_eq_ok hsame, hrest⟩
  · rintro ⟨hfilled, hsame, hrest⟩
    refine ⟨⟨⟩, raiseUnless_bind_eq_ok_iff.mpr ⟨hfilled, ?_⟩, hrest⟩
    rw [raiseUnless, if_pos hsame]

/-- A range of lines that exist has a text. -/
theorem excerptOf_ne_empty (hfirst : 1 ≤ first) (hlast : first ≤ last)
    (hcount : last ≤ (linesOf content).length) : excerptOf content first last ≠ "" := by
  have hlength : 0 < (slice (linesOf content) (first - 1) last).length := by
    rw [slice, List.length_drop, List.length_take]
    omega
  obtain ⟨line, hline⟩ := List.exists_mem_of_length_pos hlength
  have hlisted : line ∈ linesOf content := List.mem_of_mem_take (List.mem_of_mem_drop hline)
  rw [excerptOf, ne_eq, String.ofList_eq_empty_iff, List.flatten_eq_nil_iff]
  exact fun hempty => ne_nil_of_mem_linesBy hlisted (hempty line hline)

theorem lineRange?_of_pointsTo (hfirst : 1 ≤ first) (hlast : first ≤ last)
    (hpoints : PointsTo record expected content first last) :
    lineRange? record = some (first, last) := by
  rw [lineRange?, hpoints.startLine, hpoints.endLine]
  have hrange : (1 : ℤ) ≤ first ∧ (first : ℤ) ≤ last := by omega
  simp [Json.int?, hrange]

theorem accepts_iff (hvalid : expected.IsValid) (hfirst : 1 ≤ first) (hlast : first ≤ last)
    (hpoints : PointsTo record expected content first last) :
    Accepts record content expected ↔
      (utf8 content.toList).length ≤ maxSourceRecordBytes ∧ last ≤ (linesOf content).length ∧
        Carries record (excerptOf content first last) := by
  have hcommit : expected.commitSha ≠ "" := by
    intro hempty
    have hsha := hvalid.commitSha
    rw [hempty] at hsha
    exact absurd hsha (by decide)
  have hblob : ((record.get "git_blob_sha").text?.filter Sha1.isSha1Text) =
      some (gitBlobSha1 (utf8 content.toList)) := by
    have hsha : Sha1.isSha1Text (gitBlobSha1 (utf8 content.toList)) = true :=
      Sha1.isSha1Text_sha1 _
    rw [hpoints.blobSha, Json.text?, Option.filter_some, if_pos hsha]
  rw [Accepts]
  simp only [verifySourceRecordAgainstBytes, raiseUnless_bind_eq_ok_iff,
    checkExpected_bind_eq_ok_iff, orRaise_bind_eq_ok_iff, hpoints.isObject, hpoints.repository,
    hpoints.commitSha, hpoints.path, hvalid.repository, hvalid.path, hvalid.commitSha, hcommit,
    hblob, lineRange?_of_pointsTo hfirst hlast hpoints, decodeUtf8?_utf8, reattach_utf8,
    List.length_map, flatten_slice_utf8, Option.isSome_some, Option.some.injEq, ne_eq,
    not_false_eq_true, true_and, exists_eq_left']
  constructor
  · rintro ⟨answer, hsize, text, htext, hcount, hexcerpt, hsha, -⟩
    rw [Option.filter_eq_some_iff, Json.text?_eq_some_iff] at htext
    rw [← String.toList_injective (utf8_injective hexcerpt)] at htext
    exact ⟨hsize, hcount, htext.1, hsha⟩
  · rintro ⟨hsize, hcount, hexcerpt, hsha⟩
    refine ⟨_, hsize, excerptOf content first last, ?_, hcount, rfl, hsha, rfl⟩
    rw [hexcerpt, Json.text?, Option.filter_some, if_pos]
    simpa using excerptOf_ne_empty hfirst hlast hcount

/-- The exact lines are accepted, up to the largest size of a file, and nothing
else is; and the excerpts of adjacent ranges make up that of both. -/
theorem excerpt_isExact (hvalid : expected.IsValid) (hfirst : 1 ≤ first) (hlast : first ≤ last)
    (hpoints : PointsTo record expected content first last) :
    ((utf8 content.toList).length ≤ maxSourceRecordBytes → last ≤ (linesOf content).length →
        Carries record (excerptOf content first last) → Accepts record content expected) ∧
      (record.get "excerpt" ≠ .text (excerptOf content first last) →
        Rejects record content expected) ∧
      ((linesOf content).length < last → Rejects record content expected) ∧
      ∀ next, last < next →
        excerptOf content first last ++ excerptOf content (last + 1) next =
          excerptOf content first next := by
  have haccepts := accepts_iff hvalid hfirst hlast hpoints
  refine ⟨fun hsize hcount hcarries => haccepts.mpr ⟨hsize, hcount, hcarries⟩, fun hother => ?_,
    fun hcount => ?_, fun next hnext => excerptOf_append content hfirst hlast hnext.le⟩
  · exact rejects_of_not_accepts fun h => hother (haccepts.mp h).2.2.excerpt
  · exact rejects_of_not_accepts fun h => absurd (haccepts.mp h).2.1 (not_le.mpr hcount)

/-! ## A small file and a large one -/

namespace Sample

def coordinates : Expected where
  repository := "owner/repository"
  commitSha := "1234567890abcdef1234567890abcdef12345678"
  path := "src/Vault.sol"

/-- The record of a range of lines. -/
def recordOf (content : String) (first last : ℕ) : Json := .object [
  ("commit_sha", .text coordinates.commitSha),
  ("end_line", .int last),
  ("excerpt", .text (excerptOf content first last)),
  ("excerpt_sha256",
    .text (Sha256.sha256 (utf8 (excerptOf content first last).toList)).text),
  ("git_blob_sha", .text (gitBlobSha1 (utf8 content.toList))),
  ("path", .text coordinates.path),
  ("repository", .text coordinates.repository),
  ("start_line", .int first)]

theorem isValid_coordinates : coordinates.IsValid where
  repository := by decide
  path := by decide
  commitSha := by decide +kernel

theorem pointsTo_recordOf (content : String) (first last : ℕ) :
    PointsTo (recordOf content first last) coordinates content first last where
  isObject := rfl
  repository := rfl
  commitSha := rfl
  path := rfl
  blobSha := rfl
  startLine := rfl
  endLine := rfl

theorem carries_recordOf (content : String) (first last : ℕ) :
    Carries (recordOf content first last) (excerptOf content first last) where
  excerpt := rfl
  excerptSha256 := rfl

/-- A single line of one octet more than a file may have. -/
def largeFile : String := String.ofList (List.replicate (maxSourceRecordBytes + 1) 'a')

theorem length_utf8_replicate (count : ℕ) :
    (utf8 (List.replicate count 'a')).length = count := by
  have hone : (String.utf8EncodeChar 'a').length = 1 := by decide
  induction count with
  | zero => rfl
  | succ count ih =>
      have hcons : utf8 (List.replicate (count + 1) 'a') =
          String.utf8EncodeChar 'a' ++ utf8 (List.replicate count 'a') := rfl
      rw [hcons, List.length_append, hone, ih, Nat.add_comm]

theorem length_utf8_largeFile : (utf8 largeFile.toList).length = maxSourceRecordBytes + 1 := by
  rw [largeFile, String.toList_ofList, length_utf8_replicate]

theorem one_le_length_linesOf_largeFile : 1 ≤ (linesOf largeFile).length := by
  have hsome : largeFile.toList ≠ [] := by
    rw [largeFile, String.toList_ofList]
    exact List.cons_ne_nil _ _
  rw [linesOf]
  exact List.length_pos_of_ne_nil (linesBy_ne_nil hsome)

end Sample

open Sample in
theorem accepts_recordOf : Accepts (recordOf "a\r\n\nb" 2 3) "a\r\n\nb" coordinates :=
  (excerpt_isExact isValid_coordinates (by decide) (by decide) (pointsTo_recordOf _ 2 3)).1
    (by decide +kernel) (by decide +kernel) (carries_recordOf _ 2 3)

open Sample in
/-- A file of more than the largest size is refused whatever the record carries. -/
theorem not_accepts_largeFile :
    ¬∀ (content : String) (expected : Expected) (first last : ℕ) (record : Json),
      expected.IsValid → 1 ≤ first → first ≤ last → last ≤ (linesOf content).length →
        PointsTo record expected content first last →
          Carries record (excerptOf content first last) → Accepts record content expected := by
  intro hall
  have hlength := length_utf8_largeFile
  have hcount := one_le_length_linesOf_largeFile
  have haccepts := hall largeFile coordinates 1 1 (recordOf largeFile 1 1) isValid_coordinates
    le_rfl le_rfl hcount (pointsTo_recordOf largeFile 1 1) (carries_recordOf largeFile 1 1)
  rw [accepts_iff isValid_coordinates le_rfl le_rfl (pointsTo_recordOf largeFile 1 1),
    hlength] at haccepts
  exact absurd haccepts.1 (Nat.not_succ_le_self _)

end AegisForge.Shared.SourceRecordVerifier
