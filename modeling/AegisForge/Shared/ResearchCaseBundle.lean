import AegisForge.Core.Merkle
import AegisForge.Core.StrictJson
import AegisForge.Shared.ResearchCase

/-!
# Research case bundles

A ZIP archive with a registered case, its tasks and its evidence, and the offline
verifier of such an archive.  What `zipfile` makes of a file is its list of
members, each with what reading it gives.
-/

namespace AegisForge.Shared.ResearchCaseBundle

open AegisForge.Core

def schemaVersion : String := "aegisforge-research-case-bundle-v2"

def legacySchemaVersion : String := "aegisforge-research-case-bundle-v1"

def members : List String := ["case.json", "tasks.json", "evidence.json"]

def allMembers : List String := ["case.json", "tasks.json", "evidence.json", "manifest.json"]

def maxArchiveBytes : ℕ := 64 * 1024 * 1024

def maxTotalUncompressedBytes : ℕ := 64 * 1024 * 1024

def maxMemberBytes : ℕ := 24 * 1024 * 1024

def maxMemberCount : ℕ := 4

def maxTasks : ℕ := 10000

def maxEvidenceRows : ℕ := 20000

def taskRequiredFields : List String :=
  ["id", "description", "status", "created_at", "result", "research_case_id"]

def taskOptionalFields : List String :=
  ["worker", "started_at", "finished_at", "role", "parent_task_id", "retry_count",
    "planner_decision", "round_id"]

def evidenceRequiredFields : List String := ["atom_id", "task_id", "role", "observed_at", "case_id"]

def evidenceOptionalFields : List String := ["round_id", "kind", "value"]

def caseImmutableFields : List String :=
  ["case_id", "target_repository", "target_commit", "scope_url", "scope_digest",
    "scope_reviewed_on", "hypothesis", "attacker_capability", "expected_invariant",
    "falsification_criteria", "rounds", "execution_mode"]

def bundleError (message : String) : Raised := ⟨.researchCaseBundleError, message⟩

/-- `except ValueError as exc: raise ResearchCaseBundleError(message)`. -/
def wrapValueError {A : Type} (message : String) : Except Raised A → Except Raised A
  | .ok value => .ok value
  | .error error => .error (if error.cls.isValueError = true then bundleError message else error)

/-- `_same_case_contract`. -/
def sameCaseContract (left right : Json) : Bool :=
  caseImmutableFields.all fun field => (left.get field).equal (right.get field)

/-! ## Bytes -/

/-- `_canonical_json` of a value with sorted keys. -/
def canonicalBytes (value : Json) : Octets := utf8 (Json.encode false value)

def canonicalJson (value : Json) : Except Raised Octets := do
  raiseUnless (value.isFinite = true) (bundleError "bundle_json_not_canonicalizable")
  return canonicalBytes value

/-- `_strict_json`. -/
def strictJson (label : String) (raw : Octets) : Except Raised Json := do
  let text ← orRaise (bundleError s!"{label}_invalid_utf8") (decodeUtf8? raw)
  let value ← orRaise (bundleError s!"{label}_invalid_json") (Json.readAll text)
  match value.irregularity? with
  | some issue => .error (bundleError s!"{label}_{issue}")
  | none => return value.sortKeys

def merkleLeaf (entry : Json) : Digest :=
  Sha256.sha256 (utf8 "aegisforge:research-case-bundle:merkle-leaf:v1\x00".toList ++
    canonicalBytes entry)

def merkleNode (left right : Digest) : Digest :=
  Sha256.sha256 (utf8 "aegisforge:research-case-bundle:merkle-node:v1\x00".toList ++
    left.bytes ++ right.bytes)

/-- `_merkle_root`. -/
def merkleRoot (entries : List Json) : Digest :=
  (Merkle.root merkleNode (entries.map merkleLeaf)).getD
    (Sha256.sha256 (utf8 "aegisforge:research-case-bundle:merkle-empty:v1\x00".toList))

/-! ## Records -/

/-- A value of a record: decoded JSON, or bytes, which no JSON holds. -/
inductive Cell
  | json (value : Json)
  | bytes (raw : Octets)

namespace Cell

/-- `left == right`. -/
def equal : Cell → Cell → Bool
  | json left, json right => left.equal right
  | bytes left, bytes right => left = right
  | _, _ => false

/-- `value is None`. -/
def isNull : Cell → Bool
  | json value => value.isNull
  | bytes _ => false

/-- `isinstance(value, str)`, with the text. -/
def text? : Cell → Option String
  | json value => value.text?
  | bytes _ => none

def isHashable : Cell → Bool
  | json value => value.isHashable
  | bytes _ => true

def typeName : Cell → String
  | json value => AegisForge.Shared.typeName value
  | bytes _ => "bytes"

/-- `None`, or a text that is not blank. -/
def isRoundId (cell : Cell) : Bool :=
  cell.isNull || cell.text?.any fun text => !isBlank text

end Cell

/-- A dictionary with texts as keys. -/
abbrev Record := List (String × Cell)

namespace Record

/-- `record.get(key)`. -/
def get (record : Record) (key : String) : Cell := (record.lookup key).getD (.json .null)

def ofJson : Json → Record
  | .object fields => fields.map fun field => (field.1, .json field.2)
  | _ => []

end Record

/-! ## The graph of parents -/

/-- What the graph keeps of a task. -/
structure TaskLink where
  id : String
  parent : Option String
  roundId : Cell

/-- `parent_task_id`, which may be `None`. -/
def parentOf (task : Record) : Except Raised (Option String) :=
  if (task.get "parent_task_id").isNull = true then return none
  else do
    let parent ← orRaise (bundleError "task_parent_identity_invalid") (task.get "parent_task_id").text?
    return some parent

/-- The id of a task, which no task before it has. -/
def taskId? (seen : List String) (task : Record) : Option String :=
  (task.get "id").text?.filter fun id => id ≠ "" && id ∉ seen

def taskLinks (seen : List String) : List Record → Except Raised (List TaskLink)
  | [] => return []
  | task :: rest => do
      let id ← orRaise (bundleError "task_identity_invalid") (taskId? seen task)
      let parent ← parentOf task
      let links ← taskLinks (id :: seen) rest
      return ⟨id, parent, task.get "round_id"⟩ :: links

def linkOf? (links : List TaskLink) (id : String) : Option TaskLink :=
  links.find? fun link => link.id = id

/-- A parent is a task of the same round. -/
def checkParent (links : List TaskLink) (link : TaskLink) : Except Raised PUnit :=
  match link.parent with
  | none => return ⟨⟩
  | some id => do
      let parent ← orRaise (bundleError "task_parent_not_in_case_bundle") (linkOf? links id)
      raiseUnless (link.roundId.equal parent.roundId = true)
        (bundleError "task_parent_round_identity_mismatch")

/-- The tasks on the way from one to its first ancestor, or to one that is finished.
No way is longer than the list of the links. -/
def walk (links : List TaskLink) (finished : List String) :
    ℕ → List String → Option String → Except Raised (List String)
  | _, path, none => return path
  | 0, path, some current =>
      if current ∈ finished then return path
      else .error (bundleError "task_parent_cycle_detected")
  | fuel + 1, path, some current =>
      if current ∈ finished then return path
      else if current ∈ path then .error (bundleError "task_parent_cycle_detected")
      else walk links finished fuel (current :: path) ((linkOf? links current).bind TaskLink.parent)

def walkAll (links : List TaskLink) (finished : List String) :
    List TaskLink → Except Raised PUnit
  | [] => return ⟨⟩
  | link :: rest => do
      let path ← walk links finished links.length [] (some link.id)
      walkAll links (path ++ finished) rest

/-- `_validate_task_parent_graph`. -/
def validateTaskParentGraph (tasks : List Record) : Except Raised (List String) := do
  let links ← taskLinks [] tasks
  let _ ← links.mapM (checkParent links)
  walkAll links [] links
  return links.map TaskLink.id

/-! ## Cases -/

/-- `_case_from_payload`. -/
def caseFromPayload (payload : Json) : Except Raised ResearchCase := do
  raiseUnless (payload.isObject = true) (bundleError "registered_case_payload_must_be_object")
  orRaise (bundleError "registered_case_payload_invalid") (ResearchCase.ofPayload? payload)

/-- `result.get("research_case_binding")` on a dictionary, unless it is `None`. -/
def resultBinding? (result : Json) : Option Json :=
  if (result.get "research_case_binding").isNull = true then none
  else some (result.get "research_case_binding")

/-- The snapshot of a result is a case with the contract of the bundle's own. -/
def checkResult (casePayload result : Json) (completed : Bool) : Except Raised PUnit :=
  match resultBinding? result with
  | some binding => do
      let payload ← wrapValueError "task_result_case_binding_invalid" (do
        let payload ← verifyResearchCaseBinding binding
        let _ ← caseFromPayload payload
        return payload)
      raiseUnless (sameCaseContract payload casePayload = true)
        (bundleError "task_result_case_binding_mismatch")
  | none =>
      raiseUnless (completed = false) (bundleError "completed_task_missing_case_binding")

/-- Where a case declares rounds, no task is of another one. -/
def checkDeclaredRounds (case : ResearchCase) (tasks : List Record) : Except Raised PUnit :=
  raiseUnless (case.rounds = [] ∨ (tasks.all fun task => (task.get "round_id").isNull ||
      (task.get "round_id").text?.any (· ∈ case.rounds.map RoundSpec.roundId)) = true)
    (bundleError "task_round_not_declared_in_case")

/-- The task with an id. -/
def taskOf? (tasks : List Record) (id : String) : Option Record :=
  tasks.find? fun task => (task.get "id").text? = some id

/-- An observation has the role and the round of its task. -/
def checkObservation (tasks : List Record) (observation : Record) : Except Raised PUnit := do
  let id := observation.get "task_id"
  raiseUnless (id.isHashable = true) ⟨.typeError, s!"unhashable type: '{id.typeName}'"⟩
  let task ← orRaise (bundleError "evidence_observation_task_not_in_case_bundle")
    (id.text?.bind (taskOf? tasks))
  raiseUnless ((task.get "role").isNull = true ∨
      (observation.get "role").equal (task.get "role") = true)
    (bundleError "evidence_observation_role_mismatch")
  raiseUnless ((observation.get "round_id").equal (task.get "round_id") = true ∧
      (observation.get "round_id").isRoundId = true)
    (bundleError "evidence_observation_round_identity_mismatch")

/-! ## Archives -/

/-- What `zipfile` raises on a file that it cannot read: `BadZipFile`, or another
error that is caught. -/
inductive ZipFailure
  | badZipFile
  | unreadable

def ZipFailure.raised : ZipFailure → Raised
  | badZipFile => bundleError "invalid_bundle_zip"
  | unreadable => bundleError "bundle_read_failed"

/-- A member of an archive, with what reading it gives. -/
structure ZipMember where
  filename : String
  externalAttr : ℕ
  flagBits : ℕ
  compressType : ℕ
  fileSize : ℕ
  content : Except ZipFailure Octets

/-- A file, with what `zipfile` makes of it. -/
structure Archive where
  size : ℕ
  infolist : Except ZipFailure (List ZipMember)

/-- What is at a path. -/
inductive PathEntry
  | missing
  | symlink (targetExists : Bool)
  | directory
  | file (archive : Archive)

/-- The checks of the path of a member. -/
def isUnsafePath (name : String) : Bool :=
  name = "" || '\\' ∈ name.toList || name.toList.head? = some '/' ||
    ['.', '.'] ∈ name.toList.splitOn '/' || name.toList.getLast? = some '/'

/-- What has been read. -/
structure ReadState where
  totalSize : ℕ
  actualTotalSize : ℕ
  files : List (String × Octets)

def catchZip {A : Type} : Except ZipFailure A → Except Raised A
  | .ok value => .ok value
  | .error failure => .error failure.raised

def readMember (state : ReadState) (item : ZipMember) : Except Raised ReadState := do
  raiseUnless (isUnsafePath item.filename = false) (bundleError "unsafe_bundle_member_path")
  raiseUnless (Nat.land (item.externalAttr / 65536) 0xf000 ≠ 0xa000)
    (bundleError "bundle_symlink_member_rejected")
  raiseUnless (item.flagBits % 2 = 0) (bundleError "encrypted_bundle_member_rejected")
  -- `ZIP_STORED` and `ZIP_DEFLATED`
  raiseUnless (item.compressType ∈ [0, 8]) (bundleError "unsupported_bundle_compression")
  raiseUnless (item.fileSize ≤ maxMemberBytes)
    (bundleError s!"bundle_member_exceeds_size_limit:{item.filename}")
  let totalSize := state.totalSize + item.fileSize
  raiseUnless (totalSize ≤ maxTotalUncompressedBytes)
    (bundleError "bundle_uncompressed_size_exceeds_limit")
  let raw ← catchZip item.content
  raiseUnless (raw.length ≤ maxMemberBytes)
    (bundleError s!"bundle_member_exceeds_size_limit:{item.filename}")
  raiseUnless (raw.length = item.fileSize) (bundleError "bundle_member_size_mismatch")
  let actualTotalSize := state.actualTotalSize + raw.length
  raiseUnless (actualTotalSize ≤ maxTotalUncompressedBytes)
    (bundleError "bundle_uncompressed_size_exceeds_limit")
  return ⟨totalSize, actualTotalSize, state.files ++ [(item.filename, raw)]⟩

def readMembers (state : ReadState) : List ZipMember → Except Raised ReadState
  | [] => return state
  | item :: rest => do
      let state ← readMember state item
      readMembers state rest

/-- The files of a bundle. -/
def readBundle : PathEntry → Except Raised (List (String × Octets))
  | .file archive => do
      raiseUnless (archive.size ≤ maxArchiveBytes) (bundleError "bundle_archive_exceeds_size_limit")
      let infos ← catchZip archive.infolist
      raiseUnless (infos.length = maxMemberCount) (bundleError "bundle_member_count_invalid")
      let names := infos.map ZipMember.filename
      raiseUnless (names.Nodup ∧ (∀ name ∈ names, name ∈ allMembers) ∧
          ∀ name ∈ allMembers, name ∈ names)
        (bundleError "bundle_member_set_invalid")
      let state ← readMembers ⟨0, 0, []⟩ infos
      return state.files
  | _ => .error (bundleError "bundle_file_required")

/-- `files[name]`, of a name that is there. -/
def fileOf (files : List (String × Octets)) (name : String) : Octets :=
  (files.lookup name).getD []

/-! ## The manifest -/

/-- The keys of a manifest of each version. -/
def manifestFields (version : String) : Option (List String) :=
  if version = legacySchemaVersion then
    some ["schema_version", "case_id", "case_digest", "entries", "bundle_sha256"]
  else if version = schemaVersion then
    some ["schema_version", "case_id", "case_digest", "entries", "merkle_root", "bundle_sha256"]
  else none

/-- `left < right`, of texts and of numbers. -/
def pathLess? (left right : Json) : Option Bool :=
  match left, right with
  | .text left, .text right => some (left < right)
  | left, right =>
      match left.magnitude?, right.magnitude? with
      | some (.finite left), some (.finite right) => some (left < right)
      | some (.infinite left), some (.infinite right) => some (left && !right)
      | some (.finite _), some (.infinite right) => some !right
      | some (.infinite left), some (.finite _) => some left
      | _, _ => none

/-- `entry_paths == sorted(entry_paths)`. -/
def checkSorted (paths : List Json) : Except Raised PUnit := do
  let descents ← (paths.zip paths.tail).mapM fun pair =>
    orRaise (⟨.typeError, "'<' not supported between instances"⟩ : Raised)
      (pathLess? pair.2 pair.1)
  raiseUnless (descents.all (!·) = true) (bundleError "manifest_entries_not_sorted")

/-- The entry states the size and the digest of a member that no entry before it names. -/
def checkEntry (files : List (String × Octets)) (seen : List String) (entry : Json) :
    Except Raised String := do
  raiseUnless (entry.hasExactly ["path", "sha256", "size"] = true)
    (bundleError "manifest_entry_invalid")
  let path := entry.get "path"
  raiseUnless (path.isHashable = true) ⟨.typeError, s!"unhashable type: '{typeName path}'"⟩
  let name ← orRaise (bundleError "manifest_member_set_invalid")
    (path.text?.filter fun name => name ∈ members && name ∉ seen)
  let size ← orRaise (bundleError "manifest_member_size_invalid")
    ((entry.get "size").int?.filter (0 ≤ ·))
  let digest ← orRaise (bundleError "manifest_member_digest_invalid")
    ((entry.get "sha256").text?.filter isDigestText)
  let raw := fileOf files name
  raiseUnless (size = raw.length ∧ digest = (Sha256.sha256 raw).text)
    (bundleError s!"bundle_member_digest_mismatch:{name}")
  return name

def checkEntries (files : List (String × Octets)) (seen : List String) :
    List Json → Except Raised (List String)
  | [] => return seen
  | entry :: rest => do
      let name ← checkEntry files seen entry
      checkEntries files (name :: seen) rest

/-- `manifest_core`. -/
def manifestCore (version : String) (manifest : Json) : Json :=
  if version = schemaVersion then
    .object [("case_digest", manifest.get "case_digest"), ("case_id", manifest.get "case_id"),
      ("entries", manifest.get "entries"), ("merkle_root", manifest.get "merkle_root"),
      ("schema_version", manifest.get "schema_version")]
  else
    .object [("case_digest", manifest.get "case_digest"), ("case_id", manifest.get "case_id"),
      ("entries", manifest.get "entries"), ("schema_version", manifest.get "schema_version")]

/-- The root of the entries, which the first version lacks. -/
def checkMerkleRoot (version : String) (manifest : Json) (entries : List Json) :
    Except Raised PUnit :=
  if version = schemaVersion then do
    let root ← orRaise (bundleError "manifest_merkle_root_invalid")
      ((manifest.get "merkle_root").text?.filter isDigestText)
    raiseUnless (root = (merkleRoot entries).text) (bundleError "bundle_merkle_root_mismatch")
  else return ⟨⟩

/-- The version of a manifest. -/
def versionOf (manifest : Json) : Except Raised String :=
  orRaise (bundleError "unsupported_bundle_schema") ((manifest.get "schema_version").text?.filter
    fun version => version ∈ [legacySchemaVersion, schemaVersion])

def checkManifest (files : List (String × Octets)) (manifest : Json) : Except Raised String := do
  raiseUnless (manifest.isObject = true) (bundleError "manifest_fields_invalid")
  let version ← versionOf manifest
  raiseUnless ((manifestFields version).any manifest.hasExactly = true)
    (bundleError "manifest_fields_invalid")
  let entries ← orRaise (bundleError "manifest_entries_invalid")
    ((manifest.get "entries").array?.filter fun entries => entries.length = members.length)
  checkSorted (entries.map fun entry => entry.get "path")
  let seen ← checkEntries files [] entries
  raiseUnless (∀ name ∈ members, name ∈ seen) (bundleError "manifest_member_set_invalid")
  checkMerkleRoot version manifest entries
  let core ← canonicalJson (manifestCore version manifest)
  raiseUnless (manifest.get "bundle_sha256" = .text (Sha256.sha256 core).text)
    (bundleError "bundle_manifest_digest_mismatch")
  return version

/-! ## The other members -/

/-- The case of a bundle, with its payload and its binding. -/
structure BundleCase where
  case : ResearchCase
  payload : Json
  binding : Json

namespace BundleCase

/-- `binding["case_id"]`. -/
def caseId (bundled : BundleCase) : Json := bundled.binding.get "case_id"

end BundleCase

def checkCase (manifest caseFile : Json) : Except Raised BundleCase := do
  raiseUnless (caseFile.hasExactly ["research_case_binding"] = true)
    (bundleError "case_file_schema_invalid")
  let binding := caseFile.get "research_case_binding"
  let bundled ← wrapValueError "case_binding_invalid" (do
    let payload ← verifyResearchCaseBinding binding
    let case ← caseFromPayload payload
    raiseUnless ((researchCaseBinding case).equal binding = true)
      (bundleError "case_binding_not_canonical")
    return (⟨case, payload, binding⟩ : BundleCase))
  raiseUnless ((manifest.get "case_id").equal bundled.caseId = true ∧
      (manifest.get "case_digest").equal (binding.get "case_digest") = true ∧
      (bundled.payload.get "case_id").equal bundled.caseId = true)
    (bundleError "bundle_case_identity_mismatch")
  return bundled

/-- The list under a key of a member that names the version and the case. -/
def recordsOf (version : String) (bundled : BundleCase) (file : Json) (key : String)
    (error : Raised) : Except Raised (List Json) := do
  raiseUnless (file.isObject = true ∧ (file.get "schema_version").equal (.text version) = true ∧
    (file.get "case_id").equal bundled.caseId = true) error
  orRaise error (file.get key).array?

/-- The checks of a task, which answer its id. -/
def checkTask (bundled : BundleCase) (seen : List String) (task : Json) : Except Raised String := do
  raiseUnless (task.isObject = true) (bundleError "task_record_must_be_object")
  raiseUnless (∀ field ∈ taskRequiredFields, field ∈ task.keys)
    (bundleError "task_record_required_fields_missing")
  raiseUnless (∀ field ∈ task.keys, field ∈ taskRequiredFields ++ taskOptionalFields)
    (bundleError "task_record_unexpected_fields")
  raiseUnless ((task.get "research_case_id").equal bundled.caseId = true)
    (bundleError "task_case_identity_mismatch")
  let id ← orRaise (bundleError "task_identity_invalid") (taskId? seen (Record.ofJson task))
  raiseUnless (((Record.ofJson task).get "round_id").isRoundId = true)
    (bundleError "task_round_identity_invalid")
  checkResult bundled.payload (task.get "result") (task.get "status" = .text "completed")
  return id

def checkTasks (bundled : BundleCase) (seen : List String) : List Json → Except Raised PUnit
  | [] => return ⟨⟩
  | task :: rest => do
      let id ← checkTask bundled seen task
      checkTasks bundled (id :: seen) rest

def checkEvidenceRecord (bundled : BundleCase) (tasks : List Record) (observation : Json) :
    Except Raised PUnit := do
  raiseUnless (observation.isObject = true) (bundleError "evidence_record_must_be_object")
  raiseUnless (∀ field ∈ evidenceRequiredFields, field ∈ observation.keys)
    (bundleError "evidence_record_required_fields_missing")
  raiseUnless (∀ field ∈ observation.keys, field ∈ evidenceRequiredFields ++ evidenceOptionalFields)
    (bundleError "evidence_record_unexpected_fields")
  raiseUnless ((observation.get "case_id").equal bundled.caseId = true)
    (bundleError "evidence_case_identity_mismatch")
  checkObservation tasks (Record.ofJson observation)

/-! ## Verification -/

/-- What an accepted bundle holds. -/
structure Contents where
  version : String
  manifest : Json
  caseFile : Json
  bundled : BundleCase
  tasksFile : Json
  tasks : List Json
  evidenceFile : Json
  observations : List Json

/-- The checks of the members of a bundle. -/
def verifyFiles (files : List (String × Octets)) : Except Raised Contents := do
  let manifest ← strictJson "manifest" (fileOf files "manifest.json")
  let version ← checkManifest files manifest
  let caseFile ← strictJson "case" (fileOf files "case.json")
  let bundled ← checkCase manifest caseFile
  let tasksFile ← strictJson "tasks" (fileOf files "tasks.json")
  let tasks ← recordsOf version bundled tasksFile "tasks" (bundleError "tasks_file_schema_invalid")
  raiseUnless (tasks.length ≤ maxTasks) (bundleError "case_task_count_exceeds_limit")
  checkTasks bundled [] tasks
  let records := tasks.map Record.ofJson
  let _ ← validateTaskParentGraph records
  let evidenceFile ← strictJson "evidence" (fileOf files "evidence.json")
  let observations ← recordsOf version bundled evidenceFile "observations"
    (bundleError "evidence_file_schema_invalid")
  raiseUnless (observations.length ≤ maxEvidenceRows)
    (bundleError "case_evidence_count_exceeds_limit")
  checkDeclaredRounds bundled.case records
  let _ ← observations.mapM (checkEvidenceRecord bundled records)
  return ⟨version, manifest, caseFile, bundled, tasksFile, tasks, evidenceFile, observations⟩

/-- What the verifier reports. -/
structure Summary where
  schemaVersion : String
  caseId : Json
  caseDigest : Json
  taskCount : ℕ
  taskStatusCounts : List (String × ℕ)
  evidenceObservationCount : ℕ
  bundleSha256 : Json

/-- One more task with a status. -/
def countStatus (status : String) : List (String × ℕ) → List (String × ℕ)
  | [] => [(status, 1)]
  | (other, count) :: rest =>
      if other = status then (other, count + 1) :: rest
      else (other, count) :: countStatus status rest

/-- The primitives that come from outside. -/
structure Primitives where
  /-- `str` of a value that is not text. -/
  textOf : Json → String
  /-- `zlib.decompress`. -/
  decompress : Octets → Option Octets
  /-- The size of the archive that `zipfile` writes. -/
  archiveSize : List (String × Octets) → ℕ

/-- `str(value)`. -/
def str (primitives : Primitives) : Json → String
  | .text value => value
  | value => primitives.textOf value

def Contents.summary (primitives : Primitives) (contents : Contents) : Summary where
  schemaVersion := contents.version
  caseId := contents.bundled.caseId
  caseDigest := contents.bundled.binding.get "case_digest"
  taskCount := contents.tasks.length
  taskStatusCounts := contents.tasks.foldl
    (fun counts task => countStatus (str primitives (task.get "status")) counts) []
  evidenceObservationCount := contents.observations.length
  bundleSha256 := contents.manifest.get "bundle_sha256"

/-- What is read of an accepted bundle. -/
def readContents (path : PathEntry) : Except Raised Contents := do
  let files ← readBundle path
  verifyFiles files

/-- `verify_research_case_bundle`. -/
def verifyResearchCaseBundle (primitives : Primitives) (path : PathEntry) :
    Except Raised Summary := do
  let contents ← readContents path
  return contents.summary primitives

end AegisForge.Shared.ResearchCaseBundle
