import AegisForge.Shared.ResearchCaseBundle

/-!
# Export of research case bundles

A case, its tasks and its evidence are read from a database, checked and written
as an archive, which replaces what was at the output path before it is verified.
-/

namespace AegisForge.Shared.ResearchCaseBundle

open AegisForge.Core

/-! ## The database -/

/-- A value of a column. -/
inductive SqlValue
  | null
  | integer (value : ℤ)
  /-- A float, by its `repr`. -/
  | real (literal : {literal : String // Json.IsFloatText literal})
  | text (value : String)
  | blob (raw : Octets)

namespace SqlValue

/-- The value as `sqlite3` answers it. -/
def cell : SqlValue → Cell
  | null => .json .null
  | integer value => .json (.int value)
  | real literal => .json (.float literal)
  | text value => .json (.text value)
  | blob raw => .bytes raw

/-- The order of values of different storage classes. -/
def rank : SqlValue → ℕ
  | null => 0
  | integer _ => 1
  | real _ => 1
  | text _ => 2
  | blob _ => 3

/-- `left < right` in the order of the database. -/
def less (left right : SqlValue) : Bool :=
  match left, right with
  | text left, text right => left < right
  | blob left, blob right => left < right
  | left, right =>
      left.rank < right.rank ||
        (match left.cell, right.cell with
          | .json left, .json right => (pathLess? left right).getD false
          | _, _ => false)

/-- `left = right`, which is not true of `NULL`. -/
def equal (left right : SqlValue) : Bool := left.rank ≠ 0 && left.cell.equal right.cell

end SqlValue

/-- A row, by the names of its columns. -/
abbrev SqlRow := List (String × SqlValue)

def SqlRow.get (row : SqlRow) (column : String) : SqlValue := (row.lookup column).getD .null

/-- `PRAGMA table_info` and the rows of a table. -/
structure SqlTable where
  columns : List String
  rows : List SqlRow

/-- What the export reads of a database. -/
structure CaseDatabase where
  researchCases : Option SqlTable
  queue : Option SqlTable
  evidenceObservations : Option SqlTable
  evidenceLedger : Option SqlTable

/-- `WHERE column = ?`. -/
def SqlTable.where (table : SqlTable) (column value : String) : List SqlRow :=
  table.rows.filter fun row => (row.get column).equal (.text value)

/-- Whether one row comes before another one in `ORDER BY columns`. -/
def comesBefore (left right : SqlRow) : List String → Bool
  | [] => false
  | column :: rest =>
      (left.get column).less (right.get column) ||
        (!(right.get column).less (left.get column) && comesBefore left right rest)

/-- `ORDER BY columns`. -/
def orderBy (columns : List String) (rows : List SqlRow) : List SqlRow :=
  rows.insertionSort fun left right => comesBefore right left columns = false

/-! ## Results -/

def magic : Octets := utf8 ['A', 'F', 'Z', '1']

/-- `json.loads`, or the text itself. -/
def loadsOrText (text : List Char) : Json := (Json.loads text).getD (.text (String.ofList text))

/-- `result_codec.decode`. -/
def decode (primitives : Primitives) : Cell → Except Raised Json
  | .bytes raw =>
      if magic.isPrefixOf raw = true then do
        let packed ← orRaise (⟨.externalError, "zlib"⟩ : Raised)
          (primitives.decompress (raw.drop magic.length))
        let text ← orRaise (⟨.valueError, "utf-8"⟩ : Raised) (decodeUtf8? packed)
        orRaise (⟨.valueError, "json"⟩ : Raised) (Json.loads text)
      else do
        let text ← orRaise (⟨.valueError, "utf-8"⟩ : Raised) (decodeUtf8? raw)
        return loadsOrText text
  | .json (.text value) => return loadsOrText value.toList
  | .json value => return value

/-! ## Records -/

def taskRequiredColumns : List String :=
  ["id", "description", "status", "created_at", "result", "research_case_id"]

/-- The columns of a task, sorted. -/
def taskColumns : List String :=
  ["created_at", "description", "finished_at", "id", "parent_task_id", "planner_decision",
    "research_case_id", "result", "retry_count", "role", "round_id", "started_at", "status",
    "worker"]

/-- The keys of an exported task.  A round that is no column is `None`. -/
def selected (columns : List String) : List String :=
  taskColumns.filter fun column => column ∈ columns || column = "round_id"

/-- The value of a column, or `None` of one that the table lacks. -/
def columnOf (columns : List String) (row : SqlRow) (column : String) : Cell :=
  if column ∈ columns then (row.get column).cell else .json .null

/-- A row of the queue with its decoded result.  A decoded result always has one of
the types that are supported. -/
def exportTask (primitives : Primitives) (casePayload : Json) (columns : List String)
    (row : SqlRow) : Except Raised Record := do
  raiseUnless ((columnOf columns row "round_id").isRoundId = true)
    (bundleError "task_round_identity_invalid")
  let result ← wrapValueError "task_result_decode_failed"
    (decode primitives (columnOf columns row "result"))
  checkResult casePayload result
    ((columnOf columns row "status").equal (.json (.text "completed")))
  return (selected columns).map fun column =>
    (column, if column = "result" then .json result else columnOf columns row column)

/-- The keys of an exported observation, sorted. -/
def evidenceColumns : List String :=
  ["atom_id", "case_id", "observed_at", "role", "round_id", "task_id"]

def ledgerColumns : List String :=
  ["atom_id", "case_id", "kind", "observed_at", "role", "round_id", "task_id", "value"]

/-- The entries of the ledger for an observation. -/
def ledgerEntries (ledger : SqlTable) (observation : SqlRow) : List SqlRow :=
  ledger.rows.filter fun entry => (entry.get "atom_id").equal (observation.get "atom_id")

/-- An observation with an entry of the ledger. -/
def joined (columns : List String) (observation entry : SqlRow) : Record :=
  ledgerColumns.map fun column =>
    (column, if column ∈ ["kind", "value"] then (entry.get column).cell
      else columnOf columns observation column)

/-- The observations of a case, in their order. -/
def exportEvidence (database : CaseDatabase) (caseId : String) : Except Raised (List Record) :=
  match database.evidenceObservations with
  | none => return []
  | some table =>
      if evidenceRequiredFields.all (· ∈ table.columns) = true then do
        let observations := orderBy ["observed_at", "task_id", "atom_id"]
          (table.where "case_id" caseId)
        let evidence ← match database.evidenceLedger with
          | some ledger => do
              raiseUnless (∀ observation ∈ observations, ledgerEntries ledger observation ≠ [])
                (bundleError "evidence_observation_ledger_entry_missing")
              (return observations.flatMap fun observation =>
                (ledgerEntries ledger observation).map (joined table.columns observation) :
                Except Raised (List Record))
          | none =>
              (return observations.map fun observation => evidenceColumns.map fun column =>
                (column, columnOf table.columns observation column) : Except Raised (List Record))
        raiseUnless (evidence.length ≤ maxEvidenceRows)
          (bundleError "case_evidence_count_exceeds_limit")
        return evidence
      else return []

/-! ## What is exported -/

/-- A case with its tasks and its evidence. -/
structure Exported where
  case : ResearchCase
  tasks : List Record
  evidence : List Record

/-- The registered payload of a case. -/
def registeredPayload (cases : SqlTable) (caseId : String) : Except Raised Json := do
  let row ← orRaise (bundleError "research_case_not_registered")
    (cases.where "case_id" caseId).head?
  let cell := (row.get "payload").cell
  let payload ← orRaise
    (⟨.attributeError, s!"'{cell.typeName}' object has no attribute 'encode'"⟩ : Raised) cell.text?
  strictJson "case" (utf8 payload.toList)

/-- The tasks of a case, in their order. -/
def exportTasks (primitives : Primitives) (casePayload : Json) (queue : SqlTable)
    (caseId : String) : Except Raised (List Record) := do
  raiseUnless (∀ column ∈ taskRequiredColumns, column ∈ queue.columns)
    (bundleError "queue_schema_missing_required_columns")
  let rows := orderBy ["created_at", "id"] (queue.where "research_case_id" caseId)
  raiseUnless (rows.length ≤ maxTasks) (bundleError "case_task_count_exceeds_limit")
  rows.mapM (exportTask primitives casePayload queue.columns)

/-- What is read from the database and checked. -/
def exportRecords (primitives : Primitives) (database : CaseDatabase) (caseId : String) :
    Except Raised Exported := do
  let missing := bundleError "database_missing_case_or_queue_table"
  let cases ← orRaise missing database.researchCases
  let queue ← orRaise missing database.queue
  let casePayload ← registeredPayload cases caseId
  let case ← caseFromPayload casePayload
  raiseUnless (case.caseId = caseId) (bundleError "registered_case_id_mismatch")
  let tasks ← exportTasks primitives casePayload queue caseId
  let evidence ← exportEvidence database caseId
  let _ ← validateTaskParentGraph tasks
  checkDeclaredRounds case tasks
  let _ ← evidence.mapM (checkObservation tasks)
  return ⟨case, tasks, evidence⟩

/-! ## Members -/

/-- What `json.dumps` writes of a cell. -/
def Cell.json? : Cell → Option Json
  | json value => some value
  | bytes _ => none

/-- A field as it is written. -/
def fieldJson? (field : String × Cell) : Option (String × Json) :=
  field.2.json?.map fun value => (field.1, value)

def Record.json? (record : Record) : Option Json := (record.mapM fieldJson?).map .object

def recordsJson (records : List Record) : Except Raised (List Json) :=
  orRaise (bundleError "bundle_json_not_canonicalizable") (records.mapM Record.json?)

/-- A member with a list of records. -/
def recordsFile (caseId key : String) (records : List Json) : Json :=
  Json.sortKeys (.object [("schema_version", .text schemaVersion), ("case_id", .text caseId),
    (key, .array records)])

/-- The entry of a member. -/
def manifestEntry (name : String) (raw : Octets) : Json :=
  .object [("path", .text name), ("sha256", .text (Sha256.sha256 raw).text),
    ("size", .int raw.length)]

/-- The entries of the members, sorted by their names. -/
def manifestEntries (caseRaw tasksRaw evidenceRaw : Octets) : List Json :=
  [manifestEntry "case.json" caseRaw, manifestEntry "evidence.json" evidenceRaw,
    manifestEntry "tasks.json" tasksRaw]

/-- `manifest_core` of an export. -/
def exportCore (caseId caseDigest : String) (entries : List Json) : Json :=
  .object [("case_digest", .text caseDigest), ("case_id", .text caseId),
    ("entries", .array entries), ("merkle_root", .text (merkleRoot entries).text),
    ("schema_version", .text schemaVersion)]

/-- The manifest of an export. -/
def exportManifest (caseId caseDigest : String) (entries : List Json) : Json :=
  .object [
    ("bundle_sha256",
      .text (Sha256.sha256 (canonicalBytes (exportCore caseId caseDigest entries))).text),
    ("case_digest", .text caseDigest), ("case_id", .text caseId), ("entries", .array entries),
    ("merkle_root", .text (merkleRoot entries).text), ("schema_version", .text schemaVersion)]

/-- `{"research_case_binding": binding}`. -/
def caseFileOf (case : ResearchCase) : Json :=
  .object [("research_case_binding", researchCaseBinding case)]

/-- The four members, in the order in which they are written. -/
structure MemberFiles where
  caseRaw : Octets
  tasksRaw : Octets
  evidenceRaw : Octets
  manifestRaw : Octets

namespace MemberFiles

variable (files : MemberFiles)

def named : List (String × Octets) :=
  [("case.json", files.caseRaw), ("tasks.json", files.tasksRaw),
    ("evidence.json", files.evidenceRaw), ("manifest.json", files.manifestRaw)]

/-- `sorted(files)`. -/
def sorted : List (String × Octets) :=
  [("case.json", files.caseRaw), ("evidence.json", files.evidenceRaw),
    ("manifest.json", files.manifestRaw), ("tasks.json", files.tasksRaw)]

/-- The uncompressed size of all members. -/
def totalSize : ℕ :=
  files.caseRaw.length + files.tasksRaw.length + files.evidenceRaw.length +
    files.manifestRaw.length

end MemberFiles

/-- The members for a case with the values of the other two. -/
def memberFiles (case : ResearchCase) (tasksFile evidenceFile : Json) : MemberFiles :=
  let caseRaw := canonicalBytes (caseFileOf case)
  let tasksRaw := canonicalBytes tasksFile
  let evidenceRaw := canonicalBytes evidenceFile
  ⟨caseRaw, tasksRaw, evidenceRaw, canonicalBytes (exportManifest case.caseId
    (caseDigest case.payload).text (manifestEntries caseRaw tasksRaw evidenceRaw))⟩

/-- What is written of what was read. -/
def exportFiles (exported : Exported) : Except Raised MemberFiles := do
  let _ ← canonicalJson (caseFileOf exported.case)
  let tasks ← recordsJson exported.tasks
  let tasksFile := recordsFile exported.case.caseId "tasks" tasks
  let _ ← canonicalJson tasksFile
  let evidence ← recordsJson exported.evidence
  let evidenceFile := recordsFile exported.case.caseId "observations" evidence
  let _ ← canonicalJson evidenceFile
  return memberFiles exported.case tasksFile evidenceFile

/-- No member is too large. -/
def checkSizes : List (String × Octets) → Except Raised PUnit
  | [] => return ⟨⟩
  | file :: rest => do
      raiseUnless (file.2.length ≤ maxMemberBytes)
        (bundleError s!"bundle_member_exceeds_size_limit:{file.1}")
      checkSizes rest

/-! ## Archives -/

/-- A member as it is written and read back. -/
def zipMember (file : String × Octets) : ZipMember :=
  ⟨file.1, 0x81a4 * 65536, 0, 8, file.2.length, .ok file.2⟩

/-- `_zip_bytes`. -/
def zipBytes (primitives : Primitives) (files : MemberFiles) : Archive :=
  ⟨primitives.archiveSize files.sorted, .ok (files.sorted.map zipMember)⟩

/-- An export: the database as it opens, what is at the output path, whether that is
the database, and whether the archive gets there. -/
structure Request where
  caseId : String
  connection : Except Raised CaseDatabase
  output : PathEntry
  isDatabase : Bool
  placed : Except Raised PUnit

/-- The members that an export is about to put at the output path. -/
def prepare (primitives : Primitives) (request : Request) : Except Raised MemberFiles := do
  raiseUnless (isBlank request.caseId = false) (bundleError "case_id_required")
  match request.output with
  | .symlink true => .error (bundleError "output_path_must_not_be_symlink")
  | _ => do
      raiseUnless (request.isDatabase = false)
        (bundleError "output_must_not_overwrite_database")
      let database ← request.connection
      let exported ← exportRecords primitives database request.caseId
      let files ← exportFiles exported
      checkSizes files.named
      raiseUnless ((zipBytes primitives files).size ≤ maxArchiveBytes)
        (bundleError "bundle_archive_exceeds_size_limit")
      request.placed
      return files

/-- `export_research_case_bundle`, with what is at the output path afterwards. -/
def exportResearchCaseBundle (primitives : Primitives) (request : Request) :
    Except Raised Summary × PathEntry :=
  match prepare primitives request with
  | .error error => (.error error, request.output)
  | .ok files =>
      -- `os.replace`
      let output := PathEntry.file (zipBytes primitives files)
      (verifyResearchCaseBundle primitives output, output)

end AegisForge.Shared.ResearchCaseBundle
