import AegisForge.Core.CanonicalJson
import AegisForge.Core.Sha256
import AegisForge.Core.Table
import AegisForge.Core.Text

/-!
# The evidence ledger

Normalized evidence atoms with their counts, the last task of each role, and the
contradictions between findings.
-/

namespace AegisForge.Shared

open AegisForge.Core AegisForge.Core.Sha256

/-! ## Atoms -/

/-- `MAX_ATOM_VALUE_BYTES`. -/
def maxAtomValueBytes : ℕ := 8192

/-- `atom_id`. -/
def atomId (atom : String) : String := (sha256 (utf8 atom.toList)).text

/-- `split_atom`. -/
def splitAtom (atom : String) : String × String :=
  let kind := atom.toList.takeWhile (· ≠ ':')
  match atom.toList.drop kind.length with
  | [] => ("unknown", atom)
  | _ :: value => (String.ofList kind, String.ofList value)

/-- The characters whose encoding lies within a number of bytes. -/
def takeBytes : ℕ → List Char → List Char
  | _, [] => []
  | count, character :: rest =>
      if character.utf8Size ≤ count then character :: takeBytes (count - character.utf8Size) rest
      else []

/-- An atom as the ledger stores it. -/
structure StoredAtom where
  atomId : String
  kind : String
  value : String
  deriving DecidableEq

/-- The stripped atom with a bounded value. -/
def storedAtom (raw : String) : Option StoredAtom :=
  let atom := strip raw
  if atom = "" then none
  else
    let (kind, value) := splitAtom atom
    if maxAtomValueBytes < (utf8 value.toList).length then
      let value := String.ofList (takeBytes maxAtomValueBytes value.toList)
      some ⟨atomId (kind ++ ":" ++ value), kind, value⟩
    else some ⟨atomId atom, kind, value⟩

/-! ## Tables -/

/-- A row of `evidence_ledger`. -/
structure EvidenceRow where
  atomId : String
  kind : String
  value : String
  firstSeen : String
  lastSeen : String
  confirmationCount : ℕ
  independentRoleCount : ℕ
  latestTaskId : String
  latestRole : String
  deriving DecidableEq

/-- A row of `evidence_provenance`. -/
structure ProvenanceRow where
  atomId : String
  role : String
  firstTaskId : String
  latestTaskId : String
  firstSeen : String
  lastSeen : String
  observationCount : ℕ
  deriving DecidableEq

def ProvenanceRow.key (row : ProvenanceRow) : String × String := (row.atomId, row.role)

/-- A row of `evidence_contradictions`. -/
structure ContradictionRow where
  atomId : String
  otherAtomId : String
  firstSeen : String
  lastSeen : String
  firstTaskId : String
  latestTaskId : String
  latestRole : String
  reason : String
  deriving DecidableEq

def ContradictionRow.key (row : ContradictionRow) : String × String :=
  (row.atomId, row.otherAtomId)

structure EvidenceLedger where
  evidence : Table EvidenceRow.atomId EvidenceRow.atomId
  provenance : Table ProvenanceRow.key ProvenanceRow.key
  contradictions : Table ContradictionRow.key ContradictionRow.key

def EvidenceLedger.empty : EvidenceLedger := ⟨.empty, .empty, .empty⟩

/-! ## Recording atoms -/

/-- A task that observes something, in the role that is `unknown` if it is empty. -/
structure Observer where
  taskId : String
  role : String
  now : String
  deriving DecidableEq

/-- The row after another confirmation, by a role that is new or not. -/
def EvidenceRow.confirmed (observer : Observer) (newRole : Bool) (row : EvidenceRow) :
    EvidenceRow :=
  { row with
    lastSeen := observer.now
    latestTaskId := observer.taskId
    latestRole := observer.role
    confirmationCount := row.confirmationCount + 1
    independentRoleCount := row.independentRoleCount + if newRole then 1 else 0 }

theorem EvidenceRow.atomId_confirmed (observer : Observer) (newRole : Bool) (row : EvidenceRow) :
    (row.confirmed observer newRole).atomId = row.atomId := rfl

def ProvenanceRow.observed (observer : Observer) (row : ProvenanceRow) : ProvenanceRow :=
  { row with
    latestTaskId := observer.taskId
    lastSeen := observer.now
    observationCount := row.observationCount + 1 }

theorem ProvenanceRow.key_observed (observer : Observer) (row : ProvenanceRow) :
    (row.observed observer).key = row.key := rfl

/-- The state of the loop over the atoms. -/
structure Recording where
  ledger : EvidenceLedger
  inserted : ℕ
  confirmed : ℕ

namespace EvidenceLedger

/-- The statement about `evidence_ledger`: a new row, or one more confirmation. -/
def storeEvidence (ledger : EvidenceLedger) (observer : Observer) (atom : StoredAtom) :
    Table EvidenceRow.atomId EvidenceRow.atomId :=
  ledger.evidence.upsert
    {
      atomId := atom.atomId
      kind := atom.kind
      value := atom.value
      firstSeen := observer.now
      lastSeen := observer.now
      confirmationCount := 1
      independentRoleCount := 1
      latestTaskId := observer.taskId
      latestRole := observer.role
    }
    (EvidenceRow.confirmed observer
      (decide (ledger.provenance.lookup (atom.atomId, observer.role) = none)))
    (EvidenceRow.atomId_confirmed observer _)

/-- The statement about `evidence_provenance`. -/
def storeProvenance (ledger : EvidenceLedger) (observer : Observer) (atom : StoredAtom) :
    Table ProvenanceRow.key ProvenanceRow.key :=
  ledger.provenance.upsert
    {
      atomId := atom.atomId
      role := observer.role
      firstTaskId := observer.taskId
      latestTaskId := observer.taskId
      firstSeen := observer.now
      lastSeen := observer.now
      observationCount := 1
    }
    (ProvenanceRow.observed observer) (ProvenanceRow.key_observed observer)

/-- The row of the role names the task already. -/
def isRepeated (ledger : EvidenceLedger) (observer : Observer) (atom : StoredAtom) : Bool :=
  (ledger.provenance.lookup (atom.atomId, observer.role)).any fun row =>
    row.latestTaskId = observer.taskId

/-- An observation of an atom that is not repeated. -/
def observe (ledger : EvidenceLedger) (observer : Observer) (atom : StoredAtom) :
    EvidenceLedger where
  evidence := ledger.storeEvidence observer atom
  provenance := ledger.storeProvenance observer atom
  contradictions := ledger.contradictions

end EvidenceLedger

/-- One turn of the loop. -/
def recordAtom (observer : Observer) (recording : Recording) (raw : String) : Recording :=
  match storedAtom raw with
  | none => recording
  | some atom =>
      if recording.ledger.isRepeated observer atom = true then recording
      else {
        ledger := recording.ledger.observe observer atom
        inserted := recording.inserted +
          if recording.ledger.evidence.lookup atom.atomId = none then 1 else 0
        confirmed := recording.confirmed +
          if recording.ledger.evidence.lookup atom.atomId ≠ none ∧
            recording.ledger.provenance.lookup (atom.atomId, observer.role) = none then 1 else 0
      }

/-- `sorted(set(atoms))`. -/
def sortedAtoms (atoms : List String) : List String := sorted atoms.dedup

def recordAtoms (ledger : EvidenceLedger) (observer : Observer) (atoms : List String) : Recording :=
  (sortedAtoms atoms).foldl (recordAtom observer) ⟨ledger, 0, 0⟩

/-! ## Quality -/

/-- What `evidence_quality` answers, apart from the id. -/
structure EvidenceQuality where
  kind : String
  value : String
  confirmationCount : ℕ
  independentRoleCount : ℕ
  contradictionCount : ℕ
  state : String
  qualityScore : ℕ
  firstSeen : String
  lastSeen : String
  latestTaskId : String
  latestRole : String
  deriving DecidableEq

/-- The state and the score of an atom. -/
def evidenceState (contradictionCount independentRoles : ℕ) : String × ℕ :=
  if contradictionCount ≠ 0 then ("CONTESTED", 15)
  else if 3 ≤ independentRoles then ("MULTI_SOURCE", 85)
  else if 2 ≤ independentRoles then ("CORROBORATED", 60)
  else ("UNCONFIRMED", 25)

/-- `EvidenceLedger.evidence_quality`. -/
def EvidenceLedger.evidenceQuality (ledger : EvidenceLedger) (atomId : String) :
    Option EvidenceQuality :=
  (ledger.evidence.lookup atomId).map fun row =>
    let contradictionCount := ledger.contradictions.rows.countP fun contradiction =>
      contradiction.atomId = atomId || contradiction.otherAtomId = atomId
    let state := evidenceState contradictionCount row.independentRoleCount
    {
      kind := row.kind
      value := row.value
      confirmationCount := row.confirmationCount
      independentRoleCount := row.independentRoleCount
      contradictionCount := contradictionCount
      state := state.1
      qualityScore := state.2
      firstSeen := row.firstSeen
      lastSeen := row.lastSeen
      latestTaskId := row.latestTaskId
      latestRole := row.latestRole
    }

/-! ## Findings -/

/-- `value.get(key)` on a dictionary whose fields stand as they were written. -/
def lastField? : Json → String → Option Json
  | .object fields, key => (fields.reverse.find? fun field => field.1 = key).map Prod.snd
  | _, _ => none

/-- Functions of the language on texts: `str` of a float, a list or a dictionary, and
`str.upper`. -/
structure Rendering where
  shown : Json → String
  upper : String → String

/-- `str(value)`. -/
def Rendering.str (rendering : Rendering) : Json → String
  | .text value => value
  | .null => "None"
  | .bool true => "True"
  | .bool false => "False"
  | .int value => String.ofList (Json.encodeInt value)
  | value => rendering.shown value

/-- `str(value).strip()` of a field that is there and not blank. -/
def strippedField? (rendering : Rendering) (finding : Json) (key : String) : Option String :=
  (lastField? finding key).bind fun value =>
    if value.isNull = true ∨ strip (rendering.str value) = "" then none
    else some (strip (rendering.str value))

abbrev Identity := List (String × String)

/-- The keys of an identity, sorted. -/
def identityKeys : List String :=
  ["address", "contract", "description", "file", "repository", "rule"]

/-- `_finding_identity`. -/
def findingIdentity (rendering : Rendering) (finding : Json) : Option Identity :=
  let identity := identityKeys.filterMap fun key =>
    (strippedField? rendering finding key).map fun value => (key, value)
  if identity = [] then none else some identity

/-- `_finding_status`. -/
def findingStatus (rendering : Rendering) (finding : Json) : Option String :=
  (["status", "verdict", "result"].findSome? (strippedField? rendering finding)).map
    rendering.upper

/-- A finding with its identity and its status. -/
structure Finding where
  identity : Identity
  status : String
  deriving DecidableEq

/-- The finding that a value of the kind `finding` describes. -/
def findingOf (rendering : Rendering) (value : String) : Option Finding :=
  (Json.readAll value.toList).bind fun finding =>
    (findingIdentity rendering finding).bind fun identity =>
      (findingStatus rendering finding).map fun status => ⟨identity, status⟩

/-- The findings among some atoms, with the ids of the atoms as they were given. -/
def findingsOf (rendering : Rendering) (atoms : List String) : List (String × Finding) :=
  (sortedAtoms atoms).filterMap fun atom =>
    if (splitAtom atom).1 = "finding" then
      (findingOf rendering (splitAtom atom).2).map fun finding => (atomId atom, finding)
    else none

/-! ## Contradictions -/

/-- `opposite`. -/
def opposite (status : String) : List String :=
  if status ∈ ["POTENTIAL_RISK", "CONFIRMED"] then
    ["SAFE", "NOT_A_RISK", "FALSE_POSITIVE", "REJECTED"]
  else if status ∈ ["SAFE", "NOT_A_RISK", "FALSE_POSITIVE", "REJECTED"] then
    ["POTENTIAL_RISK", "CONFIRMED"]
  else []

/-- Letters are equal for `LIKE` if they differ by their case at most. -/
def sameLetter (left right : Char) : Bool := left.toLower = right.toLower

/-- `text LIKE pattern`. -/
def like : List Char → List Char → Bool
  | [], text => text.isEmpty
  | mark :: pattern, text =>
      if mark = '%' then text.tails.any (like pattern)
      else
        match text with
        | [] => false
        | character :: rest => (mark = '_' || sameLetter mark character) && like pattern rest

/-- The pattern for a field of an identity. -/
def fieldPattern (field : String × String) : List Char :=
  '%' :: Json.encodeText true field.1 ++ ':' :: Json.encodeText false field.2 ++ ['%']

/-- The condition of the `SELECT` for an identity. -/
def isCandidate (identity : Identity) (row : EvidenceRow) : Bool :=
  row.kind = "finding" && identity.all fun field => like (fieldPattern field) row.value.toList

/-- The two ids in order. -/
def sortedPair (left right : String) : String × String :=
  if right < left then (right, left) else (left, right)

/-- A pair of ids and the reason for it. -/
structure Contradiction where
  pair : String × String
  reason : String
  deriving DecidableEq

/-- The row of another finding with the same identity and an opposite status. -/
def conflictsWith (rendering : Rendering) (id : String) (finding : Finding) (row : EvidenceRow) :
    Bool :=
  row.atomId ≠ id && (findingOf rendering row.value).any fun old =>
    old.identity = finding.identity && old.status ∈ opposite finding.status

def addConflict (conflicts : List Contradiction) (conflict : Contradiction) :
    List Contradiction :=
  if conflict.pair ∈ conflicts.map Contradiction.pair then conflicts else conflicts ++ [conflict]

/-- The conflict of a finding with a row that holds another one. -/
def conflictOf (id : String) (finding : Finding) (row : EvidenceRow) (old : Finding) :
    Contradiction where
  pair := sortedPair id row.atomId
  reason := "same finding identity with contradictory status: " ++ finding.status ++ " vs " ++
    old.status

/-- The conflict of a finding with a row, if there is one. -/
def conflict? (rendering : Rendering) (id : String) (finding : Finding) (row : EvidenceRow) :
    Option Contradiction :=
  if conflictsWith rendering id finding row = true then
    (findingOf rendering row.value).map (conflictOf id finding row)
  else none

/-- The conflicts of some findings with some rows, one for each pair. -/
def conflictsAmong (rendering : Rendering) (findings : List (String × Finding))
    (existing : List EvidenceRow) : List Contradiction :=
  (findings.flatMap fun finding =>
    existing.filterMap (conflict? rendering finding.1 finding.2)).foldl addConflict []

/-- The rows that the `SELECT`s for the identities of some findings return. -/
def candidates (findings : List (String × Finding)) (rows : List EvidenceRow) :
    List EvidenceRow :=
  (findings.map fun finding => finding.2.identity).dedup.flatMap fun identity =>
    rows.filter (isCandidate identity)

/-- `detect_contradictions`. -/
def detectContradictions (rendering : Rendering) (ledger : EvidenceLedger)
    (atoms : List String) : List Contradiction :=
  conflictsAmong rendering (findingsOf rendering atoms)
    (candidates (findingsOf rendering atoms) ledger.evidence.rows)

def ContradictionRow.seenAgain (observer : Observer) (reason : String) (row : ContradictionRow) :
    ContradictionRow :=
  { row with
    lastSeen := observer.now
    latestTaskId := observer.taskId
    latestRole := observer.role
    reason := reason }

theorem ContradictionRow.key_seenAgain (observer : Observer) (reason : String)
    (row : ContradictionRow) : (row.seenAgain observer reason).key = row.key := rfl

/-- `INSERT ... ON CONFLICT ... DO UPDATE`. -/
def upsertContradiction (observer : Observer) (ledger : EvidenceLedger)
    (contradiction : Contradiction) : EvidenceLedger :=
  { ledger with
    contradictions := ledger.contradictions.upsert
      {
        atomId := contradiction.pair.1
        otherAtomId := contradiction.pair.2
        firstSeen := observer.now
        lastSeen := observer.now
        firstTaskId := observer.taskId
        latestTaskId := observer.taskId
        latestRole := observer.role
        reason := contradiction.reason
      }
      (ContradictionRow.seenAgain observer contradiction.reason)
      (ContradictionRow.key_seenAgain observer _) }

/-- `record_contradictions`. -/
def recordContradictions (observer : Observer) (ledger : EvidenceLedger)
    (contradictions : List Contradiction) : EvidenceLedger :=
  contradictions.foldl (upsertContradiction observer) ledger

/-! ## Calls -/

/-- The arguments of `record`; a text that is left out is empty, and the atoms are those
of a set. -/
structure RecordCall where
  taskId : String
  role : String
  atoms : List String
  now : String
  deriving DecidableEq

structure RecordSummary where
  inserted : ℕ
  confirmed : ℕ
  contradictions : ℕ
  deriving DecidableEq

namespace RecordCall

def observer (call : RecordCall) : Observer where
  taskId := call.taskId
  role := if call.role = "" then "unknown" else call.role
  now := call.now

/-- The call has a task and atoms. -/
def isEffective (call : RecordCall) : Bool := call.taskId ≠ "" && call.atoms ≠ []

end RecordCall

/-- `record`. -/
def EvidenceLedger.record (rendering : Rendering) (ledger : EvidenceLedger) (call : RecordCall) :
    RecordSummary × EvidenceLedger :=
  if call.isEffective = true then
    let recording := recordAtoms ledger call.observer call.atoms
    let contradictions := detectContradictions rendering recording.ledger call.atoms
    (⟨recording.inserted, recording.confirmed, contradictions.length⟩,
      recordContradictions call.observer recording.ledger contradictions)
  else (⟨0, 0, 0⟩, ledger)

end AegisForge.Shared
