import AegisForge.Core.Checks
import AegisForge.Core.PyObject
import AegisForge.Shared.EvidenceContradictions
import AegisForge.Shared.EvidenceCounts
import AegisForge.Shared.Exceptions

/-!
# Evidence claims

`record_capability_claim`, `record_execution_receipt` and `record_outcome_verification`
write a payload as one atom, record it as an observation and answer the id of the atom as
they wrote it.  The ledger stores atoms whose values are bounded.
-/

namespace AegisForge.Shared.EvidenceClaims

open AegisForge.Core

/-! ## Observations -/

/-- A row of `evidence_observations`. -/
structure ObservationRow where
  atomId : String
  taskId : String
  role : String
  observedAt : String
  caseId : Option String
  roundId : Option String
  deriving DecidableEq

/-- The tables of the ledger, the observations in the order of their row ids. -/
structure EvidenceStore where
  ledger : EvidenceLedger
  observations : List ObservationRow

/-- A ledger that has been created. -/
def EvidenceStore.empty : EvidenceStore := ⟨.empty, []⟩

/-- `MAX_OBSERVATIONS`. -/
def maxObservations : ℕ := 5000

/-- `INSERT OR IGNORE`, whose key is the atom and the task. -/
def insertObservation (row : ObservationRow) (rows : List ObservationRow) : List ObservationRow :=
  if rows.any fun other => other.atomId = row.atomId && other.taskId = row.taskId then rows
  else rows ++ [row]

/-- `ORDER BY observed_at DESC, rowid DESC`, of which the first rows are kept. -/
def trimObservations (rows : List ObservationRow) : List ObservationRow :=
  let newest := (rows.reverse.insertionSort fun left right =>
    right.observedAt ≤ left.observedAt).take maxObservations
  rows.filter (· ∈ newest)

/-- What `record_observation` answers. -/
structure ObservationSummary where
  inserted : ℕ
  confirmed : ℕ
  contradictions : ℕ
  observations : ℕ

/-- What is the same for all calls: how values are shown, and the case and the round of a
task in the queue. -/
structure Surroundings where
  rendering : Rendering
  bindingOf : String → Option String × Option String

/-- A role that is empty is unknown. -/
def roleOf (role : String) : String := if role = "" then "unknown" else role

/-- `record_observation`. -/
def recordObservation (surroundings : Surroundings) (store : EvidenceStore)
    (taskId role atom now : String) : ObservationSummary × EvidenceStore :=
  if taskId = "" ∨ atom = "" then (⟨0, 0, 0, 0⟩, store)
  else
    let (summary, ledger) :=
      store.ledger.record surroundings.rendering ⟨taskId, roleOf role, [atom], now⟩
    let binding := surroundings.bindingOf taskId
    let row : ObservationRow :=
      ⟨atomId (normalizedText atom), taskId, roleOf role, now, binding.1, binding.2⟩
    let observations := trimObservations (insertObservation row store.observations)
    (⟨summary.inserted, summary.confirmed, summary.contradictions, observations.length⟩,
      ⟨ledger, observations⟩)

/-! ## Payloads -/

/-- The fields of a dictionary. -/
abbrev Payload : Type := List (PyKey × PyObject)

/-- `payload.get(key)`. -/
def Payload.get (payload : Payload) (key : String) : PyObject :=
  ((payload.find? fun field => field.1.isNamed key).map Prod.snd).getD .none

/-- `json.dumps` with sorted keys. -/
def jsonText? (payload : Payload) : Option String :=
  (PyObject.dict payload).tree.map fun value => String.ofList (Json.encode false value)

/-- The payload of a kind as an atom; what `json.dumps` does not take raises. -/
def atomOf (kind : String) (payload : Payload) : Except Raised String := do
  let text ← orRaise ⟨.typeError, "Object is not JSON serializable"⟩ (jsonText? payload)
  return kind ++ ":" ++ text

/-- The id of the atom of a payload, and its observation. -/
def recordPayload (surroundings : Surroundings) (store : EvidenceStore)
    (taskId role kind : String) (payload : Payload) (now : String) :
    Except Raised (String × ObservationSummary × EvidenceStore) := do
  let atom ← atomOf kind payload
  let (result, after) := recordObservation surroundings store taskId role atom now
  return (atomId atom, result, after)

/-! ## The three kinds -/

/-- What `record_capability_claim` answers. -/
structure ClaimRecord where
  evidenceId : String
  claimType : String
  status : String
  source : String
  ledgerResult : ObservationSummary

def claimStatuses : List String := ["PASS", "PASSED", "VERIFIED", "FAIL", "FAILED", "REJECTED"]

def claimPayload (claimType status : String) (details : Option PyObject) : Payload :=
  [(.text "claim_type", .text claimType), (.text "status", .text status)] ++
    (details.map fun details => (.text "details", details)).toList

/-- `record_capability_claim`, with the texts of the type and of the status. -/
def recordCapabilityClaim (surroundings : Surroundings) (store : EvidenceStore)
    (taskId role claimType status : String) (details : Option PyObject) (now : String) :
    Except Raised (ClaimRecord × EvidenceStore) := do
  let status := surroundings.rendering.upper status
  raiseUnless (status ∈ claimStatuses)
    ⟨.valueError, s!"unsupported capability evidence status: {status}"⟩
  let (id, result, after) ← recordPayload surroundings store taskId role "capability_evidence"
    (claimPayload claimType status details) now
  return (⟨id, claimType, status, role, result⟩, after)

/-- What `record_execution_receipt` answers. -/
structure ReceiptRecord where
  evidenceId : String
  receiptId : PyObject
  status : PyObject
  source : String
  ledgerResult : ObservationSummary

/-- `record_execution_receipt`, of a receipt as a dictionary. -/
def recordExecutionReceipt (surroundings : Surroundings) (store : EvidenceStore)
    (taskId role : String) (receipt : Option Payload) (now : String) :
    Except Raised (ReceiptRecord × EvidenceStore) := do
  let payload ← orRaise ⟨.valueError, "receipt_required"⟩ receipt
  let (id, result, after) ← recordPayload surroundings store taskId role "execution_receipt"
    payload now
  return (⟨id, payload.get "receipt_id", payload.get "status", role, result⟩, after)

/-- What `record_outcome_verification` answers. -/
structure OutcomeRecord where
  evidenceId : String
  outcomeId : PyObject
  status : PyObject
  verifier : PyObject
  source : String
  ledgerResult : ObservationSummary

/-- `record_outcome_verification`. -/
def recordOutcomeVerification (surroundings : Surroundings) (store : EvidenceStore)
    (taskId role : String) (outcome : Option Payload) (now : String) :
    Except Raised (OutcomeRecord × EvidenceStore) := do
  let payload ← orRaise ⟨.valueError, "outcome_required"⟩ outcome
  let (id, result, after) ← recordPayload surroundings store taskId role "outcome_verification"
    payload now
  return (⟨id, payload.get "outcome_id", payload.get "status", payload.get "verifier", role,
    result⟩, after)

/-! ## Runs -/

/-- A call of the ledger. -/
inductive Operation
  | record (call : RecordCall)
  | observation (taskId role atom now : String)
  | capabilityClaim (taskId role claimType status : String) (details : Option PyObject)
      (now : String)
  | executionReceipt (taskId role : String) (receipt : Option Payload) (now : String)
  | outcomeVerification (taskId role : String) (outcome : Option Payload) (now : String)

/-- The store after a call, which is the same one when it raised. -/
def step (surroundings : Surroundings) (store : EvidenceStore) : Operation → EvidenceStore
  | .record call =>
      { store with ledger := (store.ledger.record surroundings.rendering call).2 }
  | .observation taskId role atom now =>
      (recordObservation surroundings store taskId role atom now).2
  | .capabilityClaim taskId role claimType status details now =>
      ((recordCapabilityClaim surroundings store taskId role claimType status details
        now).toOption.map Prod.snd).getD store
  | .executionReceipt taskId role receipt now =>
      ((recordExecutionReceipt surroundings store taskId role receipt
        now).toOption.map Prod.snd).getD store
  | .outcomeVerification taskId role outcome now =>
      ((recordOutcomeVerification surroundings store taskId role outcome
        now).toOption.map Prod.snd).getD store

/-- The store after some calls. -/
def storeAfter (surroundings : Surroundings) (operations : List Operation) : EvidenceStore :=
  operations.foldl (step surroundings) .empty

/-! ## The atom of a payload -/

theorem dropWhile_eq_self {chars : List Char} {first : Char} (hfirst : chars.head? = some first)
    (hspace : isSpace first = false) : chars.dropWhile isSpace = chars := by
  cases chars with
  | nil => cases hfirst
  | cons head rest =>
      obtain rfl := Option.some.inj hfirst
      exact List.dropWhile_cons_of_neg (by simp [hspace])

/-- A text that neither begins nor ends with a space is not changed by `strip`. -/
theorem strip_eq_self {text : String} {first last : Char}
    (hfirst : text.toList.head? = some first) (hlast : text.toList.getLast? = some last)
    (hfirstSpace : isSpace first = false) (hlastSpace : isSpace last = false) :
    strip text = text := by
  rw [strip, dropWhile_eq_self hfirst hfirstSpace,
    dropWhile_eq_self (List.head?_reverse.trans hlast) hlastSpace, List.reverse_reverse,
    String.ofList_toList]

theorem getLast?_encodeFields (fields : List (String × Json)) :
    (Json.encodeFields false fields).getLast? = some '}' := by
  induction fields with
  | nil => rfl
  | cons field rest ih =>
      obtain ⟨key, value⟩ := field
      rw [Json.encodeFields, List.getLast?_append, ih, Option.some_or]

/-- The text of a dictionary ends with its brace. -/
theorem getLast?_jsonText {payload : Payload} {text : String} (htext : jsonText? payload = some text) :
    text.toList.getLast? = some '}' := by
  obtain ⟨value, hvalue, rfl⟩ := Option.map_eq_some_iff.mp htext
  have hobject := PyObject.isObject_of_tree rfl hvalue
  rw [String.toList_ofList]
  cases value with
  | object fields =>
      rcases fields with _ | ⟨⟨key, value⟩, rest⟩
      · rfl
      · rw [Json.encode, List.getLast?_append, getLast?_encodeFields, Option.some_or]
  | _ => cases hobject

/-- A kind of atoms. -/
structure IsKind (kind : String) : Prop where
  noColon : ':' ∉ kind.toList
  noSpace : ∃ first, kind.toList.head? = some first ∧ isSpace first = false

theorem isKind_capabilityEvidence : IsKind "capability_evidence" :=
  ⟨by decide, 'c', by decide, by decide⟩

theorem isKind_executionReceipt : IsKind "execution_receipt" :=
  ⟨by decide, 'e', by decide, by decide⟩

theorem isKind_outcomeVerification : IsKind "outcome_verification" :=
  ⟨by decide, 'o', by decide, by decide⟩

section Atoms

variable {kind text : String} {payload : Payload}

theorem strip_atom (hkind : IsKind kind) (htext : jsonText? payload = some text) :
    strip (kind ++ ":" ++ text) = kind ++ ":" ++ text := by
  obtain ⟨first, hfirst, hspace⟩ := hkind.noSpace
  have hlast := getLast?_jsonText htext
  refine @strip_eq_self _ first '}' ?_ ?_ hspace (by decide)
  · rw [String.toList_append, String.toList_append, List.append_assoc, List.head?_append, hfirst,
      Option.some_or]
  · rw [String.toList_append, List.getLast?_append, hlast, Option.some_or]

/-- The atom as it is stored: its value is cut when it is too long. -/
theorem normalizedText_atom (hkind : IsKind kind) (htext : jsonText? payload = some text) :
    normalizedText (kind ++ ":" ++ text) =
      if maxAtomValueBytes < (utf8 text.toList).length then
        kind ++ ":" ++ String.ofList (takeBytes maxAtomValueBytes text.toList)
      else kind ++ ":" ++ text := by
  rw [normalizedText, strip_atom hkind htext, splitAtom_append hkind.noColon]

theorem storedAtom_atom (hkind : IsKind kind) (htext : jsonText? payload = some text) :
    ∃ stored, storedAtom (kind ++ ":" ++ text) = some stored ∧
      stored.atomId = atomId (normalizedText (kind ++ ":" ++ text)) := by
  cases hstored : storedAtom (kind ++ ":" ++ text) with
  | some stored => exact ⟨stored, rfl, (splitAtom_normalizedText hstored).1⟩
  | none =>
      have hempty : strip (kind ++ ":" ++ text) = "" := by
        by_contra hfilled
        rw [storedAtom, if_neg hfilled] at hstored
        dsimp only at hstored
        split at hstored <;> cases hstored
      rw [strip_atom hkind htext] at hempty
      have hchars := congrArg String.toList hempty
      simp at hchars

end Atoms

/-! ## The rows of the ledger -/

section Stores

variable {ledger : EvidenceLedger} {observations : List (String × String × String)}

theorem isSome_lookup_iff (hcounted : Counted ledger observations) (id : String) :
    (ledger.evidence.lookup id).isSome = true ↔ ∃ observation ∈ observations, observation.1 = id := by
  rw [Option.isSome_iff_ne_none, ne_eq, hcounted.lookup_evidence_eq_none_iff, underAtom,
    List.reverse_eq_nil_iff, List.map_eq_nil_iff, List.filter_eq_nil_iff]
  simp

/-- A call leaves the rows that were there and adds those of its observations. -/
theorem isSome_lookup_record_iff (hcounted : Counted ledger observations) (rendering : Rendering)
    (call : RecordCall) (id : String) :
    ((ledger.record rendering call).2.evidence.lookup id).isSome = true ↔
      (ledger.evidence.lookup id).isSome = true ∨
        ∃ observation ∈ call.observations, observation.1 = id := by
  rw [isSome_lookup_iff (hcounted.record rendering call), isSome_lookup_iff hcounted]
  simp only [List.mem_append, or_and_right, exists_or]

/-- A store whose ledger is that of some observations. -/
def IsCounted (store : EvidenceStore) : Prop :=
  ∃ observations, Counted store.ledger observations

theorem IsCounted.record {store : EvidenceStore} (hcounted : IsCounted store)
    (rendering : Rendering) (call : RecordCall) (rows : List ObservationRow) :
    IsCounted ⟨(store.ledger.record rendering call).2, rows⟩ := by
  obtain ⟨observations, hobservations⟩ := hcounted
  exact ⟨_, hobservations.record rendering call⟩

variable {surroundings : Surroundings} {store after : EvidenceStore}

theorem ledger_recordObservation (taskId role atom now : String) :
    (recordObservation surroundings store taskId role atom now).2.ledger =
      if taskId = "" ∨ atom = "" then store.ledger
      else (store.ledger.record surroundings.rendering ⟨taskId, roleOf role, [atom], now⟩).2 := by
  rw [recordObservation]
  split <;> rfl

theorem IsCounted.recordObservation (hcounted : IsCounted store) (taskId role atom now : String) :
    IsCounted (recordObservation surroundings store taskId role atom now).2 := by
  rw [IsCounted, ledger_recordObservation]
  split
  · exact hcounted
  · exact hcounted.record _ _ []

/-- A payload that was recorded has a text, and its atom was observed. -/
theorem recordPayload_eq_ok {taskId role kind id now : String} {payload : Payload}
    {result : ObservationSummary}
    (hrecorded : recordPayload surroundings store taskId role kind payload now =
      .ok (id, result, after)) :
    ∃ text, jsonText? payload = some text ∧ id = atomId (kind ++ ":" ++ text) ∧
      after = (recordObservation surroundings store taskId role (kind ++ ":" ++ text) now).2 := by
  obtain ⟨atom, hatom, hanswer⟩ := bind_eq_ok hrecorded
  obtain ⟨text, htext, hwritten⟩ := orRaise_bind_eq_ok hatom
  have hatomText : kind ++ ":" ++ text = atom := Except.ok.inj hwritten
  have hanswered := Except.ok.inj hanswer
  refine ⟨text, htext, ?_, ?_⟩
  · rw [hatomText]
    exact (congrArg Prod.fst hanswered).symm
  · rw [hatomText]
    exact (congrArg (fun answer => answer.2.2) hanswered).symm

theorem IsCounted.recordPayload (hcounted : IsCounted store) {taskId role kind id : String}
    {payload : Payload} {now : String} {result : ObservationSummary}
    (hrecorded : recordPayload surroundings store taskId role kind payload now =
      .ok (id, result, after)) : IsCounted after := by
  obtain ⟨text, -, -, rfl⟩ := recordPayload_eq_ok hrecorded
  exact hcounted.recordObservation _ _ _ _

theorem recordCapabilityClaim_eq_ok {taskId role claimType status now : String}
    {details : Option PyObject} {answer : ClaimRecord}
    (hrecorded : recordCapabilityClaim surroundings store taskId role claimType status details
      now = .ok (answer, after)) :
    recordPayload surroundings store taskId role "capability_evidence"
      (claimPayload claimType (surroundings.rendering.upper status) details) now =
        .ok (answer.evidenceId, answer.ledgerResult, after) := by
  obtain ⟨-, hpayload⟩ := raiseUnless_bind_eq_ok hrecorded
  obtain ⟨⟨id, result, last⟩, hrecord, hanswer⟩ := bind_eq_ok hpayload
  obtain ⟨rfl, rfl⟩ := Prod.mk.inj (Except.ok.inj hanswer)
  exact hrecord

theorem recordExecutionReceipt_eq_ok {taskId role now : String} {receipt : Option Payload}
    {answer : ReceiptRecord}
    (hrecorded : recordExecutionReceipt surroundings store taskId role receipt now =
      .ok (answer, after)) :
    ∃ payload, receipt = some payload ∧
      recordPayload surroundings store taskId role "execution_receipt" payload now =
        .ok (answer.evidenceId, answer.ledgerResult, after) := by
  obtain ⟨payload, hpayload, hrest⟩ := orRaise_bind_eq_ok hrecorded
  obtain ⟨⟨id, result, last⟩, hrecord, hanswer⟩ := bind_eq_ok hrest
  obtain ⟨rfl, rfl⟩ := Prod.mk.inj (Except.ok.inj hanswer)
  exact ⟨payload, hpayload, hrecord⟩

theorem recordOutcomeVerification_eq_ok {taskId role now : String} {outcome : Option Payload}
    {answer : OutcomeRecord}
    (hrecorded : recordOutcomeVerification surroundings store taskId role outcome now =
      .ok (answer, after)) :
    ∃ payload, outcome = some payload ∧
      recordPayload surroundings store taskId role "outcome_verification" payload now =
        .ok (answer.evidenceId, answer.ledgerResult, after) := by
  obtain ⟨payload, hpayload, hrest⟩ := orRaise_bind_eq_ok hrecorded
  obtain ⟨⟨id, result, last⟩, hrecord, hanswer⟩ := bind_eq_ok hrest
  obtain ⟨rfl, rfl⟩ := Prod.mk.inj (Except.ok.inj hanswer)
  exact ⟨payload, hpayload, hrecord⟩

/-- A step that raised left the store as it was. -/
theorem IsCounted.getD (hcounted : IsCounted store) {Answer : Type}
    {computation : Except Raised (Answer × EvidenceStore)}
    (hanswer : ∀ answer after, computation = .ok (answer, after) → IsCounted after) :
    IsCounted ((computation.toOption.map Prod.snd).getD store) := by
  cases computation with
  | error error => exact hcounted
  | ok value => exact hanswer value.1 value.2 rfl

theorem IsCounted.step (hcounted : IsCounted store) (operation : Operation) :
    IsCounted (step surroundings store operation) := by
  cases operation with
  | record call => exact hcounted.record _ call _
  | observation taskId role atom now => exact hcounted.recordObservation taskId role atom now
  | capabilityClaim taskId role claimType status details now =>
      exact hcounted.getD fun _ _ hrecorded =>
        hcounted.recordPayload (recordCapabilityClaim_eq_ok hrecorded)
  | executionReceipt taskId role receipt now =>
      refine hcounted.getD fun _ _ hrecorded => ?_
      obtain ⟨payload, -, hpayload⟩ := recordExecutionReceipt_eq_ok hrecorded
      exact hcounted.recordPayload hpayload
  | outcomeVerification taskId role outcome now =>
      refine hcounted.getD fun _ _ hrecorded => ?_
      obtain ⟨payload, -, hpayload⟩ := recordOutcomeVerification_eq_ok hrecorded
      exact hcounted.recordPayload hpayload

/-- Every store that calls lead to is one of observations. -/
theorem isCounted_storeAfter (surroundings : Surroundings) (operations : List Operation) :
    IsCounted (storeAfter surroundings operations) := by
  induction operations using List.reverseRecOn with
  | nil => exact ⟨[], counted_empty⟩
  | append_singleton operations operation ih =>
      rw [storeAfter, List.foldl_append]
      exact ih.step operation

/-! ## Whether an id resolves -/

/-- The id is that of a row, so the ledger knows the quality of its atom. -/
def Resolves (store : EvidenceStore) (id : String) : Prop :=
  (∃ row ∈ store.ledger.evidence.rows, row.atomId = id) ∧
    (store.ledger.evidenceQuality id).isSome = true

/-- The id of the atom of a payload is that of a row already, or the task has an id and
the payload is not too long to be stored as it is (or the atom that is cut has the same
hash). -/
def Storable (store : EvidenceStore) (taskId kind : String) (payload : Payload) : Prop :=
  ∀ text, jsonText? payload = some text →
    (∃ row ∈ store.ledger.evidence.rows, row.atomId = atomId (kind ++ ":" ++ text)) ∨
      taskId ≠ "" ∧ ((utf8 text.toList).length ≤ maxAtomValueBytes ∨
        atomId (kind ++ ":" ++ String.ofList (takeBytes maxAtomValueBytes text.toList)) =
          atomId (kind ++ ":" ++ text))

theorem isSome_lookup_iff_mem {id : String} :
    (store.ledger.evidence.lookup id).isSome = true ↔
      ∃ row ∈ store.ledger.evidence.rows, row.atomId = id := by
  rw [Option.isSome_iff_ne_none, ne_eq, Table.lookup_eq_none_iff, not_not, List.mem_map]

theorem resolves_iff {id : String} :
    Resolves store id ↔ (store.ledger.evidence.lookup id).isSome = true := by
  rw [Resolves, ← isSome_lookup_iff_mem, EvidenceLedger.evidenceQuality, Option.isSome_map,
    and_self]

/-- The observation of the atom of a payload. -/
theorem observations_atom (role now : String) {kind text taskId : String} {payload : Payload}
    (hkind : IsKind kind) (htext : jsonText? payload = some text) (htask : taskId ≠ "") :
    ∃ observation, RecordCall.observations ⟨taskId, role, [kind ++ ":" ++ text], now⟩ =
        [observation] ∧
      observation.1 = atomId (normalizedText (kind ++ ":" ++ text)) := by
  obtain ⟨stored, hstored, hid⟩ := storedAtom_atom hkind htext
  have hsorted : sortedAtoms [kind ++ ":" ++ text] = [kind ++ ":" ++ text] := rfl
  have heffective : RecordCall.isEffective ⟨taskId, role, [kind ++ ":" ++ text], now⟩ = true := by
    simp [RecordCall.isEffective, htask]
  rw [RecordCall.observations, if_pos heffective, hsorted]
  simp only [List.filterMap_cons, hstored, List.filterMap_nil, List.map_cons, List.map_nil]
  exact ⟨_, rfl, hid⟩

theorem recordPayload_resolves_iff (hcounted : IsCounted store) {taskId role kind id now : String}
    {payload : Payload} {result : ObservationSummary} (hkind : IsKind kind)
    (hrecorded : recordPayload surroundings store taskId role kind payload now =
      .ok (id, result, after)) :
    Resolves after id ↔ Storable store taskId kind payload := by
  obtain ⟨text, htext, rfl, rfl⟩ := recordPayload_eq_ok hrecorded
  have hstorable : Storable store taskId kind payload ↔
      (store.ledger.evidence.lookup (atomId (kind ++ ":" ++ text))).isSome = true ∨
        taskId ≠ "" ∧ atomId (normalizedText (kind ++ ":" ++ text)) =
          atomId (kind ++ ":" ++ text) := by
    have hfits : atomId (normalizedText (kind ++ ":" ++ text)) = atomId (kind ++ ":" ++ text) ↔
        (utf8 text.toList).length ≤ maxAtomValueBytes ∨
          atomId (kind ++ ":" ++ String.ofList (takeBytes maxAtomValueBytes text.toList)) =
            atomId (kind ++ ":" ++ text) := by
      rw [normalizedText_atom hkind htext]
      split
      case isTrue hlong => simp [Nat.not_le.mpr hlong]
      case isFalse hshort => simp [Nat.not_lt.mp hshort]
    rw [isSome_lookup_iff_mem, hfits, Storable, htext]
    simp only [Option.some.injEq, forall_eq']
  obtain ⟨observations, hobservations⟩ := hcounted
  rw [resolves_iff, hstorable, ledger_recordObservation]
  have hfilled : kind ++ ":" ++ text ≠ "" := by
    intro hempty
    have hchars := congrArg String.toList hempty
    simp at hchars
  by_cases htask : taskId = ""
  · simp [htask]
  · rw [if_neg (by simp [htask, hfilled]), isSome_lookup_record_iff hobservations]
    obtain ⟨observation, hobserved, hid⟩ := observations_atom (roleOf role) now hkind htext htask
    rw [hobserved]
    simp [hid, htask]

/-- In every store that calls lead to, the id that a call of the three answers resolves
exactly if the payload that it writes can be stored. -/
theorem evidenceIds_resolve_iff (surroundings : Surroundings) (operations : List Operation)
    {store : EvidenceStore} (hstore : store = storeAfter surroundings operations) :
    (∀ taskId role claimType status details now answer after,
      recordCapabilityClaim surroundings store taskId role claimType status details now =
          .ok (answer, after) →
        (Resolves after answer.evidenceId ↔ Storable store taskId "capability_evidence"
          (claimPayload claimType (surroundings.rendering.upper status) details))) ∧
    (∀ taskId role payload now answer after,
      recordExecutionReceipt surroundings store taskId role (some payload) now =
          .ok (answer, after) →
        (Resolves after answer.evidenceId ↔ Storable store taskId "execution_receipt" payload)) ∧
    ∀ taskId role payload now answer after,
      recordOutcomeVerification surroundings store taskId role (some payload) now =
          .ok (answer, after) →
        (Resolves after answer.evidenceId ↔
          Storable store taskId "outcome_verification" payload) := by
  subst hstore
  have hcounted := isCounted_storeAfter surroundings operations
  refine ⟨?_, ?_, ?_⟩
  · intro taskId role claimType status details now answer after hrecorded
    exact recordPayload_resolves_iff hcounted isKind_capabilityEvidence
      (recordCapabilityClaim_eq_ok hrecorded)
  · intro taskId role payload now answer after hrecorded
    obtain ⟨_, ⟨⟩, hpayload⟩ := recordExecutionReceipt_eq_ok hrecorded
    exact recordPayload_resolves_iff hcounted isKind_executionReceipt hpayload
  · intro taskId role payload now answer after hrecorded
    obtain ⟨_, ⟨⟩, hpayload⟩ := recordOutcomeVerification_eq_ok hrecorded
    exact recordPayload_resolves_iff hcounted isKind_outcomeVerification hpayload

end Stores

/-! ## A task with an id, and one without -/

namespace Sample

def surroundings : Surroundings where
  rendering := asciiRendering
  bindingOf := fun _ => (none, none)

def outcome : Payload :=
  [(.text "outcome_id", .text "outcome-1"), (.text "status", .text "VERIFIED")]

/-- What is answered for the outcome in a new ledger. -/
def recorded (taskId : String) : Except Raised (OutcomeRecord × EvidenceStore) :=
  recordOutcomeVerification surroundings .empty taskId "verifier" (some outcome) "2024-01-01"

theorem recorded_eq_ok (taskId : String) :
    ∃ answer after, recorded taskId = .ok (answer, after) := by
  have htext : (jsonText? outcome).isSome = true := by decide +kernel
  obtain ⟨text, htext⟩ := Option.isSome_iff_exists.mp htext
  have hatom : atomOf "outcome_verification" outcome = .ok ("outcome_verification" ++ ":" ++ text) :=
    orRaise_bind_eq_ok_iff.mpr ⟨text, htext, rfl⟩
  exact ⟨_, _, orRaise_bind_eq_ok_iff.mpr ⟨outcome, rfl, bind_eq_ok_iff.mpr
    ⟨_, bind_eq_ok_iff.mpr ⟨_, hatom, rfl⟩, rfl⟩⟩⟩

end Sample

/-- The outcome of a task resolves. -/
theorem evidenceIds_resolve_outcome :
    ∃ answer after, Sample.recorded "task-1" = .ok (answer, after) ∧
      Resolves after answer.evidenceId := by
  obtain ⟨answer, after, hrecorded⟩ := Sample.recorded_eq_ok "task-1"
  refine ⟨answer, after, hrecorded, ?_⟩
  have hresolves := (evidenceIds_resolve_iff Sample.surroundings [] rfl).2.2 "task-1" "verifier"
    Sample.outcome "2024-01-01" answer after hrecorded
  refine hresolves.mpr fun text htext => Or.inr ⟨by decide, Or.inl ?_⟩
  have hshort : (jsonText? Sample.outcome).all
      (fun text => (utf8 text.toList).length ≤ maxAtomValueBytes) = true := by
    decide +kernel
  rw [htext] at hshort
  exact of_decide_eq_true hshort

/-- The outcome of a task without an id is not recorded, and an id is answered for it. -/
theorem not_resolves_withoutTask :
    ¬∀ answer after, Sample.recorded "" = .ok (answer, after) →
      Resolves after answer.evidenceId := by
  intro hresolves
  obtain ⟨answer, after, hrecorded⟩ := Sample.recorded_eq_ok ""
  obtain ⟨payload, -, hpayload⟩ := recordOutcomeVerification_eq_ok hrecorded
  obtain ⟨text, -, -, rfl⟩ := recordPayload_eq_ok hpayload
  obtain ⟨⟨row, hrow, -⟩, -⟩ := hresolves answer _ hrecorded
  rw [ledger_recordObservation] at hrow
  cases hrow

end AegisForge.Shared.EvidenceClaims
