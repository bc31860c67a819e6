import Mathlib.Data.List.Induction
import AegisForge.Core.Tally
import AegisForge.Shared.EvidenceLedger

/-!
# Counts of the evidence ledger

The ledger counts the changes of the last task of each role.  It counts every task and
role of an atom once exactly if no task comes back after another task of its role.
-/

namespace AegisForge.Shared

open AegisForge.Core AegisForge.Core.Tally

/-! ## What was recorded -/

/-- The atoms that a call stores, with the role and the task. -/
def RecordCall.observations (call : RecordCall) : List (String × String × String) :=
  if call.isEffective = true then
    ((sortedAtoms call.atoms).filterMap storedAtom).map fun atom =>
      (atom.atomId, call.observer.role, call.taskId)
  else []

/-- The roles and tasks among some observations under which an atom stands, the newest
first. -/
def underAtom (observations : List (String × String × String)) (id : String) :
    List (String × String) :=
  (((observations.filter fun observation => observation.1 = id).map Prod.snd)).reverse

/-- The roles and tasks under which some calls recorded an atom. -/
def recordedUnder (calls : List RecordCall) (id : String) : List (String × String) :=
  underAtom (calls.flatMap RecordCall.observations) id

/-- The ledger after some calls. -/
def recordAll (rendering : Rendering) (calls : List RecordCall) : EvidenceLedger :=
  calls.foldl (fun ledger call => (ledger.record rendering call).2) .empty

/-- The confirmations and the independent roles of an atom. -/
def EvidenceLedger.counts (ledger : EvidenceLedger) (id : String) : ℕ × ℕ :=
  ((ledger.evidence.lookup id).map fun row =>
    (row.confirmationCount, row.independentRoleCount)).getD (0, 0)

theorem underAtom_append (earlier later : List (String × String × String)) (id : String) :
    underAtom (earlier ++ later) id = underAtom later id ++ underAtom earlier id := by
  simp [underAtom]

theorem recordedUnder_append (earlier later : List RecordCall) (id : String) :
    recordedUnder (earlier ++ later) id = recordedUnder later id ++ recordedUnder earlier id := by
  rw [recordedUnder, List.flatMap_append, underAtom_append]
  rfl

/-! ## The tables during a run -/

/-- The tables say of each atom how often its observations changed, and of each role its
last task. -/
structure Counted (ledger : EvidenceLedger) (observations : List (String × String × String)) :
    Prop where
  evidence : ∀ id, (ledger.evidence.lookup id).map (fun row =>
      (row.confirmationCount, row.independentRoleCount)) =
    if underAtom observations id = [] then none
    else some (changes (underAtom observations id), groups (underAtom observations id))
  provenance : ∀ id role, (ledger.provenance.lookup (id, role)).map ProvenanceRow.latestTaskId =
    latest (underAtom observations id) role

variable {ledger : EvidenceLedger} {observations : List (String × String × String)}
variable {observer : Observer} {atom : StoredAtom} {id : String}

theorem underAtom_concat_self (observation : String × String) :
    underAtom (observations ++ [(id, observation)]) id = observation :: underAtom observations id := by
  simp [underAtom]

theorem underAtom_concat_of_ne {other : String} {observation : String × String} (hne : other ≠ id) :
    underAtom (observations ++ [(other, observation)]) id = underAtom observations id := by
  simp [underAtom, hne]

theorem EvidenceLedger.lookup_evidence_observe (ledger : EvidenceLedger) (observer : Observer)
    (atom : StoredAtom) (id : String) :
    (ledger.observe observer atom).evidence.lookup id =
      if atom.atomId = id then
        some ((ledger.evidence.lookup id).elim
          ⟨atom.atomId, atom.kind, atom.value, observer.now, observer.now, 1, 1, observer.taskId,
            observer.role⟩
          (EvidenceRow.confirmed observer
            (decide (ledger.provenance.lookup (atom.atomId, observer.role) = none))))
      else ledger.evidence.lookup id :=
  Table.lookup_upsert _ _ _

theorem EvidenceLedger.lookup_provenance_observe (ledger : EvidenceLedger) (observer : Observer)
    (atom : StoredAtom) (id role : String) :
    (ledger.observe observer atom).provenance.lookup (id, role) =
      if (atom.atomId, observer.role) = (id, role) then
        some ((ledger.provenance.lookup (id, role)).elim
          ⟨atom.atomId, observer.role, observer.taskId, observer.taskId, observer.now, observer.now,
            1⟩
          (ProvenanceRow.observed observer))
      else ledger.provenance.lookup (id, role) :=
  Table.lookup_upsert _ _ _

theorem counted_empty : Counted .empty [] where
  evidence := fun _ => rfl
  provenance := fun _ _ => rfl

namespace Counted

theorem isRepeated_iff (hcounted : Counted ledger observations) :
    ledger.isRepeated observer atom = true ↔
      latest (underAtom observations atom.atomId) observer.role = some observer.taskId := by
  rw [← hcounted.provenance, EvidenceLedger.isRepeated, Option.any_eq_true,
    Option.map_eq_some_iff]
  simp

theorem lookup_provenance_eq_none_iff (hcounted : Counted ledger observations) {role : String} :
    ledger.provenance.lookup (id, role) = none ↔ latest (underAtom observations id) role = none := by
  rw [← hcounted.provenance, Option.map_eq_none_iff]

theorem lookup_evidence_eq_none_iff (hcounted : Counted ledger observations) :
    ledger.evidence.lookup id = none ↔ underAtom observations id = [] := by
  have hevidence := hcounted.evidence id
  constructor
  · intro hnone
    by_contra hsome
    rw [hnone, if_neg hsome] at hevidence
    cases hevidence
  · intro hnil
    rw [if_pos hnil, Option.map_eq_none_iff] at hevidence
    exact hevidence

/-- What the provenance says after an observation, of which only its role changes. -/
theorem latest_concat (observations : List (String × String × String)) (observer : Observer)
    (atom : StoredAtom) (id role : String) :
    latest (underAtom (observations ++ [(atom.atomId, observer.role, observer.taskId)]) id) role =
      if atom.atomId = id ∧ observer.role = role then some observer.taskId
      else latest (underAtom observations id) role := by
  by_cases hid : atom.atomId = id
  · subst hid
    rw [underAtom_concat_self]
    by_cases hrole : observer.role = role
    · subst hrole
      rw [if_pos ⟨rfl, rfl⟩]
      simp [latest]
    · rw [if_neg fun hboth => hrole hboth.2, latest, List.find?_cons_of_neg (by simpa using hrole),
        latest]
  · rw [underAtom_concat_of_ne hid, if_neg fun hboth => hid hboth.1]

/-- An observation that repeats the last one of its role changes no count. -/
theorem repeated (hcounted : Counted ledger observations)
    (hlatest : latest (underAtom observations atom.atomId) observer.role = some observer.taskId) :
    Counted ledger (observations ++ [(atom.atomId, observer.role, observer.taskId)]) where
  evidence := by
    intro id
    by_cases hid : atom.atomId = id
    · subst hid
      have hnonempty : underAtom observations atom.atomId ≠ [] := by
        intro hnil
        rw [hnil] at hlatest
        cases hlatest
      rw [underAtom_concat_self, if_neg (List.cons_ne_nil _ _), hcounted.evidence,
        if_neg hnonempty, changes, if_pos hlatest, groups_cons, if_neg (by simp [hlatest])]
    · rw [underAtom_concat_of_ne hid]
      exact hcounted.evidence id
  provenance := by
    intro id role
    rw [latest_concat, hcounted.provenance]
    split
    case isTrue hboth =>
      obtain ⟨rfl, rfl⟩ := hboth
      exact hlatest
    case isFalse => rfl

/-- An observation by another task than the last one of its role counts once more. -/
theorem observe (hcounted : Counted ledger observations)
    (hlatest : latest (underAtom observations atom.atomId) observer.role ≠ some observer.taskId) :
    Counted (ledger.observe observer atom)
      (observations ++ [(atom.atomId, observer.role, observer.taskId)]) where
  evidence := by
    intro id
    rw [EvidenceLedger.lookup_evidence_observe]
    by_cases hid : atom.atomId = id
    · subst hid
      have hevidence := hcounted.evidence atom.atomId
      rw [if_pos rfl, underAtom_concat_self, if_neg (List.cons_ne_nil _ _), changes,
        if_neg hlatest, groups_cons]
      cases hlookup : ledger.evidence.lookup atom.atomId with
      | none =>
          have hnil := hcounted.lookup_evidence_eq_none_iff.mp hlookup
          rw [hnil]
          rfl
      | some row =>
          have hnonempty : underAtom observations atom.atomId ≠ [] := fun hnil =>
            Option.some_ne_none row
              (hlookup ▸ hcounted.lookup_evidence_eq_none_iff.mpr hnil)
          rw [hlookup, if_neg hnonempty, Option.map_some, Option.some.injEq,
            Prod.mk.injEq] at hevidence
          obtain ⟨hcount, hroles⟩ := hevidence
          have hnew : decide (ledger.provenance.lookup (atom.atomId, observer.role) = none) =
              decide (latest (underAtom observations atom.atomId) observer.role = none) :=
            decide_eq_decide.mpr hcounted.lookup_provenance_eq_none_iff
          rw [Option.elim_some, Option.map_some, EvidenceRow.confirmed, hcount, hroles, hnew]
          by_cases hrole : latest (underAtom observations atom.atomId) observer.role = none <;>
            simp [hrole]
    · rw [if_neg hid, underAtom_concat_of_ne hid]
      exact hcounted.evidence id
  provenance := by
    intro id role
    rw [latest_concat, EvidenceLedger.lookup_provenance_observe]
    by_cases hboth : atom.atomId = id ∧ observer.role = role
    · obtain ⟨rfl, rfl⟩ := hboth
      rw [if_pos rfl, if_pos ⟨rfl, rfl⟩]
      cases ledger.provenance.lookup (atom.atomId, observer.role) <;> rfl
    · have hkey : (atom.atomId, observer.role) ≠ (id, role) := fun heq =>
        hboth (Prod.mk.injEq _ _ _ _ ▸ heq)
      rw [if_neg hboth, if_neg hkey]
      exact hcounted.provenance id role

/-- One turn of the loop over the atoms. -/
theorem recordAtom {recording : Recording} (hcounted : Counted recording.ledger observations)
    (observer : Observer) (raw : String) :
    Counted (Shared.recordAtom observer recording raw).ledger
      (observations ++ (storedAtom raw).toList.map fun atom =>
        (atom.atomId, observer.role, observer.taskId)) := by
  cases hstored : storedAtom raw with
  | none =>
      have hsame : Shared.recordAtom observer recording raw = recording := by
        rw [Shared.recordAtom, hstored]
      rw [hsame, Option.toList_none, List.map_nil, List.append_nil]
      exact hcounted
  | some atom =>
      rw [Option.toList_some, List.map_singleton, Shared.recordAtom, hstored]
      dsimp only
      split
      case isTrue hrepeated => exact hcounted.repeated (hcounted.isRepeated_iff.mp hrepeated)
      case isFalse hnew =>
        exact hcounted.observe fun hlatest => hnew (hcounted.isRepeated_iff.mpr hlatest)

theorem foldl_recordAtom {recording : Recording} (hcounted : Counted recording.ledger observations)
    (atoms : List String) :
    Counted (atoms.foldl (Shared.recordAtom observer) recording).ledger
      (observations ++ (atoms.filterMap storedAtom).map fun atom =>
        (atom.atomId, observer.role, observer.taskId)) := by
  induction atoms generalizing recording observations with
  | nil =>
      rw [List.filterMap_nil, List.map_nil, List.append_nil]
      exact hcounted
  | cons raw rest ih =>
      have hrest := ih (hcounted.recordAtom observer raw)
      rw [List.append_assoc, ← List.map_append] at hrest
      have hstored : (raw :: rest).filterMap storedAtom =
          (storedAtom raw).toList ++ rest.filterMap storedAtom := by
        cases hraw : storedAtom raw <;> simp [hraw]
      rw [hstored]
      exact hrest

theorem recordContradictions (hcounted : Counted ledger observations)
    (contradictions : List Contradiction) :
    Counted (Shared.recordContradictions observer ledger contradictions) observations := by
  rw [Shared.recordContradictions]
  induction contradictions generalizing ledger with
  | nil => exact hcounted
  | cons contradiction rest ih =>
      have hnext : Counted (upsertContradiction observer ledger contradiction) observations :=
        ⟨hcounted.evidence, hcounted.provenance⟩
      exact ih hnext

theorem record (hcounted : Counted ledger observations) (rendering : Rendering)
    (call : RecordCall) :
    Counted (ledger.record rendering call).2 (observations ++ call.observations) := by
  rw [EvidenceLedger.record, RecordCall.observations]
  split
  case isFalse =>
    rw [List.append_nil]
    exact hcounted
  case isTrue =>
    have hatoms : Counted (recordAtoms ledger call.observer call.atoms).ledger _ :=
      hcounted.foldl_recordAtom (sortedAtoms call.atoms)
    exact hatoms.recordContradictions _

end Counted

/-- The tables after some calls. -/
theorem counted_recordAll (rendering : Rendering) (calls : List RecordCall) :
    Counted (recordAll rendering calls) (calls.flatMap RecordCall.observations) := by
  induction calls using List.reverseRecOn with
  | nil => exact counted_empty
  | append_singleton calls call ih =>
      rw [recordAll, List.foldl_append, List.flatMap_append, List.flatMap_singleton]
      exact ih.record rendering call

theorem counts_recordAll (rendering : Rendering) (calls : List RecordCall) (id : String) :
    (recordAll rendering calls).counts id =
      (changes (recordedUnder calls id), groups (recordedUnder calls id)) := by
  rw [EvidenceLedger.counts, (counted_recordAll rendering calls).evidence, recordedUnder]
  split
  case isTrue hnil =>
    rw [hnil]
    rfl
  case isFalse => rfl

/-! ## Counting once -/

/-- Every atom is counted once for each role and task and once for each role, and a call
that records again what was recorded before changes no count. -/
def CountsOnce (rendering : Rendering) (calls : List RecordCall) : Prop :=
  (∀ id, (recordAll rendering calls).counts id =
    (items (recordedUnder calls id), groups (recordedUnder calls id))) ∧
  ∀ earlier call later, calls = earlier ++ call :: later → ∀ id,
    (∀ observation ∈ recordedUnder [call] id, observation ∈ recordedUnder earlier id) →
      (recordAll rendering (earlier ++ [call])).counts id = (recordAll rendering earlier).counts id

/-- The ledger counts each observation once exactly if no task is recorded for an atom
again after another task of its role. -/
theorem countsOnce_iff (rendering : Rendering) (calls : List RecordCall) :
    CountsOnce rendering calls ↔ ∀ id, NeverReturns (recordedUnder calls id) := by
  constructor
  · rintro ⟨hcounts, -⟩ id
    have hid := hcounts id
    rw [counts_recordAll, Prod.mk.injEq] at hid
    exact changes_eq_items_iff.mp hid.1
  · intro hnever
    have honce : ∀ id, (recordAll rendering calls).counts id =
        (items (recordedUnder calls id), groups (recordedUnder calls id)) := by
      intro id
      rw [counts_recordAll, changes_eq_items_iff.mpr (hnever id)]
    refine ⟨honce, ?_⟩
    rintro earlier call later rfl id hrepeated
    have hlater := hnever id
    rw [List.append_cons, recordedUnder_append] at hlater
    have hboth := hlater.of_append
    have hearlier : NeverReturns (recordedUnder earlier id) := by
      rw [recordedUnder_append] at hboth
      exact hboth.of_append
    rw [counts_recordAll, counts_recordAll, changes_eq_items_iff.mpr hboth,
      changes_eq_items_iff.mpr hearlier, recordedUnder_append, items_append hrepeated,
      groups_append hrepeated]

/-! ## A task that comes back -/

/-- `str.upper` on texts of ASCII letters, and no text for other values. -/
def asciiRendering : Rendering where
  shown := fun _ => ""
  upper := fun text => String.ofList (text.toList.map Char.toUpper)

def issueCall (taskId : String) : RecordCall where
  taskId := taskId
  role := "researcher"
  atoms := ["finding:issue-1"]
  now := "2026-01-01T00:00:00+00:00"

/-- The first task is revisited after the second one. -/
def returningCalls : List RecordCall := [issueCall "task-1", issueCall "task-2", issueCall "task-1"]

theorem storedAtom_issue :
    storedAtom "finding:issue-1" = some ⟨atomId "finding:issue-1", "finding", "issue-1"⟩ := by
  have hstrip : strip "finding:issue-1" = "finding:issue-1" := by decide
  have hsplit : splitAtom "finding:issue-1" = ("finding", "issue-1") := by decide
  have hlength : ¬maxAtomValueBytes < (utf8 "issue-1".toList).length := by decide
  rw [storedAtom, hstrip, if_neg (by decide), hsplit]
  exact if_neg hlength

theorem observations_issueCall {taskId : String} (htask : taskId ≠ "") :
    (issueCall taskId).observations =
      [(atomId "finding:issue-1", "researcher", taskId)] := by
  have hatoms : sortedAtoms ["finding:issue-1"] = ["finding:issue-1"] := by decide
  rw [RecordCall.observations, if_pos (by simp [RecordCall.isEffective, issueCall, htask]),
    issueCall, hatoms, List.filterMap_cons, storedAtom_issue]
  rfl

theorem not_countsOnce_returningCalls : ¬CountsOnce asciiRendering returningCalls := by
  have hseen : recordedUnder returningCalls (atomId "finding:issue-1") =
      [("researcher", "task-1"), ("researcher", "task-2"), ("researcher", "task-1")] := by
    rw [recordedUnder, returningCalls, List.flatMap_cons, List.flatMap_cons, List.flatMap_cons,
      observations_issueCall (by decide), observations_issueCall (by decide), List.flatMap_nil]
    simp [underAtom]
  rintro ⟨hcounts, -⟩
  have hissue := hcounts (atomId "finding:issue-1")
  rw [counts_recordAll, hseen] at hissue
  exact absurd hissue (by decide)

end AegisForge.Shared
