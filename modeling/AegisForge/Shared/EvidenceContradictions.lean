import AegisForge.Shared.EvidenceCounts

/-!
# Contradictions between findings

The ledger looks for contradictions among the rows that a textual filter selects, and
names a finding by the text that it was given with.  This agrees with a scan of all rows
exactly if the stored texts spell the findings in the way that the filter and the names
expect.
-/

namespace AegisForge.Shared

open AegisForge.Core AegisForge.Core.Sha256

/-! ## Stored texts -/

/-- The text of an atom that the ledger hashes. -/
def normalizedText (raw : String) : String :=
  if maxAtomValueBytes < (utf8 (splitAtom (strip raw)).2.toList).length then
    (splitAtom (strip raw)).1 ++ ":" ++
      String.ofList (takeBytes maxAtomValueBytes (splitAtom (strip raw)).2.toList)
  else strip raw

theorem takeWhile_append_colon {kind value : List Char} (hkind : ':' ∉ kind) :
    (kind ++ ':' :: value).takeWhile (· ≠ ':') = kind := by
  rw [List.takeWhile_append_of_pos]
  · simp
  · intro character hmem
    rw [decide_eq_true_eq]
    exact fun heq => hkind (heq ▸ hmem)

/-- A kind and a value are read from the text that they are written to. -/
theorem splitAtom_append {kind value : String} (hkind : ':' ∉ kind.toList) :
    splitAtom (kind ++ ":" ++ value) = (kind, value) := by
  have hchars : (kind ++ ":" ++ value).toList = kind.toList ++ ':' :: value.toList := by
    simp
  rw [splitAtom, hchars, takeWhile_append_colon hkind, List.drop_left]
  simp

theorem splitAtom_cases (atom : String) :
    (':' ∉ atom.toList ∧ splitAtom atom = ("unknown", atom)) ∨
      ∃ kind value, ':' ∉ kind.toList ∧ atom = kind ++ ":" ++ value ∧
        splitAtom atom = (kind, value) := by
  by_cases hmem : ':' ∈ atom.toList
  · obtain ⟨kind, value, hchars, hkind⟩ := List.eq_append_cons_of_mem hmem
    have hatom : atom = String.ofList kind ++ ":" ++ String.ofList value := by
      rw [← String.toList_inj, hchars]
      simp
    have hname : ':' ∉ (String.ofList kind).toList := by
      rwa [String.toList_ofList]
    refine .inr ⟨String.ofList kind, String.ofList value, hname, hatom, ?_⟩
    rw [hatom]
    exact splitAtom_append hname
  · have hwhole : atom.toList.takeWhile (· ≠ ':') = atom.toList := by
      rw [List.takeWhile_eq_self_iff]
      intro character hcharacter
      rw [decide_eq_true_eq]
      exact fun heq => hmem (heq ▸ hcharacter)
    refine .inl ⟨hmem, ?_⟩
    rw [splitAtom, hwhole, List.drop_length]

theorem colon_notMem_kind (atom : String) : ':' ∉ (splitAtom atom).1.toList := by
  rcases splitAtom_cases atom with ⟨-, hsplit⟩ | ⟨kind, value, hkind, -, hsplit⟩
  · have hunknown : ':' ∉ "unknown".toList := by decide
    rw [hsplit]
    exact hunknown
  · rw [hsplit]
    exact hkind

/-- An atom of a named kind is its kind and its value. -/
theorem eq_of_splitAtom {atom kind value : String} (hsplit : splitAtom atom = (kind, value))
    (hkind : kind ≠ "unknown") : atom = kind ++ ":" ++ value := by
  rcases splitAtom_cases atom with ⟨-, hunknown⟩ | ⟨named, rest, -, hatom, hnamed⟩
  · rw [hunknown, Prod.mk.injEq] at hsplit
    exact absurd hsplit.1.symm hkind
  · rw [hnamed, Prod.mk.injEq] at hsplit
    rw [hatom, hsplit.1, hsplit.2]

/-- What is stored is read from the text that is hashed. -/
theorem splitAtom_normalizedText {raw : String} {stored : StoredAtom}
    (hstored : storedAtom raw = some stored) :
    stored.atomId = atomId (normalizedText raw) ∧
      splitAtom (normalizedText raw) = (stored.kind, stored.value) := by
  rw [storedAtom] at hstored
  split at hstored
  · cases hstored
  dsimp only at hstored
  split at hstored
  case isTrue hlong =>
    have hkind := colon_notMem_kind (strip raw)
    rw [normalizedText, if_pos hlong]
    generalize String.ofList (takeBytes maxAtomValueBytes (splitAtom (strip raw)).2.toList) =
      value at hstored ⊢
    generalize (splitAtom (strip raw)).1 = kind at hstored hkind ⊢
    have heq := Option.some.inj hstored
    subst heq
    exact ⟨rfl, splitAtom_append hkind⟩
  case isFalse hshort =>
    rw [normalizedText, if_neg hshort]
    generalize splitAtom (strip raw) = parts at hstored ⊢
    have heq := Option.some.inj hstored
    subst heq
    exact ⟨rfl, rfl⟩

/-- The bytes that some calls hash: of their atoms as they are given and as they are
stored. -/
def hashedTexts (calls : List RecordCall) : List Octets :=
  (calls.flatMap RecordCall.atoms).flatMap fun raw =>
    [utf8 raw.toList, utf8 (normalizedText raw).toList]

/-- Every row stores an atom of a call. -/
def StoresAtoms (calls : List RecordCall) (rows : List EvidenceRow) : Prop :=
  ∀ row ∈ rows, ∃ raw ∈ calls.flatMap RecordCall.atoms,
    storedAtom raw = some ⟨row.atomId, row.kind, row.value⟩

theorem storesAtoms_observe {calls : List RecordCall} {ledger : EvidenceLedger} {raw : String}
    {atom : StoredAtom} (observer : Observer) (hstores : StoresAtoms calls ledger.evidence.rows)
    (hraw : raw ∈ calls.flatMap RecordCall.atoms) (hstored : storedAtom raw = some atom) :
    StoresAtoms calls (ledger.observe observer atom).evidence.rows := by
  intro row hrow
  have hlookup := Table.lookup_of_mem hrow
  rw [EvidenceLedger.lookup_evidence_observe] at hlookup
  split at hlookup
  case isFalse => exact hstores row (Table.mem_of_lookup hlookup)
  case isTrue hid =>
    cases hold : ledger.evidence.lookup row.atomId with
    | none =>
        rw [hold, Option.elim_none] at hlookup
        rw [← Option.some.inj hlookup]
        exact ⟨raw, hraw, hstored⟩
    | some old =>
        rw [hold, Option.elim_some] at hlookup
        rw [← Option.some.inj hlookup]
        exact hstores old (Table.mem_of_lookup hold)

theorem storesAtoms_foldl {calls : List RecordCall} {recording : Recording} {atoms : List String}
    (observer : Observer) (hstores : StoresAtoms calls recording.ledger.evidence.rows)
    (hatoms : ∀ raw ∈ atoms, raw ∈ calls.flatMap RecordCall.atoms) :
    StoresAtoms calls (atoms.foldl (recordAtom observer) recording).ledger.evidence.rows := by
  induction atoms generalizing recording with
  | nil => exact hstores
  | cons raw rest ih =>
      apply ih _ fun other hother => hatoms other (List.mem_cons_of_mem _ hother)
      rw [recordAtom]
      cases hstored : storedAtom raw with
      | none => exact hstores
      | some atom =>
          dsimp only
          split
          case isTrue => exact hstores
          case isFalse =>
            exact storesAtoms_observe observer hstores (hatoms raw List.mem_cons_self) hstored

theorem storesAtoms_mono {calls more : List RecordCall} {rows : List EvidenceRow}
    (hstores : StoresAtoms calls rows) : StoresAtoms (calls ++ more) rows := by
  intro row hrow
  obtain ⟨raw, hraw, hstored⟩ := hstores row hrow
  rw [List.flatMap_append]
  exact ⟨raw, List.mem_append_left _ hraw, hstored⟩

theorem mem_sortedAtoms {atom : String} {atoms : List String} :
    atom ∈ sortedAtoms atoms ↔ atom ∈ atoms := by
  rw [sortedAtoms, mem_sorted, List.mem_dedup]

theorem storesAtoms_recordAtoms {calls : List RecordCall} {ledger : EvidenceLedger}
    (call : RecordCall) (hstores : StoresAtoms calls ledger.evidence.rows) :
    StoresAtoms (calls ++ [call])
      (recordAtoms ledger call.observer call.atoms).ledger.evidence.rows := by
  have hatoms : ∀ raw ∈ sortedAtoms call.atoms,
      raw ∈ (calls ++ [call]).flatMap RecordCall.atoms := by
    intro raw hraw
    rw [List.flatMap_append, List.flatMap_singleton]
    exact List.mem_append_right _ (mem_sortedAtoms.mp hraw)
  exact storesAtoms_foldl call.observer (storesAtoms_mono hstores) hatoms

theorem evidence_recordContradictions (observer : Observer) (ledger : EvidenceLedger)
    (contradictions : List Contradiction) :
    (recordContradictions observer ledger contradictions).evidence = ledger.evidence := by
  rw [recordContradictions]
  induction contradictions generalizing ledger with
  | nil => rfl
  | cons contradiction rest ih => exact ih (upsertContradiction observer ledger contradiction)

/-- Every row of the ledger stores an atom of a call. -/
theorem storesAtoms_recordAll (rendering : Rendering) (calls : List RecordCall) :
    StoresAtoms calls (recordAll rendering calls).evidence.rows := by
  induction calls using List.reverseRecOn with
  | nil => exact fun row hrow => absurd hrow List.not_mem_nil
  | append_singleton calls call ih =>
      rw [recordAll, List.foldl_append, List.foldl_cons, List.foldl_nil, EvidenceLedger.record]
      split
      case isTrue =>
        dsimp only
        rw [evidence_recordContradictions]
        exact storesAtoms_recordAtoms call ih
      case isFalse => exact storesAtoms_mono ih

/-! ## A scan of all findings -/

/-- The ledger while a call looks for contradictions: its atoms are stored. -/
def ledgerDuring (rendering : Rendering) (calls : List RecordCall) (call : RecordCall) :
    EvidenceLedger :=
  (recordAtoms (recordAll rendering calls) call.observer call.atoms).ledger

def findingRows (ledger : EvidenceLedger) : List EvidenceRow :=
  ledger.evidence.rows.filter fun row => row.kind = "finding"

/-- The contradictions among all rows of findings. -/
def scanContradictions (rendering : Rendering) (ledger : EvidenceLedger) (atoms : List String) :
    List Contradiction :=
  conflictsAmong rendering (findingsOf rendering atoms) (findingRows ledger)

/-- The contradictions that are found are those of a scan of all findings, their ids are
in the ledger, and no row that contradicts a finding is left out by the filter. -/
structure ContradictionsExact (rendering : Rendering) (ledger : EvidenceLedger)
    (atoms : List String) : Prop where
  scanned : ∀ pair, pair ∈ (detectContradictions rendering ledger atoms).map Contradiction.pair ↔
    pair ∈ (scanContradictions rendering ledger atoms).map Contradiction.pair
  present : ∀ pair ∈ (detectContradictions rendering ledger atoms).map Contradiction.pair,
    pair.1 ∈ ledger.evidence.rows.map EvidenceRow.atomId ∧
      pair.2 ∈ ledger.evidence.rows.map EvidenceRow.atomId
  kept : ∀ finding ∈ findingsOf rendering atoms, ∀ row ∈ findingRows ledger,
    conflictsWith rendering finding.1 finding.2 row = true →
      row ∈ candidates (findingsOf rendering atoms) ledger.evidence.rows

/-- Every finding that a row contradicts is stored with the value it was given with, and
the row spells the fields of an identity as the filter does. -/
def ReadsBack (rendering : Rendering) (ledger : EvidenceLedger) (atoms : List String) : Prop :=
  ∀ atom ∈ atoms, ∀ value, splitAtom atom = ("finding", value) →
    ∀ finding, findingOf rendering value = some finding →
      ∀ row ∈ findingRows ledger, conflictsWith rendering (atomId atom) finding row = true →
        (∃ own ∈ findingRows ledger, own.value = value) ∧
          ∃ other ∈ findingsOf rendering atoms, ∀ field ∈ other.2.identity,
            like (fieldPattern field) row.value.toList = true

variable {rendering : Rendering} {calls : List RecordCall} {call : RecordCall}
variable {ledger : EvidenceLedger} {atoms : List String}

theorem mem_findingsOf {id : String} {finding : Finding} :
    (id, finding) ∈ findingsOf rendering atoms ↔
      ∃ atom ∈ atoms, ∃ value, splitAtom atom = ("finding", value) ∧
        findingOf rendering value = some finding ∧ atomId atom = id := by
  rw [findingsOf, List.mem_filterMap]
  constructor
  · rintro ⟨atom, hatom, hfound⟩
    split at hfound
    case isFalse => cases hfound
    case isTrue hkind =>
      obtain ⟨found, hfinding, hpair⟩ := Option.map_eq_some_iff.mp hfound
      obtain ⟨hid, rfl⟩ := Prod.mk.inj hpair
      exact ⟨atom, mem_sortedAtoms.mp hatom, (splitAtom atom).2, Prod.ext hkind rfl, hfinding, hid⟩
  · rintro ⟨atom, hatom, value, hsplit, hfinding, hid⟩
    refine ⟨atom, mem_sortedAtoms.mpr hatom, ?_⟩
    rw [hsplit, if_pos rfl, hfinding, Option.map_some, hid]

theorem mem_candidates {findings : List (String × Finding)} {rows : List EvidenceRow}
    {row : EvidenceRow} :
    row ∈ candidates findings rows ↔ (row ∈ rows ∧ row.kind = "finding") ∧
      ∃ other ∈ findings, ∀ field ∈ other.2.identity,
        like (fieldPattern field) row.value.toList = true := by
  simp only [candidates, List.mem_flatMap, List.mem_dedup, List.mem_map, List.mem_filter,
    isCandidate, Bool.and_eq_true, decide_eq_true_eq, List.all_eq_true]
  constructor
  · rintro ⟨_, ⟨other, hother, rfl⟩, hrow, hkind, hlike⟩
    exact ⟨⟨hrow, hkind⟩, other, hother, hlike⟩
  · rintro ⟨⟨hrow, hkind⟩, other, hother, hlike⟩
    exact ⟨_, ⟨other, hother, rfl⟩, hrow, hkind, hlike⟩

theorem mem_findingRows {row : EvidenceRow} :
    row ∈ findingRows ledger ↔ row ∈ ledger.evidence.rows ∧ row.kind = "finding" := by
  simp [findingRows]

/-- The pairs of a list of conflicts do not depend on what is added twice. -/
theorem mem_pairs_foldl_addConflict {conflicts found : List Contradiction}
    {pair : String × String} :
    pair ∈ (found.foldl addConflict conflicts).map Contradiction.pair ↔
      pair ∈ conflicts.map Contradiction.pair ∨ pair ∈ found.map Contradiction.pair := by
  induction found generalizing conflicts with
  | nil => simp
  | cons conflict rest ih =>
      rw [List.foldl_cons, ih, List.map_cons, List.mem_cons, ← or_assoc]
      apply or_congr_left
      rw [addConflict]
      split
      case isTrue hmem =>
        exact ⟨.inl, fun hor => hor.elim id fun heq => heq ▸ hmem⟩
      case isFalse => simp

theorem mem_pairs_conflictsAmong {findings : List (String × Finding)} {rows : List EvidenceRow}
    {pair : String × String} :
    pair ∈ (conflictsAmong rendering findings rows).map Contradiction.pair ↔
      ∃ finding ∈ findings, ∃ row ∈ rows, conflictsWith rendering finding.1 finding.2 row = true ∧
        sortedPair finding.1 row.atomId = pair := by
  rw [conflictsAmong, mem_pairs_foldl_addConflict]
  simp only [List.map_nil, List.not_mem_nil, false_or, List.mem_map, List.mem_flatMap,
    List.mem_filterMap]
  constructor
  · rintro ⟨conflict, ⟨finding, hfinding, row, hrow, hconflict⟩, rfl⟩
    rw [conflict?] at hconflict
    split at hconflict
    case isFalse => cases hconflict
    case isTrue hconflicts =>
      obtain ⟨old, -, rfl⟩ := Option.map_eq_some_iff.mp hconflict
      exact ⟨finding, hfinding, row, hrow, hconflicts, rfl⟩
  · rintro ⟨finding, hfinding, row, hrow, hconflicts, rfl⟩
    have hfound := hconflicts
    rw [conflictsWith, Bool.and_eq_true, Option.any_eq_true] at hfound
    obtain ⟨-, old, hold, -⟩ := hfound
    refine ⟨conflictOf finding.1 finding.2 row old, ⟨finding, hfinding, row, hrow, ?_⟩, rfl⟩
    rw [conflict?, if_pos hconflicts, hold]
    rfl

theorem sortedPair_cases (left right : String) :
    sortedPair left right = (left, right) ∨ sortedPair left right = (right, left) := by
  rw [sortedPair]
  split
  · exact .inr rfl
  · exact .inl rfl

theorem atomId_injective {texts : List Octets} (hfree : CollisionFree sha256 texts)
    {left right : String} (hleft : utf8 left.toList ∈ texts) (hright : utf8 right.toList ∈ texts)
    (heq : atomId left = atomId right) : left = right := by
  have hdigest : sha256 (utf8 left.toList) = sha256 (utf8 right.toList) := Digest.text_injective heq
  exact String.toList_inj.mp (utf8_injective (hfree _ hleft _ hright hdigest))

/-- The id of a finding is in the ledger exactly if its value is. -/
theorem atomId_mem_iff (hstores : StoresAtoms calls ledger.evidence.rows)
    (hfree : CollisionFree sha256 (hashedTexts calls)) {atom value : String}
    (hatom : atom ∈ calls.flatMap RecordCall.atoms)
    (hsplit : splitAtom atom = ("finding", value)) :
    atomId atom ∈ ledger.evidence.rows.map EvidenceRow.atomId ↔
      ∃ own ∈ findingRows ledger, own.value = value := by
  have hwritten : atom = "finding" ++ ":" ++ value := eq_of_splitAtom hsplit (by decide)
  constructor
  · intro hmem
    obtain ⟨row, hrow, hid⟩ := List.mem_map.mp hmem
    obtain ⟨raw, hraw, hstored⟩ := hstores row hrow
    obtain ⟨hnormal, hparts⟩ := splitAtom_normalizedText hstored
    have hsame : normalizedText raw = atom := by
      apply atomId_injective hfree _ _ (hnormal.symm.trans hid)
      · exact List.mem_flatMap.mpr ⟨raw, hraw, by simp⟩
      · exact List.mem_flatMap.mpr ⟨atom, hatom, by simp⟩
    rw [hsame, hsplit] at hparts
    obtain ⟨hkind, hvalue⟩ := Prod.mk.inj hparts
    exact ⟨row, mem_findingRows.mpr ⟨hrow, hkind.symm⟩, hvalue.symm⟩
  · rintro ⟨own, hown, rfl⟩
    obtain ⟨hrow, hkind⟩ := mem_findingRows.mp hown
    obtain ⟨raw, -, hstored⟩ := hstores own hrow
    obtain ⟨hnormal, hparts⟩ := splitAtom_normalizedText hstored
    have hnamed : own.kind ≠ "unknown" := by
      rw [hkind]
      decide
    have hsame : normalizedText raw = own.kind ++ ":" ++ own.value := eq_of_splitAtom hparts hnamed
    rw [hkind] at hsame
    have hid : own.atomId = atomId atom := by
      rw [hwritten, ← hsame]
      exact hnormal
    rw [← hid]
    exact List.mem_map_of_mem hrow

/-- A finding that `json.dumps` writes with its default separators. -/
def spacedValue : String :=
  "\x7b\"repository\": \"repo-a\", \"rule\": \"r1\", \"status\": \"POTENTIAL_RISK\"\x7d"

/-- The same finding, found to be safe, without blanks. -/
def compactValue : String :=
  "\x7b\"repository\":\"repo-a\",\"rule\":\"r1\",\"status\":\"SAFE\"\x7d"

def findingCall (taskId value : String) : RecordCall where
  taskId := taskId
  role := "researcher"
  atoms := ["finding:" ++ value]
  now := "2026-01-01T00:00:00+00:00"

theorem rows_ledgerDuring :
    (ledgerDuring asciiRendering [findingCall "task-1" spacedValue]
      (findingCall "task-2" compactValue)).evidence.rows.map (fun row =>
        (row.kind, row.value, decide (row.atomId ≠ atomId ("finding:" ++ compactValue)))) =
      [("finding", spacedValue, true), ("finding", compactValue, false)] := by
  decide +kernel

def safeFinding : Finding := ⟨[("repository", "repo-a"), ("rule", "r1")], "SAFE"⟩

theorem findingOf_compactValue : findingOf asciiRendering compactValue = some safeFinding := by
  decide +kernel

theorem findingOf_spacedValue : findingOf asciiRendering spacedValue =
    some { safeFinding with status := "POTENTIAL_RISK" } := by
  decide +kernel

theorem splitAtom_compactValue :
    splitAtom ("finding:" ++ compactValue) = ("finding", compactValue) := by
  have hkind : ':' ∉ "finding".toList := by decide
  exact splitAtom_append hkind

theorem mem_findingsOf_compactValue {other : String × Finding} :
    other ∈ findingsOf asciiRendering ["finding:" ++ compactValue] ↔
      other = (atomId ("finding:" ++ compactValue), safeFinding) := by
  obtain ⟨id, finding⟩ := other
  rw [mem_findingsOf]
  simp only [List.mem_singleton, exists_eq_left, splitAtom_compactValue, Prod.mk.injEq, true_and]
  constructor
  · rintro ⟨value, rfl, hfinding, rfl⟩
    rw [findingOf_compactValue] at hfinding
    exact ⟨rfl, (Option.some.inj hfinding).symm⟩
  · rintro ⟨rfl, rfl⟩
    exact ⟨compactValue, rfl, findingOf_compactValue, rfl⟩

end AegisForge.Shared
