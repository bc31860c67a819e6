import Mathlib.Data.List.Destutter
import AegisForge.Core.IsoTime
import AegisForge.Core.PyValue
import AegisForge.Core.Runs
import AegisForge.Core.Table
import AegisForge.Shared.Exceptions

/-!
# Disclosure rounds

A round is registered once and then extended at most once, completed or failed.
Every operation is one committed statement or transaction, so a run from any
number of callers is a list of operations.
-/

namespace AegisForge.Shared.RoundTransparency

open AegisForge.Core

/-! ## The table -/

inductive RoundStatus
  | «open»
  | extended
  | completed
  | failed
  deriving DecidableEq, Repr

/-- `status IN ('OPEN', 'EXTENDED')`. -/
def RoundStatus.isActive (status : RoundStatus) : Bool := status ∈ [.open, .extended]

inductive Verdict
  | reproduced
  | notReproduced
  | inconclusive
  deriving DecidableEq, Repr

/-- A row of `round_transparency`. -/
structure RoundRow where
  caseId : String
  roundId : String
  technique : String
  startedAt : String
  disclosureDeadline : String
  status : RoundStatus
  completedAt : Option String
  verdict : Option Verdict
  extensionGrantedAt : Option String
  extensionReason : Option String
  deriving DecidableEq

/-- `PRIMARY KEY (case_id, round_id)`. -/
def RoundRow.key (row : RoundRow) : String × String := (row.caseId, row.roundId)

abbrev RoundTable := Table RoundRow.key RoundRow.key

/-- A text argument that is not blank. -/
def filled? (value : PyValue) : Option String := value.text?.filter fun text => !isBlank text

/-! ## Verdicts -/

/-- The characters other than ASCII letters whose capitals are ASCII. -/
def specialCapitals : List (Char × List Char) :=
  [('ß', ['S', 'S']), ('ı', ['I']), ('ſ', ['S']), ('ﬀ', ['F', 'F']), ('ﬁ', ['F', 'I']),
    ('ﬂ', ['F', 'L']), ('ﬃ', ['F', 'F', 'I']), ('ﬄ', ['F', 'F', 'L']), ('ﬅ', ['S', 'T']),
    ('ﬆ', ['S', 'T'])]

/-- `text.upper()`; letters with other capitals are in the name of no verdict. -/
def upper (text : List Char) : List Char :=
  text.flatMap fun character =>
    (specialCapitals.lookup character).getD [character.toUpper]

/-- The verdict that is stored for an argument. -/
def normalizeVerdict (verdict : PyValue) : Verdict :=
  match verdict.text? with
  | none => .inconclusive
  | some text =>
      let name := String.ofList (upper (strip text).toList)
      if name = "REPRODUCED" then .reproduced
      else if name = "NOT_REPRODUCED" then .notReproduced
      else .inconclusive

/-! ## Deadlines -/

/-- `text.replace("Z", "+00:00")`. -/
def replaceZulu (text : List Char) : List Char :=
  text.flatMap fun character =>
    if character = 'Z' then ['+', '0', '0', ':', '0', '0'] else [character]

/-- The time that a stored deadline denotes, a naive one in UTC. -/
def deadline? (text : String) : Option DateTime :=
  (DateTime.fromisoformat (replaceZulu text.toList)).map DateTime.orUtc

/-- The time of the second text is after that of the first. -/
def IsLater (earlier later : String) : Prop :=
  ∃ before after, deadline? earlier = some before ∧ deadline? later = some after ∧
    before.instant < after.instant

/-! ## The operations -/

def requiredFieldsError : Raised := ⟨.valueError, "round_transparency_required_fields"⟩

/-- A row as it is registered. -/
def RoundRow.opened (roundId caseId technique startedAt disclosureDeadline : String) :
    RoundRow where
  caseId := caseId
  roundId := roundId
  technique := technique
  startedAt := startedAt
  disclosureDeadline := disclosureDeadline
  status := .open
  completedAt := none
  verdict := none
  extensionGrantedAt := none
  extensionReason := none

/-- `INSERT OR IGNORE INTO round_transparency`. -/
def insertOrIgnore (row : RoundRow) (rounds : RoundTable) : RoundTable :=
  (rounds.insert? row).getD rounds

/-- `TaskQueue.create_round_transparency`. -/
def createRoundTransparency
    (roundId caseId technique startedAt disclosureDeadline : PyValue) (rounds : RoundTable) :
    Except Raised Unit × RoundTable :=
  match filled? roundId, filled? caseId, filled? technique, filled? startedAt,
      filled? disclosureDeadline with
  | some roundId, some caseId, some technique, some startedAt, some disclosureDeadline =>
      (.ok (), insertOrIgnore
        (RoundRow.opened roundId caseId technique startedAt disclosureDeadline) rounds)
  | _, _, _, _, _ => (.error requiredFieldsError, rounds)

def RoundRow.complete (completedAt : String) (verdict : Verdict) (row : RoundRow) : RoundRow :=
  { row with status := .completed, completedAt := some completedAt, verdict := some verdict }

def RoundRow.fail (failedAt : String) (row : RoundRow) : RoundRow :=
  { row with status := .failed, completedAt := some failedAt, verdict := none }

def RoundRow.extend (deadline grantedAt reason : String) (row : RoundRow) : RoundRow :=
  { row with
    disclosureDeadline := deadline
    status := .extended
    extensionGrantedAt := some grantedAt
    extensionReason := some reason }

theorem RoundRow.key_complete (completedAt : String) (verdict : Verdict) (row : RoundRow) :
    (row.complete completedAt verdict).key = row.key := rfl

theorem RoundRow.key_fail (failedAt : String) (row : RoundRow) :
    (row.fail failedAt).key = row.key := rfl

theorem RoundRow.key_extend (deadline grantedAt reason : String) (row : RoundRow) :
    (row.extend deadline grantedAt reason).key = row.key := rfl

/-- `TaskQueue.complete_round`. -/
def completeRound (caseId roundId completedAt verdict : PyValue) (rounds : RoundTable) :
    Bool × RoundTable :=
  match filled? caseId, filled? roundId, filled? completedAt with
  | some caseId, some roundId, some completedAt =>
      rounds.updateWhere (caseId, roundId) (fun row => row.status.isActive)
        (RoundRow.complete completedAt (normalizeVerdict verdict)) (RoundRow.key_complete _ _)
        (RoundRow.key_complete _ _)
  | _, _, _ => (false, rounds)

/-- `TaskQueue.fail_round`. -/
def failRound (caseId roundId failedAt : PyValue) (rounds : RoundTable) : Bool × RoundTable :=
  match filled? caseId, filled? roundId, filled? failedAt with
  | some caseId, some roundId, some failedAt =>
      rounds.updateWhere (caseId, roundId) (fun row => row.status.isActive)
        (RoundRow.fail failedAt) (RoundRow.key_fail failedAt) (RoundRow.key_fail failedAt)
  | _, _, _ => (false, rounds)

/-- A number of days that is positive. -/
def positive? : PyValue → Option ℕ
  | .int value => if 0 < value then some value.toNat else none
  | _ => none

/-- The deadline `days` days later, where it can be computed. -/
def extendedDeadline (row : RoundRow) (days : ℕ) : Option String := do
  let current ← deadline? row.disclosureDeadline
  let later ← current.addDays? days
  some later.isoText

/-- `reason.strip()[:1000]`. -/
def boundedReason (reason : String) : String :=
  String.ofList ((strip reason).toList.take 1000)

/-- `TaskQueue.grant_extension` at the time `now`. -/
def grantExtension (caseId roundId reason days : PyValue) (now : DateTime)
    (rounds : RoundTable) : Bool × RoundTable :=
  match filled? caseId, filled? roundId, filled? reason, positive? days with
  | some caseId, some roundId, some reason, some days =>
      match (rounds.lookup (caseId, roundId)).filter fun row => row.status = .open with
      | none => (false, rounds)
      | some row =>
          if row.extensionGrantedAt.isSome then (false, rounds)
          else
            match extendedDeadline row days with
            | none => (false, rounds)
            | some deadline =>
                rounds.updateWhere (caseId, roundId)
                  (fun row => row.status = .open && row.extensionGrantedAt.isNone)
                  (RoundRow.extend deadline now.isoText (boundedReason reason))
                  (RoundRow.key_extend _ _ _) (RoundRow.key_extend _ _ _)
  | _, _, _, _ => (false, rounds)

inductive Operation
  | createRoundTransparency
      (roundId caseId technique startedAt disclosureDeadline : PyValue)
  | grantExtension (caseId roundId reason days : PyValue) (now : DateTime)
  | completeRound (caseId roundId completedAt verdict : PyValue)
  | failRound (caseId roundId failedAt : PyValue)

/-- The table after an operation. -/
def step (rounds : RoundTable) : Operation → RoundTable
  | .createRoundTransparency roundId caseId technique startedAt disclosureDeadline =>
      (createRoundTransparency roundId caseId technique startedAt disclosureDeadline rounds).2
  | .grantExtension caseId roundId reason days now =>
      (grantExtension caseId roundId reason days now rounds).2
  | .completeRound caseId roundId completedAt verdict =>
      (completeRound caseId roundId completedAt verdict rounds).2
  | .failRound caseId roundId failedAt => (failRound caseId roundId failedAt rounds).2

/-- Whether the operation grants an extension to the round. -/
def grants (key : String × String) (rounds : RoundTable) : Operation → Bool
  | .grantExtension caseId roundId reason days now =>
      caseId.text? = some key.1 && roundId.text? = some key.2 &&
        (grantExtension caseId roundId reason days now rounds).1
  | _ => false

/-! ## What an operation does to a row -/

/-- The row of a round before and after an operation. -/
inductive Advances : RoundRow → RoundRow → Prop
  | same (row : RoundRow) : Advances row row
  | extend {row : RoundRow} (deadline grantedAt reason : String) (hopen : row.status = .open)
      (hfirst : row.extensionGrantedAt = none) (hlater : IsLater row.disclosureDeadline deadline) :
      Advances row (row.extend deadline grantedAt reason)
  | complete {row : RoundRow} (completedAt : String) (verdict : Verdict)
      (hactive : row.status.isActive = true) : Advances row (row.complete completedAt verdict)
  | fail {row : RoundRow} (failedAt : String) (hactive : row.status.isActive = true) :
      Advances row (row.fail failedAt)

/-- The row is as it was registered. -/
def IsFresh (row : RoundRow) : Prop :=
  ∃ roundId caseId technique startedAt disclosureDeadline,
    row = RoundRow.opened roundId caseId technique startedAt disclosureDeadline

variable {rounds : RoundTable} {key : String × String} {row : RoundRow}

theorem replaceZulu_isoformat (time : DateTime) : replaceZulu time.isoformat = time.isoformat := by
  have hmarks := time.all_isTimeMark_isoformat
  rw [List.all_eq_true] at hmarks
  have hsame : ∀ text : List Char, (∀ character ∈ text, isTimeMark character = true) →
      replaceZulu text = text := by
    intro text htext
    induction text with
    | nil => rfl
    | cons character rest ih =>
        have hne : character ≠ 'Z' := by
          rintro rfl
          exact absurd (htext 'Z' List.mem_cons_self) (by decide)
        have hrest := ih fun other hother => htext other (List.mem_cons_of_mem _ hother)
        rw [replaceZulu] at hrest ⊢
        rw [List.flatMap_cons, if_neg hne, hrest, List.singleton_append]
  exact hsame _ hmarks

theorem deadline?_isoText (time : DateTime) : deadline? time.isoText = some time.orUtc := by
  rw [deadline?, DateTime.isoText, String.toList_ofList, replaceZulu_isoformat,
    DateTime.fromisoformat_isoformat, Option.map_some]

/-- An extended deadline is later. -/
theorem isLater_extendedDeadline {days : ℕ} (hdays : 0 < days) {deadline : String}
    (hdeadline : extendedDeadline row days = some deadline) :
    IsLater row.disclosureDeadline deadline := by
  simp only [extendedDeadline, Option.bind_eq_bind, Option.bind_eq_some_iff,
    Option.some.injEq] at hdeadline
  obtain ⟨current, hcurrent, later, hlater, rfl⟩ := hdeadline
  refine ⟨current, later.orUtc, hcurrent, deadline?_isoText later, ?_⟩
  rw [DateTime.instant_orUtc, DateTime.instant_addDays? hlater]
  have hday : (0 : ℤ) < days * dayMicroseconds := by
    exact_mod_cast Nat.mul_pos hdays (by decide)
  omega

theorem pos_of_positive? {days : PyValue} {count : ℕ} (hcount : positive? days = some count) :
    0 < count := by
  cases days with
  | int value =>
      rw [positive?] at hcount
      split at hcount
      case isTrue hvalue =>
        obtain rfl := Option.some.inj hcount
        omega
      case isFalse => cases hcount
  | _ => cases hcount

theorem lookup_insertOrIgnore_of_some {inserted : RoundRow} (hrow : rounds.lookup key = some row) :
    (insertOrIgnore inserted rounds).lookup key = some row := by
  rw [insertOrIgnore]
  cases hinsert : rounds.insert? inserted with
  | none => exact hrow
  | some after =>
      rw [Option.getD_some, Table.lookup_insert? hinsert, if_neg ?_]
      · exact hrow
      · rintro rfl
        rw [(Table.insert?_eq_some_iff.mp hinsert).1] at hrow
        cases hrow

theorem eq_of_lookup_insertOrIgnore {inserted : RoundRow} (hnone : rounds.lookup key = none)
    (hrow : (insertOrIgnore inserted rounds).lookup key = some row) : row = inserted := by
  rw [insertOrIgnore] at hrow
  cases hinsert : rounds.insert? inserted with
  | none =>
      rw [hinsert, Option.getD_none, hnone] at hrow
      cases hrow
  | some after =>
      rw [hinsert, Option.getD_some, Table.lookup_insert? hinsert, hnone] at hrow
      split at hrow
      · exact (Option.some.inj hrow).symm
      · cases hrow

variable {condition : RoundRow → Bool} {change : RoundRow → RoundRow}
variable {hkey hunique : ∀ row, (change row).key = row.key} {wanted : String × String}

/-- An update advances the row that it changes. -/
theorem exists_advances_updateWhere (hrow : rounds.lookup key = some row)
    (hchange : key = wanted → condition row = true → Advances row (change row)) :
    ∃ after, (rounds.updateWhere wanted condition change hkey hunique).2.lookup key = some after ∧
      Advances row after := by
  rw [Table.lookup_updateWhere, hrow, Option.map_some]
  refine ⟨_, rfl, ?_⟩
  split
  case isTrue hupdated => exact hchange hupdated.1 hupdated.2
  case isFalse => exact Advances.same row

theorem lookup_updateWhere_of_none (hnone : rounds.lookup key = none) :
    (rounds.updateWhere wanted condition change hkey hunique).2.lookup key = none := by
  rw [Table.lookup_updateWhere, hnone, Option.map_none]

/-- A row that an operation finds is left as it is or advanced. -/
theorem exists_advances_step (operation : Operation) (hrow : rounds.lookup key = some row) :
    ∃ after, (step rounds operation).lookup key = some after ∧ Advances row after := by
  have hsame : ∃ after, rounds.lookup key = some after ∧ Advances row after :=
    ⟨row, hrow, Advances.same row⟩
  cases operation with
  | createRoundTransparency roundId caseId technique startedAt disclosureDeadline =>
      rw [step, createRoundTransparency]
      split
      case h_1 => exact ⟨row, lookup_insertOrIgnore_of_some hrow, Advances.same row⟩
      case h_2 => exact hsame
  | grantExtension caseId roundId reason days now =>
      rw [step, grantExtension]
      split
      case h_2 => exact hsame
      case h_1 caseId roundId reason days _ _ _ hdays =>
        split
        case h_1 => exact hsame
        case h_2 found hfound =>
          split
          case isTrue => exact hsame
          case isFalse =>
            split
            case h_1 => exact hsame
            case h_2 deadline hdeadline =>
              apply exists_advances_updateWhere hrow
              rintro rfl hcondition
              rw [Bool.and_eq_true, decide_eq_true_eq, Option.isNone_iff_eq_none] at hcondition
              rw [hrow] at hfound
              obtain rfl := Option.some.inj (Option.filter_eq_some_iff.mp hfound).1
              exact Advances.extend _ _ _ hcondition.1 hcondition.2
                (isLater_extendedDeadline (pos_of_positive? hdays) hdeadline)
  | completeRound caseId roundId completedAt verdict =>
      rw [step, completeRound]
      split
      case h_1 =>
        apply exists_advances_updateWhere hrow
        exact fun _ hactive => Advances.complete _ _ hactive
      case h_2 => exact hsame
  | failRound caseId roundId failedAt =>
      rw [step, failRound]
      split
      case h_1 =>
        apply exists_advances_updateWhere hrow
        exact fun _ hactive => Advances.fail _ hactive
      case h_2 => exact hsame

/-- A row that appears is one that was registered. -/
theorem fresh_of_step (operation : Operation) (hnone : rounds.lookup key = none)
    (hrow : (step rounds operation).lookup key = some row) : IsFresh row := by
  have hnever : ∀ after : RoundTable, after.lookup key = none → after.lookup key ≠ some row :=
    fun after hafter hfound => by simp [hafter] at hfound
  cases operation with
  | createRoundTransparency roundId caseId technique startedAt disclosureDeadline =>
      rw [step, createRoundTransparency] at hrow
      split at hrow
      case h_1 => exact ⟨_, _, _, _, _, eq_of_lookup_insertOrIgnore hnone hrow⟩
      case h_2 => exact absurd hrow (hnever _ hnone)
  | grantExtension caseId roundId reason days now =>
      rw [step, grantExtension] at hrow
      split at hrow
      case h_2 => exact absurd hrow (hnever _ hnone)
      case h_1 =>
        split at hrow
        case h_1 => exact absurd hrow (hnever _ hnone)
        case h_2 =>
          split at hrow
          case isTrue => exact absurd hrow (hnever _ hnone)
          case isFalse =>
            split at hrow
            case h_1 => exact absurd hrow (hnever _ hnone)
            case h_2 => exact absurd hrow (hnever _ (lookup_updateWhere_of_none hnone))
  | completeRound caseId roundId completedAt verdict =>
      rw [step, completeRound] at hrow
      split at hrow
      case h_1 => exact absurd hrow (hnever _ (lookup_updateWhere_of_none hnone))
      case h_2 => exact absurd hrow (hnever _ hnone)
  | failRound caseId roundId failedAt =>
      rw [step, failRound] at hrow
      split at hrow
      case h_1 => exact absurd hrow (hnever _ (lookup_updateWhere_of_none hnone))
      case h_2 => exact absurd hrow (hnever _ hnone)

/-! ## The rows of a round over a run -/

/-- The rows of a round after each operation, and before the first one. -/
def rowHistory (key : String × String) : RoundTable → List Operation → List RoundRow
  | rounds, [] => (rounds.lookup key).toList
  | rounds, operation :: rest =>
      (rounds.lookup key).toList ++ rowHistory key (step rounds operation) rest

theorem rowHistory_of_some (operations : List Operation) (hrow : rounds.lookup key = some row) :
    ∃ later, rowHistory key rounds operations = row :: later ∧ (row :: later).IsChain Advances := by
  induction operations generalizing rounds row with
  | nil => exact ⟨[], by rw [rowHistory, hrow]; rfl, List.isChain_singleton row⟩
  | cons operation rest ih =>
      obtain ⟨after, hafter, hadvances⟩ := exists_advances_step operation hrow
      obtain ⟨later, hlater, hchain⟩ := ih hafter
      refine ⟨after :: later, ?_, List.isChain_cons_cons.mpr ⟨hadvances, hchain⟩⟩
      rw [rowHistory, hrow, hlater]
      rfl

/-- A round begins with the row that was registered. -/
theorem rowHistory_of_none (operations : List Operation) (hnone : rounds.lookup key = none) :
    rowHistory key rounds operations = [] ∨
      ∃ row later, rowHistory key rounds operations = row :: later ∧ IsFresh row ∧
        (row :: later).IsChain Advances := by
  induction operations generalizing rounds with
  | nil => exact Or.inl (by rw [rowHistory, hnone]; rfl)
  | cons operation rest ih =>
      rw [rowHistory, hnone, Option.toList_none, List.nil_append]
      cases hafter : (step rounds operation).lookup key with
      | none => exact ih hafter
      | some row =>
          obtain ⟨later, hlater, hchain⟩ := rowHistory_of_some rest hafter
          exact Or.inr ⟨row, later, hlater, fresh_of_step operation hnone hafter, hchain⟩

/-! ## Statuses -/

/-- The legal histories that begin with a status. -/
def paths : RoundStatus → List (List RoundStatus)
  | .open => [[.open], [.open, .completed], [.open, .failed], [.open, .extended],
      [.open, .extended, .completed], [.open, .extended, .failed]]
  | .extended => [[.extended], [.extended, .completed], [.extended, .failed]]
  | .completed => [[.completed]]
  | .failed => [[.failed]]

/-- Another status before a legal history. -/
theorem cons_mem_paths {before after : RoundStatus} (hne : before ≠ after)
    (hstep : before = .open ∧ after = .extended ∨
      before.isActive = true ∧ after ∈ [.completed, .failed])
    {path : List RoundStatus} (hpath : path ∈ paths after) : before :: path ∈ paths before := by
  cases before <;> cases after <;> simp_all [paths, RoundStatus.isActive]

theorem destutter_cons_cons_of_ne {Value : Type*} [DecidableEq Value] {first second : Value}
    (hne : first ≠ second) (rest : List Value) :
    (first :: second :: rest).destutter (· ≠ ·) =
      first :: (second :: rest).destutter (· ≠ ·) := by
  rw [List.destutter_cons_cons, if_pos hne, List.destutter_cons']

theorem destutter_cons_cons_self {Value : Type*} [DecidableEq Value] (first : Value)
    (rest : List Value) :
    (first :: first :: rest).destutter (· ≠ ·) = (first :: rest).destutter (· ≠ ·) := by
  rw [List.destutter_cons_cons, if_neg (not_not.mpr rfl), List.destutter_cons']

theorem statuses_mem_paths {later : List RoundRow} (hchain : (row :: later).IsChain Advances) :
    ((row :: later).map RoundRow.status).destutter (· ≠ ·) ∈ paths row.status := by
  induction later generalizing row with
  | nil => cases hstatus : row.status <;> simp [hstatus, paths]
  | cons after rest ih =>
      obtain ⟨hadvances, hrest⟩ := List.isChain_cons_cons.mp hchain
      have hpath := ih hrest
      rw [List.map_cons, List.map_cons] at *
      cases hadvances with
      | same =>
          rw [destutter_cons_cons_self]
          exact hpath
      | extend deadline grantedAt reason hopen _ _ =>
          have hne : row.status ≠ .extended := by simp [hopen]
          rw [show (row.extend deadline grantedAt reason).status = .extended from rfl] at *
          rw [destutter_cons_cons_of_ne hne]
          exact cons_mem_paths hne (Or.inl ⟨hopen, rfl⟩) hpath
      | complete completedAt verdict hactive =>
          have hne : row.status ≠ .completed := by
            rintro hcompleted
            simp [hcompleted, RoundStatus.isActive] at hactive
          rw [show (row.complete completedAt verdict).status = .completed from rfl] at *
          rw [destutter_cons_cons_of_ne hne]
          exact cons_mem_paths hne (Or.inr ⟨hactive, by decide⟩) hpath
      | fail failedAt hactive =>
          have hne : row.status ≠ .failed := by
            rintro hfailed
            simp [hfailed, RoundStatus.isActive] at hactive
          rw [show (row.fail failedAt).status = .failed from rfl] at *
          rw [destutter_cons_cons_of_ne hne]
          exact cons_mem_paths hne (Or.inr ⟨hactive, by decide⟩) hpath

/-! ## Deadlines -/

/-- What a list of deadlines without repetitions may be. -/
inductive DeadlineHistory : List String → Prop
  | unregistered : DeadlineHistory []
  | unchanged (deadline : String) : DeadlineHistory [deadline]
  | extended {deadline later : String} (hlater : IsLater deadline later) :
      DeadlineHistory [deadline, later]

theorem IsLater.ne {earlier later : String} (hlater : IsLater earlier later) :
    earlier ≠ later := by
  rintro rfl
  obtain ⟨before, after, hbefore, hafter, hless⟩ := hlater
  rw [hbefore] at hafter
  obtain rfl := Option.some.inj hafter
  exact lt_irrefl _ hless

/-- Once a round is not open, its deadline stays. -/
theorem deadlines_of_not_open {later : List RoundRow} (hchain : (row :: later).IsChain Advances)
    (hstatus : row.status ≠ .open) :
    ((row :: later).map RoundRow.disclosureDeadline).destutter (· ≠ ·) =
      [row.disclosureDeadline] := by
  induction later generalizing row with
  | nil => rfl
  | cons after rest ih =>
      obtain ⟨hadvances, hrest⟩ := List.isChain_cons_cons.mp hchain
      have hkept : after.disclosureDeadline = row.disclosureDeadline ∧ after.status ≠ .open := by
        cases hadvances with
        | same => exact ⟨rfl, hstatus⟩
        | extend _ _ _ hopen => exact absurd hopen hstatus
        | complete => exact ⟨rfl, RoundStatus.noConfusion⟩
        | fail => exact ⟨rfl, RoundStatus.noConfusion⟩
      have hlater := ih hrest hkept.2
      rw [List.map_cons, hkept.1] at hlater
      rw [List.map_cons, List.map_cons, hkept.1, destutter_cons_cons_self]
      exact hlater

theorem deadlineHistory_of_chain {later : List RoundRow}
    (hchain : (row :: later).IsChain Advances) :
    (∃ deadline, IsLater row.disclosureDeadline deadline ∧
        ((row :: later).map RoundRow.disclosureDeadline).destutter (· ≠ ·) =
          [row.disclosureDeadline, deadline]) ∨
      ((row :: later).map RoundRow.disclosureDeadline).destutter (· ≠ ·) =
        [row.disclosureDeadline] := by
  induction later generalizing row with
  | nil => exact Or.inr rfl
  | cons after rest ih =>
      obtain ⟨hadvances, hrest⟩ := List.isChain_cons_cons.mp hchain
      cases hadvances with
      | same =>
          rw [List.map_cons, List.map_cons, destutter_cons_cons_self]
          exact ih hrest
      | extend deadline grantedAt reason _ _ hlater =>
          have hfixed := deadlines_of_not_open hrest RoundStatus.noConfusion
          refine Or.inl ⟨deadline, hlater, ?_⟩
          calc ((row :: row.extend deadline grantedAt reason :: rest).map
                RoundRow.disclosureDeadline).destutter (· ≠ ·)
              = row.disclosureDeadline :: ((row.extend deadline grantedAt reason :: rest).map
                  RoundRow.disclosureDeadline).destutter (· ≠ ·) :=
                destutter_cons_cons_of_ne hlater.ne _
            _ = [row.disclosureDeadline, deadline] := by
                rw [hfixed]
                rfl
      | complete completedAt verdict =>
          have hfixed := deadlines_of_not_open hrest RoundStatus.noConfusion
          exact Or.inr ((destutter_cons_cons_self row.disclosureDeadline _).trans hfixed)
      | fail failedAt =>
          have hfixed := deadlines_of_not_open hrest RoundStatus.noConfusion
          exact Or.inr ((destutter_cons_cons_self row.disclosureDeadline _).trans hfixed)

/-! ## Extensions -/

/-- How often a run grants an extension to the round. -/
def extensionsGranted (key : String × String) : RoundTable → List Operation → ℕ
  | _, [] => 0
  | rounds, operation :: rest =>
      (if grants key rounds operation = true then 1 else 0) +
        extensionsGranted key (step rounds operation) rest

/-- A granted extension is the first one, and it is recorded. -/
theorem lookup_of_grants {operation : Operation} (hgrants : grants key rounds operation = true) :
    ∃ row after, rounds.lookup key = some row ∧ row.extensionGrantedAt = none ∧
      (step rounds operation).lookup key = some after ∧
        after.extensionGrantedAt.isSome = true := by
  cases operation with
  | grantExtension caseId roundId reason days now =>
      simp only [grants, Bool.and_eq_true, decide_eq_true_eq] at hgrants
      obtain ⟨⟨hcase, hround⟩, hgranted⟩ := hgrants
      rw [step]
      rw [grantExtension] at hgranted ⊢
      split at hgranted
      case h_2 => cases hgranted
      case h_1 caseText roundText reasonText _ hcaseText hroundText _ _ =>
        have hkey : key = (caseText, roundText) := by
          obtain ⟨hcaseId, -⟩ := Option.filter_eq_some_iff.mp hcaseText
          obtain ⟨hroundId, -⟩ := Option.filter_eq_some_iff.mp hroundText
          rw [hcase] at hcaseId
          rw [hround] at hroundId
          exact Prod.ext (Option.some.inj hcaseId) (Option.some.inj hroundId)
        subst hkey
        split at hgranted
        case h_1 => cases hgranted
        case h_2 row hfound =>
          obtain ⟨hrow, hopen⟩ := Option.filter_eq_some_iff.mp hfound
          split at hgranted
          case isTrue => cases hgranted
          case isFalse hfirst =>
            have hnone : row.extensionGrantedAt = none := by
              simpa using hfirst
            split at hgranted
            case h_1 => cases hgranted
            case h_2 deadline hdeadline =>
              have hcondition : (decide (row.status = .open) &&
                  row.extensionGrantedAt.isNone) = true := by
                simpa [hnone] using hopen
              refine ⟨row, row.extend deadline now.isoText (boundedReason reasonText), hrow, hnone,
                ?_, rfl⟩
              rw [if_neg hfirst, Table.lookup_updateWhere, hrow, Option.map_some,
                if_pos ⟨rfl, hcondition⟩]
  | _ => cases hgrants

/-- An extension that was granted stays recorded. -/
theorem Advances.extensionGrantedAt {before after : RoundRow} (hadvances : Advances before after)
    (hgranted : before.extensionGrantedAt.isSome = true) :
    after.extensionGrantedAt.isSome = true := by
  cases hadvances with
  | same => exact hgranted
  | extend => rfl
  | complete => exact hgranted
  | fail => exact hgranted

theorem extensionsGranted_eq_zero (operations : List Operation)
    (hrow : rounds.lookup key = some row) (hgranted : row.extensionGrantedAt.isSome = true) :
    extensionsGranted key rounds operations = 0 := by
  induction operations generalizing rounds row with
  | nil => rfl
  | cons operation rest ih =>
      have hno : ¬grants key rounds operation = true := by
        intro hgrants
        obtain ⟨found, -, hfound, hnone, -⟩ := lookup_of_grants hgrants
        rw [hrow] at hfound
        obtain rfl := Option.some.inj hfound
        simp [hnone] at hgranted
      obtain ⟨after, hafter, hadvances⟩ := exists_advances_step operation hrow
      rw [extensionsGranted, if_neg hno, ih hafter (hadvances.extensionGrantedAt hgranted)]

theorem extensionsGranted_le_one (key : String × String) (rounds : RoundTable)
    (operations : List Operation) : extensionsGranted key rounds operations ≤ 1 := by
  induction operations generalizing rounds with
  | nil => exact Nat.zero_le 1
  | cons operation rest ih =>
      rw [extensionsGranted]
      split
      case isTrue hgrants =>
        obtain ⟨-, after, -, -, hafter, hgranted⟩ := lookup_of_grants hgrants
        rw [extensionsGranted_eq_zero rest hafter hgranted]
      case isFalse =>
        rw [Nat.zero_add]
        exact ih _

/-! ## Terminal rounds and verdicts -/

/-- A round that is not active is final. -/
def Final (before after : RoundRow) : Prop := before.status.isActive = false → after = before

theorem Advances.final {before after : RoundRow} (hadvances : Advances before after) :
    Final before after := by
  intro hstatus
  cases hadvances with
  | same => rfl
  | extend _ _ _ hopen => simp [hopen, RoundStatus.isActive] at hstatus
  | complete _ _ hactive => simp [hactive] at hstatus
  | fail _ hactive => simp [hactive] at hstatus

instance : IsTrans RoundRow Final where
  trans first second third hfirst hsecond hstatus := by
    have hsame := hfirst hstatus
    rw [hsame] at hsecond
    exact hsecond hstatus

/-- A round has a verdict exactly when it is completed. -/
def HasVerdict (row : RoundRow) : Prop := row.verdict.isSome = true ↔ row.status = .completed

theorem hasVerdict_of_isFresh (hfresh : IsFresh row) : HasVerdict row := by
  obtain ⟨_, _, _, _, _, rfl⟩ := hfresh
  simp [HasVerdict, RoundRow.opened]

theorem Advances.hasVerdict {before after : RoundRow} (hadvances : Advances before after)
    (hverdict : HasVerdict before) : HasVerdict after := by
  cases hadvances with
  | same => exact hverdict
  | extend _ _ _ hopen => simpa [HasVerdict, RoundRow.extend, hopen] using hverdict
  | complete => simp [HasVerdict, RoundRow.complete]
  | fail => simp [HasVerdict, RoundRow.fail]

theorem hasVerdict_of_chain {later : List RoundRow} (hchain : (row :: later).IsChain Advances)
    (hverdict : HasVerdict row) : ∀ other ∈ row :: later, HasVerdict other := by
  induction later generalizing row with
  | nil => simpa using hverdict
  | cons after rest ih =>
      obtain ⟨hadvances, hrest⟩ := List.isChain_cons_cons.mp hchain
      rw [List.forall_mem_cons]
      exact ⟨hverdict, ih hrest (hadvances.hasVerdict hverdict)⟩

/-! ## The lifecycle -/

/-- What holds of a round over a run that begins without rounds. -/
structure Lifecycle (key : String × String) (operations : List Operation) : Prop where
  statuses : ((rowHistory key Table.empty operations).map RoundRow.status).destutter (· ≠ ·) ∈
    [] :: paths .open
  extensions : extensionsGranted key Table.empty operations ≤ 1
  deadlines : DeadlineHistory
    (((rowHistory key Table.empty operations).map RoundRow.disclosureDeadline).destutter (· ≠ ·))
  terminal : (rowHistory key Table.empty operations).Pairwise Final
  verdicts : ∀ row ∈ rowHistory key Table.empty operations, HasVerdict row

/-- Every round of every run keeps to its lifecycle. -/
theorem lifecycle (key : String × String) (operations : List Operation) :
    Lifecycle key operations := by
  have hextensions := extensionsGranted_le_one key Table.empty operations
  have hempty : (Table.empty : RoundTable).lookup key = none := Table.lookup_empty key
  rcases rowHistory_of_none operations hempty with hrows | ⟨row, later, hrows, hfresh, hchain⟩
  · refine ⟨?_, hextensions, ?_, ?_, ?_⟩ <;> rw [hrows]
    · exact List.mem_cons_self
    · exact DeadlineHistory.unregistered
    · exact List.Pairwise.nil
    · simp
  · have hopen : row.status = .open := by
      obtain ⟨_, _, _, _, _, rfl⟩ := hfresh
      rfl
    refine ⟨?_, hextensions, ?_, ?_, ?_⟩ <;> rw [hrows]
    · rw [← hopen]
      exact List.mem_cons_of_mem _ (statuses_mem_paths hchain)
    · rcases deadlineHistory_of_chain hchain with ⟨deadline, hlater, hdeadlines⟩ | hdeadlines
      · rw [hdeadlines]
        exact DeadlineHistory.extended hlater
      · rw [hdeadlines]
        exact DeadlineHistory.unchanged _
    · exact List.isChain_iff_pairwise.mp (hchain.imp fun _ _ => Advances.final)
    · exact hasVerdict_of_chain hchain (hasVerdict_of_isFresh hfresh)

end AegisForge.Shared.RoundTransparency
