import AegisForge.Shared.AttemptLeases
import AegisForge.Shared.RoundTransparency

/-!
# Deadlines and leases that are over

The queries for overdue rounds and for leases that are over compare texts.  They
compare instants exactly if no clock is so close to the other that the offsets, or
the spellings, put the texts in another order.
-/

namespace AegisForge.Shared.Deadlines

open AegisForge.Core
open RoundTransparency (RoundRow RoundTable replaceZulu)
open AttemptLeases

/-! ## Overdue rounds -/

/-- The argument of `expired_rounds`. -/
inductive Now
  | time (value : DateTime)
  | text (value : String)
  | other

/-- A final `Z` written as an offset. -/
def replaceFinalZulu (text : String) : String :=
  if text.toList.getLast? = some 'Z' then
    String.ofList (text.toList.dropLast ++ ['+', '0', '0', ':', '0', '0'])
  else text

/-- The text that deadlines are compared with. -/
def Now.text? : Now → Option String
  | .time value => some (replaceFinalZulu value.isoText)
  | .text value => if isBlank value = true then none else some (replaceFinalZulu value)
  | .other => none

/-- `ORDER BY disclosure_deadline, round_id`. -/
def DeadlineOrder (left right : RoundRow) : Prop :=
  toLex (left.disclosureDeadline, left.roundId) ≤ toLex (right.disclosureDeadline, right.roundId)

instance : DecidableRel DeadlineOrder := fun left right =>
  inferInstanceAs (Decidable (toLex (left.disclosureDeadline, left.roundId) ≤
    toLex (right.disclosureDeadline, right.roundId)))

/-- `TaskQueue.expired_rounds`. -/
def expiredRounds (now : Now) (rounds : RoundTable) : List RoundRow :=
  match now.text? with
  | none => []
  | some nowText => (rounds.rows.filter fun row =>
      row.status.isActive && decide (row.disclosureDeadline < nowText)).insertionSort DeadlineOrder

/-- The time that a text denotes, if it has an offset. -/
def awareTime? (text : String) : Option DateTime :=
  (DateTime.fromisoformat (replaceZulu text.toList)).filter fun time => time.offset.isSome

/-- The time that is passed, if it has an offset. -/
def Now.time? : Now → Option DateTime
  | .time value => if value.offset.isSome = true then some value else none
  | .text value => if isBlank value = true then none else awareTime? value
  | .other => none

/-- The answer is the active rounds whose deadline is before the time. -/
def AnswersOverdue (now : Now) (point : DateTime) (rounds : RoundTable) : Prop :=
  ∀ row, row ∈ expiredRounds now rounds ↔
    row ∈ rounds.rows ∧ row.status.isActive = true ∧
      ∃ deadline, awareTime? row.disclosureDeadline = some deadline ∧
        deadline.instant < point.instant

/-- The spellings put two times in another order than `isoformat` does. -/
def Respelled (leftText rightText : String) (left right : DateTime) : Prop :=
  ¬(leftText < rightText ↔ left.isoText < right.isoText)

section Rounds

variable {now : Now} {point : DateTime} {rounds : RoundTable}

theorem isSome_offset_of_awareTime? {text : String} {time : DateTime}
    (htime : awareTime? text = some time) : time.offset.isSome = true :=
  (Option.filter_eq_some_iff.mp htime).2

theorem exists_text_of_time? (hpoint : now.time? = some point) :
    point.offset.isSome = true ∧ ∃ nowText, now.text? = some nowText := by
  cases now with
  | time value =>
      rw [Now.time?] at hpoint
      split at hpoint
      case isTrue haware =>
        obtain rfl := Option.some.inj hpoint
        exact ⟨haware, _, rfl⟩
      case isFalse => cases hpoint
  | text value =>
      rw [Now.time?] at hpoint
      split at hpoint
      case isTrue => cases hpoint
      case isFalse hblank => exact ⟨isSome_offset_of_awareTime? hpoint, _, if_neg hblank⟩
  | other => cases hpoint

theorem mem_expiredRounds_iff {nowText : String} (hnowText : now.text? = some nowText)
    {row : RoundRow} : row ∈ expiredRounds now rounds ↔
      row ∈ rounds.rows ∧ row.status.isActive = true ∧ row.disclosureDeadline < nowText := by
  rw [expiredRounds, hnowText]
  simp only [List.mem_insertionSort, List.mem_filter, Bool.and_eq_true, decide_eq_true_eq]

theorem iff_iff_of_not_iff {spelled formatted before misordered : Prop}
    (horder : (formatted ↔ before) ↔ ¬misordered) :
    (¬(spelled ↔ formatted) ↔ misordered) ↔ (spelled ↔ before) := by
  tauto

/-- Deadlines are compared as instants exactly if each that the offsets put on the wrong
side is put back by its spelling, and no other is moved by it. -/
theorem answersOverdue_iff {nowText : String} (hnowText : now.text? = some nowText)
    (hpoint : point.offset.isSome = true)
    (hdeadlines : ∀ row ∈ rounds.rows, row.status.isActive = true →
      ∃ deadline, awareTime? row.disclosureDeadline = some deadline) :
    AnswersOverdue now point rounds ↔
      ∀ row ∈ rounds.rows, row.status.isActive = true → ∀ deadline,
        awareTime? row.disclosureDeadline = some deadline →
          (Respelled row.disclosureDeadline nowText deadline point ↔
            DateTime.Misordered deadline point) := by
  have hrow : ∀ (row : RoundRow) (deadline : DateTime),
      awareTime? row.disclosureDeadline = some deadline →
        ((Respelled row.disclosureDeadline nowText deadline point ↔
          DateTime.Misordered deadline point) ↔
            (row.disclosureDeadline < nowText ↔ deadline.instant < point.instant)) := by
    intro row deadline hdeadline
    exact iff_iff_of_not_iff
      (DateTime.isoText_lt_iff_iff (isSome_offset_of_awareTime? hdeadline) hpoint)
  constructor
  · intro hanswers row hmem hactive deadline hdeadline
    rw [hrow row deadline hdeadline]
    have hanswer := hanswers row
    rw [mem_expiredRounds_iff hnowText] at hanswer
    constructor
    · intro hless
      obtain ⟨-, -, other, hother, hbefore⟩ := hanswer.mp ⟨hmem, hactive, hless⟩
      rw [hdeadline] at hother
      rw [Option.some.inj hother]
      exact hbefore
    · intro hbefore
      exact (hanswer.mpr ⟨hmem, hactive, deadline, hdeadline, hbefore⟩).2.2
  · intro hcondition row
    rw [mem_expiredRounds_iff hnowText]
    refine and_congr_right fun hmem => and_congr_right fun hactive => ?_
    obtain ⟨deadline, hdeadline⟩ := hdeadlines row hmem hactive
    rw [(hrow row deadline hdeadline).mp (hcondition row hmem hactive deadline hdeadline)]
    constructor
    · exact fun hbefore => ⟨deadline, hdeadline, hbefore⟩
    · rintro ⟨other, hother, hbefore⟩
      rw [hdeadline] at hother
      rwa [Option.some.inj hother]

end Rounds

/-! ## Leases that are over -/

def leaseTime? (row : AttemptRow) : Option DateTime :=
  row.leaseExpiresAt.bind fun text => DateTime.fromisoformat text.toList

/-- The lease is at or before the time. -/
def isOver (now : AwareTime) (row : AttemptRow) : Bool :=
  (leaseTime? row).any fun lease => lease.instant ≤ now.val.instant

/-- The leased attempts whose lease is over are timed out, and no others. -/
def TimesOutOverdue (now : AwareTime) (attempts : AttemptTable) : Prop :=
  ∃ expired after, expireLeases now attempts = (.ok expired, after) ∧
    (∀ row, row ∈ expired ↔ ∃ old ∈ attempts.rows, old.state = .leased ∧ isOver now old = true ∧
      old.timedOut now = row) ∧
    ∀ row ∈ attempts.rows, after.lookup row.attemptId =
      some (if row.state = .leased ∧ isOver now row = true then row.timedOut now else row)

/-- As many running attempts whose lease is over are listed as the limit allows. -/
def ListsOverdue (now : AwareTime) (attempts : AttemptTable) : Prop :=
  ∀ limit : ℤ, 1 ≤ limit → ∃ listed, findStaleRunning now limit attempts = .ok listed ∧
    listed.Nodup ∧
    (∀ row ∈ listed, row ∈ attempts.rows ∧ row.state = .running ∧ isOver now row = true) ∧
    listed.length = min limit.toNat
      (attempts.rows.countP fun row => row.state = .running && isOver now row)

/-- No lease is misordered that a query looks at, and no running attempt with a receipt has
a lease that is over. -/
structure InOrder (now : AwareTime) (attempts : AttemptTable) : Prop where
  leased : ∀ row ∈ attempts.rows, row.state = .leased →
    ∀ lease, leaseTime? row = some lease → ¬DateTime.Misordered now.val lease
  running : ∀ row ∈ attempts.rows, row.state = .running → row.receiptId.getD "" = "" →
    ∀ lease, leaseTime? row = some lease → ¬DateTime.Misordered now.val lease
  received : ∀ row ∈ attempts.rows, row.state = .running → row.receiptId.getD "" ≠ "" →
    ∀ lease, leaseTime? row = some lease → now.val.instant < lease.instant

section Attempts

variable {now : AwareTime} {attempts : AttemptTable}

theorem isOver_eq_isOverAsText_iff (haware : HasAwareLeases attempts) {row : AttemptRow}
    (hrow : row ∈ attempts.rows) :
    isOverAsText now row = isOver now row ↔
      ∀ lease, leaseTime? row = some lease → ¬DateTime.Misordered now.val lease := by
  rw [isOverAsText, isOver, leaseTime?]
  cases htext : row.leaseExpiresAt with
  | none => simp
  | some text =>
      obtain ⟨lease, rfl⟩ := haware row hrow text htext
      have horder := DateTime.isoText_lt_iff_iff now.property lease.property
      have hread : DateTime.fromisoformat lease.val.isoText.toList = some lease.val := by
        rw [DateTime.isoText, String.toList_ofList, DateTime.fromisoformat_isoformat]
      rw [Option.any_some, Option.bind_some, hread, Option.any_some, decide_eq_decide,
        ← not_lt, ← not_lt, not_iff_not, horder]
      simp

theorem timedOut_ne_self {row : AttemptRow} (hleased : row.state = .leased) :
    row.timedOut now ≠ row := by
  intro hsame
  have hstate : ExecutionAttemptState.timedOut = row.state := congrArg AttemptRow.state hsame
  rw [hleased] at hstate
  cases hstate

theorem timesOutOverdue_iff_forall : TimesOutOverdue now attempts ↔
    ∀ row ∈ attempts.rows, row.state = .leased → isOverAsText now row = isOver now row := by
  obtain ⟨after, hexpired, hkept⟩ := exists_expireLeases now attempts
  constructor
  · rintro ⟨expired, last, hrun, -, hlast⟩ row hrow hleased
    rw [hexpired] at hrun
    obtain rfl : after = last := (Prod.mk.inj hrun).2
    have hsame := (hkept row hrow).symm.trans (hlast row hrow)
    simp only [hleased, true_and, Option.some.injEq] at hsame
    rw [Bool.eq_iff_iff]
    by_contra hdiffers
    rw [not_iff] at hdiffers
    by_cases hover : isOver now row = true
    · rw [if_pos hover, if_neg (by tauto)] at hsame
      exact timedOut_ne_self hleased hsame.symm
    · rw [if_neg hover, if_pos (by tauto)] at hsame
      exact timedOut_ne_self hleased hsame
  · intro hsame
    refine ⟨_, after, hexpired, fun row => ?_, fun row hrow => ?_⟩
    · simp only [List.mem_map, List.mem_filter, Bool.and_eq_true, decide_eq_true_eq, and_assoc]
      refine exists_congr fun old => and_congr_right fun hold => and_congr_right fun hleased => ?_
      rw [hsame old hold hleased]
    · rw [hkept row hrow]
      by_cases hleased : row.state = .leased
      · rw [hsame row hrow hleased]
      · rw [if_neg fun hboth => hleased hboth.1, if_neg fun hboth => hleased hboth.1]

/-- The rows that pass one test are those that pass another if they are as many and pass
the other as well. -/
theorem filter_eq_of_countP_eq {Row : Type*} {rows : List Row} {first second : Row → Bool}
    (hthrough : ∀ row ∈ rows, first row = true → second row = true)
    (hcount : rows.countP first = rows.countP second) : rows.filter first = rows.filter second := by
  have htwice : (rows.filter second).filter first = rows.filter first := by
    rw [List.filter_filter]
    refine List.filter_congr fun row hrow => ?_
    rw [Bool.eq_iff_iff, Bool.and_eq_true]
    exact ⟨And.left, fun hfirst => ⟨hfirst, hthrough row hrow hfirst⟩⟩
  rw [← htwice]
  refine List.filter_sublist.eq_of_length ?_
  rw [htwice, ← List.countP_eq_length_filter, ← List.countP_eq_length_filter, hcount]

theorem listsOverdue_iff_forall : ListsOverdue now attempts ↔
    ∀ row ∈ attempts.rows, isStaleAsText now row =
      (row.state = .running && isOver now row) := by
  have hrun : ∀ limit : ℤ, 1 ≤ limit → findStaleRunning now limit attempts =
      .ok (((attempts.rows.filter (isStaleAsText now)).insertionSort LeaseOrder).take
        limit.toNat) := fun limit hlimit => if_neg (by omega)
  constructor
  · intro hlists
    obtain ⟨listed, hlisted, -, hstale, hlength⟩ :=
      hlists (attempts.rows.length + 1) (by omega)
    have hall : ((attempts.rows.filter (isStaleAsText now)).insertionSort LeaseOrder).length ≤
        (attempts.rows.length + 1 : ℤ).toNat := by
      rw [List.length_insertionSort]
      have hfilter := List.length_filter_le (isStaleAsText now) attempts.rows
      omega
    rw [hrun _ (by omega), List.take_of_length_le hall] at hlisted
    obtain rfl := Except.ok.inj hlisted
    rw [List.length_insertionSort, ← List.countP_eq_length_filter] at hlength
    have hcount : attempts.rows.countP (isStaleAsText now) =
        attempts.rows.countP fun row => row.state = .running && isOver now row := by
      have hbound := @List.countP_le_length _
        (fun row => decide (row.state = .running) && isOver now row) attempts.rows
      omega
    have hsame := filter_eq_of_countP_eq (fun row hrow hfirst => by
      have hboth := hstale row ((List.mem_insertionSort LeaseOrder).mpr
        (List.mem_filter.mpr ⟨hrow, hfirst⟩))
      simp [hboth.2.1, hboth.2.2]) hcount
    intro row hrow
    have hmem : row ∈ attempts.rows.filter (isStaleAsText now) ↔
        row ∈ attempts.rows.filter fun row => row.state = .running && isOver now row := by
      rw [hsame]
    simp only [List.mem_filter, hrow, true_and] at hmem
    rw [Bool.eq_iff_iff]
    exact hmem
  · intro hsame limit hlimit
    have hperm := List.perm_insertionSort LeaseOrder (attempts.rows.filter (isStaleAsText now))
    refine ⟨_, hrun limit hlimit, ?_, fun row hrow => ?_, ?_⟩
    · have hnodup : attempts.rows.Nodup := attempts.primaryKey.of_map _
      exact (hperm.nodup_iff.mpr (hnodup.filter _)).sublist (List.take_sublist _ _)
    · obtain ⟨hmem, hstale⟩ := List.mem_filter.mp (hperm.mem_iff.mp (List.mem_of_mem_take hrow))
      rw [hsame row hmem] at hstale
      simp only [Bool.and_eq_true, decide_eq_true_eq] at hstale
      exact ⟨hmem, hstale⟩
    · rw [List.length_take, List.length_insertionSort, ← List.countP_eq_length_filter]
      congr 1
      refine List.countP_congr fun row hrow => ?_
      rw [hsame row hrow]

/-- Leases are compared as instants exactly if they are in order. -/
theorem comparesLeases_iff (haware : HasAwareLeases attempts) :
    TimesOutOverdue now attempts ∧ ListsOverdue now attempts ↔ InOrder now attempts := by
  rw [timesOutOverdue_iff_forall, listsOverdue_iff_forall]
  constructor
  · rintro ⟨hleased, hrunning⟩
    refine ⟨?_, ?_, ?_⟩
    · intro row hrow hstate
      exact (isOver_eq_isOverAsText_iff haware hrow).mp (hleased row hrow hstate)
    · intro row hrow hstate hreceipt
      refine (isOver_eq_isOverAsText_iff haware hrow).mp ?_
      have hsame := hrunning row hrow
      simpa [isStaleAsText, hstate, hreceipt] using hsame
    · intro row hrow hstate hreceipt lease hlease
      have hsame := hrunning row hrow
      simp only [isStaleAsText, hstate, hreceipt, decide_true, decide_false, Bool.and_false,
        Bool.true_and, isOver, hlease, Option.any_some] at hsame
      exact lt_of_not_ge (of_decide_eq_false hsame.symm)
  · rintro ⟨hleased, hrunning, hreceived⟩
    refine ⟨?_, ?_⟩
    · intro row hrow hstate
      exact (isOver_eq_isOverAsText_iff haware hrow).mpr (hleased row hrow hstate)
    · intro row hrow
      by_cases hstate : row.state = .running
      · by_cases hreceipt : row.receiptId.getD "" = ""
        · have hsame := (isOver_eq_isOverAsText_iff haware hrow).mpr
            (hrunning row hrow hstate hreceipt)
          simp [isStaleAsText, hstate, hreceipt, hsame]
        · have hnever : isOver now row = false := by
            rw [isOver, Option.any_eq_false]
            intro lease hlease
            simpa using hreceived row hrow hstate hreceipt lease hlease
          simp [isStaleAsText, hreceipt, hnever]
      · simp [isStaleAsText, hstate]

end Attempts

/-! ## Deadlines and leases -/

/-- No deadline of an active round is misordered, unless its spelling makes up for it, and
none is moved by its spelling alone. -/
def RoundsInOrder (now : Now) (point : DateTime) (rounds : RoundTable) : Prop :=
  ∀ nowText, now.text? = some nowText → ∀ row ∈ rounds.rows, row.status.isActive = true →
    ∀ deadline, awareTime? row.disclosureDeadline = some deadline →
      (Respelled row.disclosureDeadline nowText deadline point ↔
        DateTime.Misordered deadline point)

theorem answersOverdue_iff_roundsInOrder {now : Now} {point : DateTime} {rounds : RoundTable}
    (hpoint : now.time? = some point)
    (hdeadlines : ∀ row ∈ rounds.rows, row.status.isActive = true →
      ∃ deadline, awareTime? row.disclosureDeadline = some deadline) :
    AnswersOverdue now point rounds ↔ RoundsInOrder now point rounds := by
  obtain ⟨haware, nowText, hnowText⟩ := exists_text_of_time? hpoint
  rw [answersOverdue_iff hnowText haware hdeadlines, RoundsInOrder, hnowText]
  simp

/-- The queries for what is over compare instants exactly if deadlines and leases are in
order. -/
theorem queries_compareInstants_iff (rounds : RoundTable) (now : Now) (point : DateTime)
    (calls : List Call) (storeNow : AwareTime) (hpoint : now.time? = some point)
    (hdeadlines : ∀ row ∈ rounds.rows, row.status.isActive = true →
      ∃ deadline, awareTime? row.disclosureDeadline = some deadline) :
    (AnswersOverdue now point rounds ∧ TimesOutOverdue storeNow (run step Table.empty calls) ∧
      ListsOverdue storeNow (run step Table.empty calls)) ↔
      RoundsInOrder now point rounds ∧ InOrder storeNow (run step Table.empty calls) := by
  rw [answersOverdue_iff_roundsInOrder hpoint hdeadlines,
    comparesLeases_iff (hasAwareLeases_run calls)]

/-! ### Times of one offset -/

theorem text?_time (value : DateTime) : (Now.time value).text? = some value.isoText := by
  have hlast : value.isoText.toList.getLast? ≠ some 'Z' := by
    intro hzulu
    have hmarks := List.all_eq_true.mp value.all_isTimeMark_isoformat
    rw [DateTime.isoText, String.toList_ofList] at hzulu
    exact absurd (hmarks 'Z' (List.mem_of_getLast? hzulu)) (by decide)
  rw [Now.text?, replaceFinalZulu, if_neg hlast]

theorem time?_time (time : AwareTime) : (Now.time time.val).time? = some time.val :=
  if_pos time.property

theorem awareTime?_isoText (time : AwareTime) : awareTime? time.val.isoText = some time.val := by
  rw [awareTime?, DateTime.isoText, String.toList_ofList, RoundTransparency.replaceZulu_isoformat,
    DateTime.fromisoformat_isoformat, Option.filter_some, if_pos time.property]

/-- A deadline that `isoformat` wrote, also that of an extension, is not respelled. -/
theorem not_respelled_isoText (deadline point : DateTime) :
    ¬Respelled deadline.isoText point.isoText deadline point :=
  not_not_intro Iff.rfl

namespace Sample

def time (hour : ℕ) (hhour : hour < 24) (offset : Offset) : AwareTime :=
  ⟨⟨⟨2026, 10, 5, Date.year_range_2026, by decide, by decide⟩, ⟨hour, 0, 0, 0⟩, some offset,
    ⟨hhour, Nat.succ_pos _, Nat.succ_pos _, Nat.succ_pos _⟩⟩, rfl⟩

/-- Two hours ahead of UTC. -/
def ahead : Offset := ⟨7200000000, by decide⟩

def noon : AwareTime := time 12 (by decide) ahead

def eleven : AwareTime := time 11 (by decide) .utc

def row (deadline : AwareTime) : RoundRow :=
  RoundRow.opened "round-1" "case-1" "source_pattern" "2026-10-01T00:00:00+00:00"
    deadline.val.isoText

/-- One open round. -/
def rounds (deadline : AwareTime) : RoundTable where
  rows := [row deadline]
  primaryKey := List.nodup_singleton _
  uniqueColumn := List.nodup_singleton _

theorem exists_awareTime (deadline : AwareTime) : ∀ round ∈ (rounds deadline).rows,
    round.status.isActive = true →
      ∃ time, awareTime? round.disclosureDeadline = some time := by
  intro round hround _
  obtain rfl : round = row deadline := List.mem_singleton.mp hround
  exact ⟨deadline.val, awareTime?_isoText deadline⟩

theorem roundsInOrder_iff (deadline point : AwareTime) :
    RoundsInOrder (.time point.val) point.val (rounds deadline) ↔
      ¬DateTime.Misordered deadline.val point.val := by
  have htime := awareTime?_isoText deadline
  have hspelled := not_respelled_isoText deadline.val point.val
  constructor
  · intro hinOrder hmisordered
    exact hspelled ((hinOrder _ (text?_time point.val) (row deadline) List.mem_cons_self rfl
      deadline.val htime).mpr hmisordered)
  · intro hnot nowText hnowText round hround _ time hdeadline
    obtain rfl : round = row deadline := List.mem_singleton.mp hround
    obtain rfl : point.val.isoText = nowText :=
      Option.some.inj ((text?_time point.val).symm.trans hnowText)
    obtain rfl : deadline.val = time := Option.some.inj (htime.symm.trans hdeadline)
    exact iff_of_false hspelled hnot

/-- An attempt is created and leased. -/
def calls : List Call :=
  [.create "task-1" "grant-1" "intent-1" "key-1" eleven false "1",
    .transition "attempt_1" .leased eleven {}]

/-- Five minutes after eleven. -/
def lease : DateTime :=
  ⟨⟨2026, 10, 5, Date.year_range_2026, by decide, by decide⟩, ⟨11, 5, 0, 0⟩, some .utc, by decide⟩

theorem leaseTime?_calls : ∀ attempt ∈ (run step Table.empty calls).rows,
    attempt.state = .leased ∧ leaseTime? attempt = some lease := by
  have hrows : (run step Table.empty calls).rows.map (fun attempt =>
      (attempt.state, attempt.leaseExpiresAt)) = [(.leased, some lease.isoText)] := by
    decide +kernel
  intro attempt hattempt
  have hpair := List.mem_singleton.mp (hrows ▸ List.mem_map_of_mem hattempt)
  obtain ⟨hstate, hlease⟩ := Prod.mk.inj hpair
  refine ⟨hstate, ?_⟩
  rw [leaseTime?, hlease, Option.bind_some, DateTime.isoText, String.toList_ofList,
    DateTime.fromisoformat_isoformat]

end Sample

/-- A deadline of two hours ahead of UTC is not overdue at the hour before it in UTC. -/
theorem not_answersOverdue_ahead :
    ¬∀ (rounds : RoundTable) (now : Now) (point : DateTime), now.time? = some point →
      (∀ row ∈ rounds.rows, row.status.isActive = true →
        ∃ deadline, awareTime? row.disclosureDeadline = some deadline) →
          AnswersOverdue now point rounds := by
  intro hall
  have hanswers := hall (Sample.rounds Sample.noon) (.time Sample.eleven.val) Sample.eleven.val
    (time?_time Sample.eleven) (Sample.exists_awareTime Sample.noon)
  rw [answersOverdue_iff_roundsInOrder (time?_time Sample.eleven)
    (Sample.exists_awareTime Sample.noon), Sample.roundsInOrder_iff] at hanswers
  exact hanswers (by decide)

/-- Where all clocks show UTC, the queries compare instants. -/
theorem queries_compareInstants_utc :
    AnswersOverdue (.time Sample.eleven.val) Sample.eleven.val (Sample.rounds Sample.eleven) ∧
      TimesOutOverdue Sample.eleven (run step Table.empty Sample.calls) ∧
        ListsOverdue Sample.eleven (run step Table.empty Sample.calls) := by
  refine (queries_compareInstants_iff (Sample.rounds Sample.eleven) (.time Sample.eleven.val)
    Sample.eleven.val Sample.calls Sample.eleven (time?_time Sample.eleven)
    (Sample.exists_awareTime Sample.eleven)).mpr ⟨?_, ?_, ?_, ?_⟩
  · exact (Sample.roundsInOrder_iff Sample.eleven Sample.eleven).mpr (by decide)
  · intro attempt hattempt _ lease hlease
    have hcalls := Sample.leaseTime?_calls attempt hattempt
    obtain rfl : Sample.lease = lease := Option.some.inj (hcalls.2.symm.trans hlease)
    decide
  · intro attempt hattempt hrunning
    have hcalls := Sample.leaseTime?_calls attempt hattempt
    rw [hcalls.1] at hrunning
    cases hrunning
  · intro attempt hattempt hrunning
    have hcalls := Sample.leaseTime?_calls attempt hattempt
    rw [hcalls.1] at hrunning
    cases hrunning

end AegisForge.Shared.Deadlines
