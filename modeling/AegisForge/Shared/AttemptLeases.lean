import Mathlib.Data.Prod.Lex
import Mathlib.Data.String.Basic
import AegisForge.Core.IsoOrder
import AegisForge.Core.Runs
import AegisForge.Shared.ExecutionAttempt
import AegisForge.Shared.RetryTakeover

/-!
# Leases of execution attempts

The attempt store on the rows as they are stored, with their times as texts.  A
lease is written by `isoformat` with the offset of the caller's clock, and the
queries for leases that are over compare it with another such text.
-/

namespace AegisForge.Shared.AttemptLeases

open AegisForge.Core
open ExecutionAttemptStore (attemptError TransitionFields)
open RetryTakeover (addSeconds?)

/-! ## Rows -/

/-- A time with an offset. -/
abbrev AwareTime := { time : DateTime // time.offset.isSome = true }

/-- A row of `execution_attempts`. -/
structure AttemptRow where
  attemptId : String
  taskId : String
  grantId : String
  intentHash : String
  idempotencyKey : String
  attemptNumber : ℕ
  state : ExecutionAttemptState
  createdAt : String
  leaseExpiresAt : Option String := none
  startedAt : Option String := none
  finishedAt : Option String := none
  executorId : Option String := none
  executorVersion : Option String := none
  executorIdentityEpoch : ℕ := 0
  receiptId : Option String := none
  error : Option String := none
  deriving DecidableEq

/-- The unique index on `(idempotency_key, attempt_number)`. -/
def AttemptRow.keyNumber (row : AttemptRow) : String × ℕ := (row.idempotencyKey, row.attemptNumber)

abbrev AttemptTable := Table AttemptRow.attemptId AttemptRow.keyNumber

/-- `COALESCE(NULLIF(given, ''), held)`. -/
def orHeld (given : String) (held : Option String) : Option String :=
  if given = "" then held else some given

/-- The row after the `UPDATE` of `transition`. -/
def AttemptRow.transitioned (newState : ExecutionAttemptState) (lease : Option String)
    (now : AwareTime) (fields : TransitionFields) (row : AttemptRow) : AttemptRow :=
  { row with
    state := newState
    leaseExpiresAt := lease
    startedAt :=
      if newState = .running ∧ row.startedAt.getD "" = "" then some now.val.isoText
      else row.startedAt
    finishedAt :=
      if newState ∈ ExecutionAttemptState.terminal then some now.val.isoText else row.finishedAt
    executorId := orHeld fields.executorId row.executorId
    executorVersion := orHeld fields.executorVersion row.executorVersion
    executorIdentityEpoch :=
      if 0 < fields.executorIdentityEpoch then fields.executorIdentityEpoch
      else row.executorIdentityEpoch
    receiptId := orHeld fields.receiptId row.receiptId
    error := orHeld fields.error row.error }

variable (newState : ExecutionAttemptState) (lease : Option String) (now : AwareTime)
variable (fields : TransitionFields)

theorem AttemptRow.attemptId_transitioned (row : AttemptRow) :
    (row.transitioned newState lease now fields).attemptId = row.attemptId := rfl

theorem AttemptRow.keyNumber_transitioned (row : AttemptRow) :
    (row.transitioned newState lease now fields).keyNumber = row.keyNumber := rfl

/-! ## Calls -/

/-- The latest attempt of an idempotency key. -/
def findByIdempotencyKey (idempotencyKey : String) (attempts : AttemptTable) : Option AttemptRow :=
  ((attempts.rows.filter fun row => row.idempotencyKey = idempotencyKey).insertionSort
    fun left right => right.attemptNumber ≤ left.attemptNumber).head?

/-- The number of the next attempt, or why there is none. -/
def nextNumber (previous : Option AttemptRow) (retry : Bool) : Except Raised ℕ :=
  match previous with
  | none => .ok 1
  | some attempt =>
      if attempt.state ∉ ExecutionAttemptState.terminal then
        .error (attemptError "idempotency_key_active")
      else if retry = false then .error (attemptError "idempotency_key_reused")
      else .ok (attempt.attemptNumber + 1)

/-- `create`, where `uuid` is what `uuid.uuid4().hex` draws. -/
def create (taskId grantId intentHash idempotencyKey : String) (now : AwareTime) (retry : Bool)
    (uuid : String) (attempts : AttemptTable) : Except Raised AttemptRow × AttemptTable :=
  if taskId = "" then (.error (attemptError "task_id_required"), attempts)
  else if grantId = "" then (.error (attemptError "grant_id_required"), attempts)
  else if intentHash = "" then (.error (attemptError "intent_hash_required"), attempts)
  else if idempotencyKey = "" then (.error (attemptError "idempotency_key_required"), attempts)
  else
    match nextNumber (findByIdempotencyKey idempotencyKey attempts) retry with
    | .error error => (.error error, attempts)
    | .ok attemptNumber =>
        let attempt : AttemptRow := {
          attemptId := "attempt_" ++ uuid
          taskId := taskId
          grantId := grantId
          intentHash := intentHash
          idempotencyKey := idempotencyKey
          attemptNumber := attemptNumber
          state := .authorized
          createdAt := now.val.isoText }
        match attempts.insert? attempt with
        | some after => (.ok attempt, after)
        | none =>
            if attempt.keyNumber ∈ attempts.rows.map AttemptRow.keyNumber then
              (.error (attemptError "idempotency_key_reused"), attempts)
            else (.error ⟨.integrityError,
              "UNIQUE constraint failed: execution_attempts.attempt_id"⟩, attempts)

/-- The lease that a transition writes, which raises `OverflowError` on `none`. -/
def leaseAfter (current : AttemptRow) : Option (Option String) :=
  if newState = .leased then (addSeconds? now.val 300).map fun expires => some expires.isoText
  else some current.leaseExpiresAt

/-- `transition`. -/
def transition (attemptId : String) (newState : ExecutionAttemptState) (now : AwareTime)
    (fields : TransitionFields) (attempts : AttemptTable) :
    Except Raised AttemptRow × AttemptTable :=
  match attempts.lookup attemptId with
  | none => (.error (attemptError "attempt_not_found"), attempts)
  | some current =>
      if newState ∈ current.state.allowed then
        match leaseAfter newState now current with
        | none => (.error ⟨.overflowError, "date value out of range"⟩, attempts)
        | some lease =>
            (.ok (current.transitioned newState lease now fields),
              attempts.modify attemptId (AttemptRow.transitioned newState lease now fields)
                (AttemptRow.attemptId_transitioned newState lease now fields)
                (AttemptRow.keyNumber_transitioned newState lease now fields))
      else (.error (attemptError ("invalid_transition:" ++ current.state.value ++ "->" ++
        newState.value)), attempts)

/-- `lease_expires_at IS NOT NULL AND lease_expires_at <= ?`. -/
def isOverAsText (now : AwareTime) (row : AttemptRow) : Bool :=
  row.leaseExpiresAt.any fun expires => expires ≤ now.val.isoText

/-- The loop of `expire_leases`, which skips an attempt whose transition fails. -/
def expireEach (now : AwareTime) :
    List String → AttemptTable → Except Raised (List AttemptRow) × AttemptTable
  | [], attempts => (.ok [], attempts)
  | attemptId :: rest, attempts =>
      match transition attemptId .timedOut now {} attempts with
      | (.ok expired, after) =>
          let (others, last) := expireEach now rest after
          (others.map fun others => expired :: others, last)
      | (.error error, after) =>
          if error.cls = .executionAttemptError then expireEach now rest after
          else (.error error, after)

/-- `expire_leases`. -/
def expireLeases (now : AwareTime) (attempts : AttemptTable) :
    Except Raised (List AttemptRow) × AttemptTable :=
  expireEach now ((attempts.rows.filter fun row =>
    row.state = .leased && isOverAsText now row).map AttemptRow.attemptId) attempts

/-- `ORDER BY lease_expires_at ASC, attempt_id ASC`. -/
def LeaseOrder (left right : AttemptRow) : Prop :=
  toLex (left.leaseExpiresAt.getD "", left.attemptId) ≤
    toLex (right.leaseExpiresAt.getD "", right.attemptId)

instance : DecidableRel LeaseOrder := fun left right =>
  inferInstanceAs (Decidable (toLex (left.leaseExpiresAt.getD "", left.attemptId) ≤
    toLex (right.leaseExpiresAt.getD "", right.attemptId)))

/-- What `find_stale_running` selects. -/
def isStaleAsText (now : AwareTime) (row : AttemptRow) : Bool :=
  row.state = .running && isOverAsText now row && row.receiptId.getD "" = ""

/-- `find_stale_running`. -/
def findStaleRunning (now : AwareTime) (limit : ℤ) (attempts : AttemptTable) :
    Except Raised (List AttemptRow) :=
  if limit < 1 then .error (attemptError "limit_must_be_positive")
  else .ok (((attempts.rows.filter (isStaleAsText now)).insertionSort LeaseOrder).take limit.toNat)

/-! ## Runs -/

inductive Call
  | create (taskId grantId intentHash idempotencyKey : String) (now : AwareTime) (retry : Bool)
      (uuid : String)
  | transition (attemptId : String) (newState : ExecutionAttemptState) (now : AwareTime)
      (fields : TransitionFields)
  | expireLeases (now : AwareTime)

/-- The table after a call. -/
def step (attempts : AttemptTable) : Call → AttemptTable
  | .create taskId grantId intentHash idempotencyKey now retry uuid =>
      (create taskId grantId intentHash idempotencyKey now retry uuid attempts).2
  | .transition attemptId newState now fields =>
      (transition attemptId newState now fields attempts).2
  | .expireLeases now => (expireLeases now attempts).2

/-! ## Leases with an offset -/

/-- Every lease is the text of a time with an offset. -/
def HasAwareLeases (attempts : AttemptTable) : Prop :=
  ∀ row ∈ attempts.rows, ∀ text ∈ row.leaseExpiresAt, ∃ lease : AwareTime, text = lease.val.isoText

section Invariant

variable {attempts : AttemptTable}

theorem exists_of_leaseAfter {newState : ExecutionAttemptState} {now : AwareTime}
    {current : AttemptRow} {lease : Option String} {text : String}
    (hcurrent : ∀ text ∈ current.leaseExpiresAt, ∃ lease : AwareTime, text = lease.val.isoText)
    (hlease : leaseAfter newState now current = some lease) (htext : text ∈ lease) :
    ∃ lease : AwareTime, text = lease.val.isoText := by
  rw [leaseAfter] at hlease
  split at hlease
  case isTrue =>
    obtain ⟨expires, hexpires, rfl⟩ := Option.map_eq_some_iff.mp hlease
    rw [addSeconds?, Option.map_eq_some_iff] at hexpires
    obtain ⟨date, -, hvalue⟩ := hexpires
    have hoffset : expires.offset.isSome = true := by
      rw [← hvalue]
      exact now.property
    exact ⟨⟨expires, hoffset⟩, (Option.mem_some_iff.mp htext).symm⟩
  case isFalse =>
    obtain rfl := Option.some.inj hlease
    exact hcurrent text htext

theorem HasAwareLeases.transition (haware : HasAwareLeases attempts) (attemptId : String)
    (newState : ExecutionAttemptState) (now : AwareTime) (fields : TransitionFields) :
    HasAwareLeases (transition attemptId newState now fields attempts).2 := by
  rw [AttemptLeases.transition]
  cases hcurrent : attempts.lookup attemptId with
  | none => exact haware
  | some current =>
      dsimp only
      split
      case isFalse => exact haware
      case isTrue =>
        cases hlease : leaseAfter newState now current with
        | none => exact haware
        | some lease =>
            intro row hrow text htext
            dsimp only at hrow
            rcases Table.mem_modify.mp hrow with ⟨hrow, -⟩ | ⟨old, hold, rfl⟩
            · exact haware row hrow text htext
            · rw [hcurrent] at hold
              obtain rfl := Option.some.inj hold
              exact exists_of_leaseAfter (haware current (Table.mem_of_lookup hcurrent)) hlease htext

theorem HasAwareLeases.create (haware : HasAwareLeases attempts)
    (taskId grantId intentHash idempotencyKey : String) (now : AwareTime) (retry : Bool)
    (uuid : String) :
    HasAwareLeases (create taskId grantId intentHash idempotencyKey now retry uuid attempts).2 := by
  rw [AttemptLeases.create]
  split_ifs
  · exact haware
  · exact haware
  · exact haware
  · exact haware
  · cases nextNumber (findByIdempotencyKey idempotencyKey attempts) retry with
    | error error => exact haware
    | ok attemptNumber =>
        dsimp only
        split
        case h_1 after hinsert =>
          intro row hrow text htext
          rcases (Table.mem_insert? hinsert).mp hrow with hold | rfl
          · exact haware row hold text htext
          · cases htext
        case h_2 => split <;> exact haware

theorem HasAwareLeases.expireEach (now : AwareTime) (attemptIds : List String)
    (haware : HasAwareLeases attempts) :
    HasAwareLeases (expireEach now attemptIds attempts).2 := by
  induction attemptIds generalizing attempts with
  | nil => exact haware
  | cons attemptId rest ih =>
      have hafter := haware.transition attemptId .timedOut now {}
      rw [AttemptLeases.expireEach]
      rcases hrun : AttemptLeases.transition attemptId .timedOut now {} attempts with
        ⟨result, after⟩
      rw [hrun] at hafter
      cases result with
      | ok expired => exact ih hafter
      | error error =>
          dsimp only
          split
          · exact ih hafter
          · exact hafter

theorem HasAwareLeases.step (haware : HasAwareLeases attempts) (call : Call) :
    HasAwareLeases (step attempts call) := by
  cases call with
  | create taskId grantId intentHash idempotencyKey now retry uuid =>
      exact haware.create taskId grantId intentHash idempotencyKey now retry uuid
  | transition attemptId newState now fields =>
      exact haware.transition attemptId newState now fields
  | expireLeases now => exact haware.expireEach now _

/-- Whatever calls are made, every lease is the text of a time with an offset. -/
theorem hasAwareLeases_run (calls : List Call) :
    HasAwareLeases (run step Table.empty calls) := by
  have hempty : HasAwareLeases Table.empty := fun row hrow => absurd hrow List.not_mem_nil
  exact run_invariant hempty (fun attempts call haware => haware.step call) calls

end Invariant

/-! ## Expired leases -/

/-- The row of a leased attempt after its transition to `TIMED_OUT`. -/
def AttemptRow.timedOut (now : AwareTime) (row : AttemptRow) : AttemptRow :=
  row.transitioned .timedOut row.leaseExpiresAt now {}

section Expiry

variable {attempts : AttemptTable} (now : AwareTime)

/-- A leased attempt is timed out, and the others stay. -/
theorem exists_transition_timedOut {row : AttemptRow}
    (hrow : attempts.lookup row.attemptId = some row) (hleased : row.state = .leased) :
    ∃ after, transition row.attemptId .timedOut now {} attempts = (.ok (row.timedOut now), after) ∧
      ∀ other, after.lookup other =
        if other = row.attemptId then some (row.timedOut now) else attempts.lookup other := by
  have hallowed : ExecutionAttemptState.timedOut ∈ row.state.allowed := by
    rw [hleased]
    decide
  rw [transition, hrow]
  dsimp only
  rw [if_pos hallowed, leaseAfter, if_neg (by decide)]
  refine ⟨_, rfl, fun other => ?_⟩
  rw [Table.lookup_modify, hrow, Option.map_some]
  rfl

/-- Leased attempts are timed out one after the other. -/
theorem exists_expireEach {rows : List AttemptRow}
    (hnodup : (rows.map AttemptRow.attemptId).Nodup)
    (hrows : ∀ row ∈ rows, attempts.lookup row.attemptId = some row ∧ row.state = .leased) :
    ∃ after, expireEach now (rows.map AttemptRow.attemptId) attempts =
      (.ok (rows.map (AttemptRow.timedOut now)), after) ∧
        ∀ row ∈ attempts.rows, after.lookup row.attemptId =
          some (if row ∈ rows then row.timedOut now else row) := by
  have hlookup : ∃ after, expireEach now (rows.map AttemptRow.attemptId) attempts =
      (.ok (rows.map (AttemptRow.timedOut now)), after) ∧
        (∀ row ∈ rows, after.lookup row.attemptId = some (row.timedOut now)) ∧
          ∀ other ∉ rows.map AttemptRow.attemptId, after.lookup other = attempts.lookup other := by
    induction rows generalizing attempts with
    | nil => exact ⟨attempts, rfl, fun _ hmem => absurd hmem List.not_mem_nil, fun _ _ => rfl⟩
    | cons first rest ih =>
        rw [List.map_cons, List.nodup_cons] at hnodup
        obtain ⟨hfirst, hrest⟩ := List.forall_mem_cons.mp hrows
        obtain ⟨between, hrun, hbetween⟩ := exists_transition_timedOut now hfirst.1 hfirst.2
        have hothers : ∀ row ∈ rest, between.lookup row.attemptId = some row ∧
            row.state = .leased := by
          intro row hrow
          have hne : row.attemptId ≠ first.attemptId := fun hsame =>
            hnodup.1 (List.mem_map.mpr ⟨row, hrow, hsame⟩)
          rw [hbetween, if_neg hne]
          exact hrest row hrow
        obtain ⟨after, hexpired, hlisted, hkept⟩ := ih hnodup.2 hothers
        refine ⟨after, ?_, ?_, ?_⟩
        · rw [List.map_cons, expireEach, hrun]
          dsimp only
          rw [hexpired]
          rfl
        · rw [List.forall_mem_cons]
          refine ⟨?_, hlisted⟩
          rw [hkept first.attemptId hnodup.1, hbetween, if_pos rfl]
        · intro other hother
          rw [List.map_cons, List.mem_cons, not_or] at hother
          rw [hkept other hother.2, hbetween, if_neg hother.1]
  obtain ⟨after, hexpired, hlisted, hkept⟩ := hlookup
  refine ⟨after, hexpired, fun row hrow => ?_⟩
  by_cases hmem : row ∈ rows
  · rw [if_pos hmem]
    exact hlisted row hmem
  · rw [if_neg hmem, hkept]
    · exact Table.lookup_of_mem hrow
    · rintro hid
      obtain ⟨other, hother, hsame⟩ := List.mem_map.mp hid
      have hlooked := (hrows other hother).1
      rw [hsame, Table.lookup_of_mem hrow] at hlooked
      exact hmem (Option.some.inj hlooked ▸ hother)

/-- The leased attempts whose lease is over as a text are timed out. -/
theorem exists_expireLeases (attempts : AttemptTable) :
    ∃ after, expireLeases now attempts = (.ok ((attempts.rows.filter fun row =>
      row.state = .leased && isOverAsText now row).map (AttemptRow.timedOut now)), after) ∧
        ∀ row ∈ attempts.rows, after.lookup row.attemptId =
          some (if row.state = .leased ∧ isOverAsText now row = true then row.timedOut now
            else row) := by
  have hnodup : ((attempts.rows.filter fun row =>
      row.state = .leased && isOverAsText now row).map AttemptRow.attemptId).Nodup :=
    attempts.primaryKey.sublist (List.filter_sublist.map _)
  obtain ⟨after, hexpired, hkept⟩ := exists_expireEach now hnodup fun row hrow => by
    have hfiltered := List.mem_filter.mp hrow
    simp only [Bool.and_eq_true, decide_eq_true_eq] at hfiltered
    exact ⟨Table.lookup_of_mem hfiltered.1, hfiltered.2.1⟩
  refine ⟨after, hexpired, fun row hrow => ?_⟩
  rw [hkept row hrow]
  simp only [List.mem_filter, hrow, true_and, Bool.and_eq_true, decide_eq_true_eq]

end Expiry

end AegisForge.Shared.AttemptLeases
