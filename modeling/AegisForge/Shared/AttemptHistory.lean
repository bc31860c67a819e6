import AegisForge.Concurrency.Safety
import AegisForge.Core.Numbering
import AegisForge.Shared.Effects
import AegisForge.Shared.ExecutionSystem

/-!
# The history of execution attempts

Any number of connections create attempts, move them and expire their leases.
A creation reads the latest attempt of its key long before it inserts, so the
numbering rests on two facts about what it read: a terminal attempt stays as it
is, and an attempt never changes its key and number.
-/

namespace AegisForge.Shared.AttemptHistory

open AegisForge.Core AegisForge.Concurrency

/-! ## The calls -/

inductive AttemptCall
  | create (taskId grantId intentHash idempotencyKey : String) (now : Option Time)
      (retry : Bool) (uuid : String)
  | transition (attemptId : String) (newState : ExecutionAttemptState)
      (now : Option Time) (fields : ExecutionAttemptStore.TransitionFields)
  | expireLeases (now : Option Time)
  | advanceClock (elapsed : ℕ)

/-- The calls, which answer the attempts that they created or moved. -/
def AttemptCall.body : AttemptCall → Action (List ExecutionAttempt)
  | create taskId grantId intentHash idempotencyKey now retry uuid => do
      let attempt ← ExecutionAttemptStore.create taskId grantId intentHash idempotencyKey
        now retry uuid
      pure [attempt]
  | transition attemptId newState now fields => do
      let attempt ← ExecutionAttemptStore.transition attemptId newState now fields
      pure [attempt]
  | expireLeases now => ExecutionAttemptStore.expireLeases now
  | advanceClock elapsed => do
      let _ ← send (.advanceClock elapsed)
      pure []

abbrev AttemptPool : Type :=
  Pool AttemptCall Statement.Reply World Raised (List ExecutionAttempt)

/-- The pools that any interleaving reaches from a database. -/
abbrev Reachable (start : World) (pool : AttemptPool) : Prop :=
  Pool.Reaches execute AttemptCall.body .unrestricted (Pool.idle start) pool

/-! ## The state sequence of an attempt -/

def stateOf (attemptId : String) (world : World) : Option ExecutionAttemptState :=
  (world.attempts.lookup attemptId).map ExecutionAttempt.state

/-- The states of an attempt after every statement of a history, newest first. -/
def states (attemptId : String) (history : History Statement World) :
    List ExecutionAttemptState :=
  (history.store :: history.trace.map Event.found).filterMap (stateOf attemptId)

/-- A path of allowed transitions from `AUTHORIZED`, newest state first; a state
may be seen again before the next one. -/
def IsPath : List ExecutionAttemptState → Prop
  | [] => True
  | [first] => first = .authorized
  | later :: earlier :: rest =>
      (later = earlier ∨ later ∈ earlier.allowed) ∧ IsPath (earlier :: rest)

theorem stateOf_execute {attemptId : String} {world : World}
    {earlier : ExecutionAttemptState} (hearlier : stateOf attemptId world = some earlier)
    (statement : Statement) :
    ∃ later, stateOf attemptId (execute statement world).2 = some later ∧
      (later = earlier ∨ later ∈ earlier.allowed) := by
  obtain ⟨row, hrow, rfl⟩ := Option.map_eq_some_iff.mp hearlier
  refine ⟨_, ?_, attemptEffect_state attemptId row statement⟩
  rw [stateOf, lookup_attempts_execute hrow]
  rfl

theorem stateOf_execute_of_none {attemptId : String} {statement : Statement}
    {world : World} (hnone : stateOf attemptId world = none)
    {first : ExecutionAttemptState}
    (hfirst : stateOf attemptId (execute statement world).2 = some first) :
    first = .authorized := by
  obtain ⟨row, hrow, rfl⟩ := Option.map_eq_some_iff.mp hfirst
  obtain ⟨attempt, -, rfl⟩ := insertAttempt_of_lookup (Option.map_eq_none_iff.mp hnone) hrow
  rfl

theorem states_cons (attemptId : String) (store : World) (event : Event Statement World)
    (earlier : List (Event Statement World)) :
    states attemptId ⟨store, event :: earlier⟩ =
      match stateOf attemptId store with
      | none => states attemptId ⟨event.found, earlier⟩
      | some state => state :: states attemptId ⟨event.found, earlier⟩ := by
  cases hstate : stateOf attemptId store <;> simp [states, hstate]

/-- The current state of an attempt comes first, and before the attempt exists
there is none. -/
theorem states_of_chained {attemptId : String} {start : World}
    (hstart : start.attempts = .empty) {trace : List (Event Statement World)}
    {store : World} (hchained : Chained execute start trace store) :
    (states attemptId ⟨store, trace⟩).head? = stateOf attemptId store ∧
      IsPath (states attemptId ⟨store, trace⟩) := by
  have hnone : stateOf attemptId start = none := by
    rw [stateOf, hstart]
    rfl
  induction trace generalizing store with
  | nil =>
      have hsame : store = start := hchained
      rw [hsame]
      simp [states, hnone, IsPath]
  | cons event earlier ih =>
      obtain ⟨rfl, hearlier⟩ := hchained
      obtain ⟨hhead, hpath⟩ := ih hearlier
      rw [states_cons]
      cases hfound : stateOf attemptId event.found with
      | none =>
          have hempty : states attemptId ⟨event.found, earlier⟩ = [] := by
            rw [← List.head?_eq_none_iff, hhead, hfound]
          rw [hempty]
          cases hafter : stateOf attemptId (event.after execute) with
          | none => exact ⟨rfl, trivial⟩
          | some first => exact ⟨rfl, stateOf_execute_of_none hfound hafter⟩
      | some before =>
          obtain ⟨later, hlater, hallowed⟩ := stateOf_execute hfound event.statement
          obtain ⟨rest, hrest⟩ : ∃ rest,
              states attemptId ⟨event.found, earlier⟩ = before :: rest := by
            rw [← List.head?_eq_some_iff, hhead, hfound]
          have hafter : stateOf attemptId (event.after execute) = some later := hlater
          rw [hafter, hrest]
          rw [hrest] at hpath
          exact ⟨rfl, hallowed, hpath⟩

/-! ## The numbering -/

/-- What an attempt of that key and number needs when it is inserted. -/
def Follows (idempotencyKey : String) (attemptNumber : ℕ) (world : World) : Prop :=
  attemptNumber = 1 ∨ ∃ previous ∈ world.attempts.rows,
    previous.idempotencyKey = idempotencyKey ∧
      previous.attemptNumber + 1 = attemptNumber ∧
        previous.state ∈ ExecutionAttemptState.terminal

/-- Every stored attempt follows another one. -/
def AttemptsNumbered (world : World) : Prop :=
  Numbered ExecutionAttempt.idempotencyKey ExecutionAttempt.attemptNumber
    (fun row => row.state ∈ ExecutionAttemptState.terminal) world.attempts.rows

theorem lookup_terminal_execute {attemptId : String} {row : ExecutionAttempt}
    {world : World} (hrow : world.attempts.lookup attemptId = some row)
    (hterminal : row.state ∈ ExecutionAttemptState.terminal) (statement : Statement) :
    (execute statement world).2.attempts.lookup attemptId = some row := by
  rw [lookup_attempts_execute hrow, attemptEffect_of_terminal hterminal]

theorem Follows.execute {idempotencyKey : String} {attemptNumber : ℕ} {world : World}
    (hfollows : Follows idempotencyKey attemptNumber world) (statement : Statement) :
    Follows idempotencyKey attemptNumber (Shared.execute statement world).2 := by
  rcases hfollows with hfirst | ⟨previous, hmem, hkey, hnumber, hterminal⟩
  · exact Or.inl hfirst
  · have hrow := Table.lookup_of_mem hmem
    have hkept := lookup_terminal_execute hrow hterminal statement
    exact Or.inr ⟨previous, Table.mem_of_lookup hkept, hkey, hnumber, hterminal⟩

/-- What must be known before a statement keeps the numbering. -/
def Prepared (statement : Statement) (world : World) : Prop :=
  ∀ attempt, statement = .insertAttempt attempt →
    Follows attempt.idempotencyKey attempt.attemptNumber world

theorem prepared_of_isOrdinary {statement : Statement} {world : World}
    (hordinary : statement.isOrdinary = true) : Prepared statement world := by
  rintro attempt rfl
  cases hordinary

theorem AttemptsNumbered.execute {statement : Statement} {world : World}
    (hnumbered : AttemptsNumbered world) (hprepared : Prepared statement world) :
    AttemptsNumbered (Shared.execute statement world).2 := by
  intro row hrow
  have hlookup := Table.lookup_of_mem hrow
  suffices hfollows : Follows row.idempotencyKey row.attemptNumber world from
    hfollows.execute statement
  cases hold : world.attempts.lookup row.attemptId with
  | none =>
      obtain ⟨attempt, hinsert, rfl⟩ := insertAttempt_of_lookup hold hlookup
      exact hprepared attempt hinsert
  | some old =>
      rw [lookup_attempts_execute hold, Option.some.injEq] at hlookup
      have hsame : row.keyNumber = old.keyNumber := by
        rw [← hlookup]
        exact attemptEffect_keyNumber _ _ _
      obtain ⟨hkey, hnumber⟩ := Prod.mk.injEq _ _ _ _ |>.mp hsame
      rw [hkey, hnumber]
      exact hnumbered old (Table.mem_of_lookup hold)

/-! ## Creating an attempt -/

theorem mem_of_latestAttempt {rows : List ExecutionAttempt} {idempotencyKey : String}
    {row : ExecutionAttempt} (hlatest : latestAttempt rows idempotencyKey = some row) :
    row ∈ rows ∧ row.idempotencyKey = idempotencyKey := by
  have hheld : ∀ found, latestAttempt rows idempotencyKey = some found →
      found ∈ rows.filter fun row => row.idempotencyKey = idempotencyKey := by
    rw [latestAttempt]
    apply List.foldlRecOn (motive := fun best => ∀ found, best = some found →
      found ∈ rows.filter fun row => row.idempotencyKey = idempotencyKey)
    · simp
    · intro best hbest head hhead found hfound
      cases best with
      | none => exact Option.some.inj hfound ▸ hhead
      | some latest =>
          dsimp only at hfound
          split at hfound
          · exact Option.some.inj hfound ▸ hhead
          · exact hbest found hfound
  simpa using hheld row hlatest

def rules : Rules execute :=
  Rules.ofInvariant execute (fun history => AttemptsNumbered history.store)
    (fun _ _ _ => True) (fun _ statement history => Prepared statement history.store)
    fun hnumbered _ hprepared => hnumbered.execute hprepared

variable {history later : History Statement World} {process : ℕ}

theorem safe_of_ordinary {Value : Type} {action : Action Value}
    (hwithin : action.Within fun statement => statement.isOrdinary = true) :
    rules.Safe process (fun _ _ => True) (fun _ _ => True) action history :=
  Rules.safe_of_within (fun _ _ hordinary _ _ => prepared_of_isOrdinary hordinary) hwithin

/-- Whatever number comes next after the attempt that was read can be inserted. -/
def Continues (idempotencyKey : String) (previous : Option ExecutionAttempt)
    (world : World) : Prop :=
  ∀ retry number, ExecutionAttemptStore.nextNumber previous retry = .ok number →
    Follows idempotencyKey number world

theorem continues_none (idempotencyKey : String) (world : World) :
    Continues idempotencyKey none world := by
  intro retry number hnumber
  exact Or.inl (Except.ok.inj hnumber).symm

theorem continues_some {idempotencyKey attemptId : String} {row : ExecutionAttempt}
    {world : World} (hrow : world.attempts.lookup attemptId = some row)
    (hkey : row.idempotencyKey = idempotencyKey) :
    Continues idempotencyKey (some row) world := by
  intro retry number hnumber
  rw [ExecutionAttemptStore.nextNumber] at hnumber
  split at hnumber
  case isTrue => cases hnumber
  case isFalse hterminal =>
    split at hnumber
    · cases hnumber
    · exact Or.inr ⟨row, Table.mem_of_lookup hrow, hkey, Except.ok.inj hnumber,
        Decidable.not_not.mp hterminal⟩

theorem Continues.execute {idempotencyKey : String} {previous : Option ExecutionAttempt}
    {world : World} (hcontinues : Continues idempotencyKey previous world)
    (statement : Statement) :
    Continues idempotencyKey previous (Shared.execute statement world).2 :=
  fun retry number hnumber => (hcontinues retry number hnumber).execute statement

/-- The attempt with that id has that key. -/
def HasKey (attemptId idempotencyKey : String) (world : World) : Prop :=
  ∃ row, world.attempts.lookup attemptId = some row ∧ row.idempotencyKey = idempotencyKey

theorem HasKey.execute {attemptId idempotencyKey : String} {world : World}
    (hhas : HasKey attemptId idempotencyKey world) (statement : Statement) :
    HasKey attemptId idempotencyKey (Shared.execute statement world).2 := by
  obtain ⟨row, hrow, hkey⟩ := hhas
  refine ⟨_, lookup_attempts_execute hrow statement, ?_⟩
  rw [← hkey]
  exact congrArg Prod.fst (attemptEffect_keyNumber attemptId row statement)

theorem safe_findByIdempotencyKey (idempotencyKey : String) :
    rules.Safe process
      (fun previous last => Continues idempotencyKey previous last.store) (fun _ _ => True)
      (ExecutionAttemptStore.findByIdempotencyKey idempotencyKey) history := by
  apply Rules.Safe.call
  intro reading _ _ _
  refine ⟨prepared_of_isOrdinary rfl, ?_⟩
  have hreply : (execute (.selectLatestAttemptId idempotencyKey) reading.store).1 =
      (latestAttempt reading.store.attempts.rows idempotencyKey).map
        ExecutionAttempt.attemptId := rfl
  rw [hreply]
  cases hlatest : latestAttempt reading.store.attempts.rows idempotencyKey with
  | none => exact fun last _ _ => continues_none idempotencyKey last.store
  | some latest =>
      obtain ⟨hmem, hlatestKey⟩ := mem_of_latestAttempt hlatest
      have hhas : HasKey latest.attemptId idempotencyKey reading.store :=
        ⟨latest, Table.lookup_of_mem hmem, hlatestKey⟩
      -- the attempt may have moved on before it is read, but its key has not
      intro again hagain _ _
      have hstill : HasKey latest.attemptId idempotencyKey again.store :=
        Rules.kept_of_interferes (HasKey latest.attemptId idempotencyKey)
          (fun statement _ hlast => hlast.execute statement) hagain hhas
      refine ⟨prepared_of_isOrdinary rfl, ?_⟩
      obtain ⟨row, hrow, hkey⟩ := hstill
      have hread : (execute (.selectAttempt latest.attemptId) again.store).1 = some row := hrow
      rw [hread]
      intro last hlast _
      exact Rules.kept_of_interferes (Continues idempotencyKey (some row))
        (fun statement _ hlast => hlast.execute statement) hlast (continues_some hrow hkey)

theorem safe_create (taskId grantId intentHash idempotencyKey : String)
    (now : Option Time) (retry : Bool) (uuid : String)
    (hnumbered : AttemptsNumbered history.store) :
    rules.Safe process (fun _ _ => True) (fun _ _ => True)
      (ExecutionAttemptStore.create taskId grantId intentHash idempotencyKey now retry uuid)
      history := by
  apply Rules.Safe.raiseIf (fun _ _ _ _ => trivial)
  intro _
  apply Rules.Safe.raiseIf (fun _ _ _ _ => trivial)
  intro _
  apply Rules.Safe.raiseIf (fun _ _ _ _ => trivial)
  intro _
  apply Rules.Safe.raiseIf (fun _ _ _ _ => trivial)
  intro _
  have hclock : (currentTime now).Within fun statement => statement.isOrdinary = true :=
    within_currentTime (fun _ hordinary => hordinary) now
  apply (safe_of_ordinary hclock).andThen _ (fun _ _ _ _ => trivial) hnumbered
  intro created timed htimed _
  apply (safe_findByIdempotencyKey idempotencyKey).andThen _ (fun _ _ _ _ => trivial) htimed
  intro previous read _ hcontinues
  apply Rules.Safe.ofExcept (fun _ _ _ _ _ => trivial)
  intro number hnumber
  apply Rules.Safe.call
  intro inserting hrely _ _
  have hready : Follows idempotencyKey number inserting.store :=
    Rules.kept_of_interferes (Follows idempotencyKey number)
      (fun statement _ hlast => hlast.execute statement) hrely
      (hcontinues retry number hnumber)
  constructor
  · rintro attempt hattempt
    cases hattempt
    exact hready
  · split <;> exact fun _ _ _ => trivial

theorem safe_body (call : AttemptCall) (hnumbered : AttemptsNumbered history.store) :
    rules.Safe process (fun _ _ => True) (fun _ _ => True) call.body history := by
  cases call with
  | create taskId grantId intentHash idempotencyKey now retry uuid =>
      apply (safe_create _ _ _ _ _ _ _ hnumbered).andThen _ (fun _ _ _ _ => trivial) hnumbered
      exact fun _ _ _ _ _ _ _ => trivial
  | transition attemptId newState now fields =>
      apply safe_of_ordinary
      apply (within_transition (fun _ hordinary => hordinary) _ _ _ _).bind
      exact fun _ => trivial
  | expireLeases now =>
      exact safe_of_ordinary (within_expireLeases (fun _ hordinary => hordinary) now)
  | advanceClock elapsed => exact safe_of_ordinary ⟨rfl, fun _ => trivial⟩

/-! ## Every interleaving -/

theorem attemptsNumbered_of_reachable {start : World} (hstart : start.attempts = .empty)
    {pool : AttemptPool} (hreachable : Reachable start pool) :
    AttemptsNumbered pool.history.store := by
  have hidle : rules.invariant ⟨start, []⟩ := by
    intro row hrow
    rw [show (⟨start, []⟩ : History Statement World).store.attempts.rows = [] by
      rw [hstart]; rfl] at hrow
    cases hrow
  have hsound : Rules.Sound rules
      (fun _ (_ : AttemptCall) (_ : List ExecutionAttempt) _ => True)
      (fun _ _ _ _ => True) pool := by
    apply Rules.Sound.reaches _ _ (Rules.Sound.idle hidle) hreachable
    · exact fun _ _ _ _ => trivial
    · intro before call _ hnumbered _
      exact safe_body call hnumbered
  exact hsound.invariant

/-- The attempts of a key are numbered without gaps, all but the last of them
are terminal, a terminal attempt stays as it was, and the states of an attempt
are a path of allowed transitions. -/
theorem attempt_history {start : World} (hstart : start.attempts = .empty)
    {pool : AttemptPool} (hreachable : Reachable start pool) :
    (∀ idempotencyKey, ∃ count,
      ((pool.history.store.attempts.rows.filter fun row =>
        row.idempotencyKey = idempotencyKey).map
          ExecutionAttempt.attemptNumber).Perm (List.range' 1 count) ∧
      ∀ row ∈ pool.history.store.attempts.rows, row.idempotencyKey = idempotencyKey →
        row.attemptNumber ≠ count → row.state ∈ ExecutionAttemptState.terminal) ∧
    (∀ event ∈ pool.history.trace, ∀ attemptId row,
      event.found.attempts.lookup attemptId = some row →
        row.state ∈ ExecutionAttemptState.terminal →
          pool.history.store.attempts.lookup attemptId = some row) ∧
    ∀ attemptId,
      (states attemptId pool.history).head? = stateOf attemptId pool.history.store ∧
        IsPath (states attemptId pool.history) := by
  have hchained : Chained execute start pool.history.trace pool.history.store :=
    hreachable.chained rfl
  refine ⟨fun idempotencyKey => ?_, fun event hevent attemptId row hrow hterminal => ?_,
    fun attemptId => states_of_chained hstart hchained⟩
  · exact (attemptsNumbered_of_reachable hstart hreachable).perm_range
      pool.history.store.attempts.uniqueColumn idempotencyKey
  · have hkept : ∀ statement world, world.attempts.lookup attemptId = some row →
        (execute statement world).2.attempts.lookup attemptId = some row :=
      fun statement _ hworld => lookup_terminal_execute hworld hterminal statement
    exact Pool.kept_of_chained (fun world => world.attempts.lookup attemptId = some row)
      hkept hchained hevent hrow

/-- One key, a failed attempt and its retry, and a third caller that is too late. -/
def retriedMoves : List (Move AttemptCall) :=
  [.start (.create "task-1" "grant-1" "hash-1" "key-1" none false "a"),
    .start (.transition "attempt_a" .aborted none {}),
    .start (.create "task-1" "grant-2" "hash-1" "key-1" none true "b"),
    .start (.create "task-1" "grant-3" "hash-1" "key-1" none true "c")] ++
    [(0, 3), (1, 4), (2, 3), (3, 4), (2, 1)].flatMap fun turn : ℕ × ℕ =>
      List.replicate turn.2 (.advance turn.1)

theorem attempt_history_retriedMoves :
    IsPath (states "attempt_a" ((Pool.idle (World.initial 0) : AttemptPool).run execute
      AttemptCall.body retriedMoves).history) := by
  have hstart : (World.initial 0).attempts = .empty := rfl
  exact ((attempt_history hstart (Pool.reaches_run _ retriedMoves)).2.2 "attempt_a").2

end AegisForge.Shared.AttemptHistory
