import AegisForge.Concurrency.Pool
import AegisForge.Core.Table
import AegisForge.Shared.ResearchCase

/-!
# The registry of research cases

A registration looks for a stored payload and then inserts its own, which is
ignored when another one has come first.  The registration returns in either
case, so what it returned is true exactly if the insert met no other content.
-/

namespace AegisForge.Shared.ResearchCaseRegistry

open AegisForge.Core AegisForge.Concurrency

/-! ## The table -/

/-- A row of `research_cases`. -/
structure CaseRow where
  caseId : String
  payload : String
  deriving DecidableEq

abbrev CaseTable := Table CaseRow.caseId CaseRow.caseId

/-- `json.dumps(payload, sort_keys=True, separators=(",", ":"))`. -/
def encoded (case : ResearchCase) : String := String.ofList (Json.encode true case.payload)

def rowOf (case : ResearchCase) : CaseRow := ⟨case.caseId, encoded case⟩

/-- `SELECT payload FROM research_cases WHERE case_id = ?`. -/
def payload? (cases : CaseTable) (caseId : String) : Option String :=
  (cases.lookup caseId).map CaseRow.payload

/-- `INSERT OR IGNORE INTO research_cases`. -/
def insertOrIgnore (row : CaseRow) (cases : CaseTable) : CaseTable :=
  (cases.insert? row).getD cases

theorem payload?_insertOrIgnore (row : CaseRow) (cases : CaseTable) (caseId : String) :
    payload? (insertOrIgnore row cases) caseId =
      if caseId = row.caseId then some ((payload? cases caseId).getD row.payload)
      else payload? cases caseId := by
  rw [insertOrIgnore]
  cases hinsert : cases.insert? row with
  | some after =>
      have hfresh := (Table.insert?_eq_some_iff.mp hinsert).1
      rw [Option.getD_some, payload?, Table.lookup_insert? hinsert, payload?]
      by_cases hcase : caseId = row.caseId
      · simp [hcase, hfresh]
      · simp [hcase, Ne.symm hcase]
  | none =>
      have htaken := Table.lookup_isSome_of_insert?_eq_none hinsert fun _ hsame => hsame
      obtain ⟨held, hheld⟩ := Option.isSome_iff_exists.mp htaken
      by_cases hcase : caseId = row.caseId
      · simp [payload?, hcase, hheld]
      · simp [hcase]

/-- A stored payload stays. -/
theorem payload?_insertOrIgnore_of_some {row : CaseRow} {cases : CaseTable}
    {caseId payload : String} (hpayload : payload? cases caseId = some payload) :
    payload? (insertOrIgnore row cases) caseId = some payload := by
  rw [payload?_insertOrIgnore]
  split
  · rw [hpayload, Option.getD_some]
  · exact hpayload

/-- The case of a stored payload. -/
def readCase : Option String → Except Raised (Option ResearchCase)
  | none => .ok none
  | some payload =>
      match (Json.loads payload.toList).bind ResearchCase.ofPayload? with
      | none => .error ⟨.valueError, payload⟩
      | some case => .ok (some case)

/-- `TaskQueue.get_research_case`. -/
def getResearchCase (cases : CaseTable) (caseId : String) : Except Raised (Option ResearchCase) :=
  if caseId = "" then .ok none else readCase (payload? cases caseId)

/-! ## Registrations -/

inductive Statement
  | selectPayload (caseId : String)
  | insertOrIgnore (row : CaseRow)
  deriving DecidableEq

def Statement.Reply : Statement → Type
  | .selectPayload _ => Option String
  | .insertOrIgnore _ => Unit

def execute : Execution Statement.Reply CaseTable
  | .selectPayload caseId, cases => (payload? cases caseId, cases)
  | .insertOrIgnore row, cases => ((), insertOrIgnore row cases)

def send (statement : Statement) : Program Statement.Reply Raised statement.Reply :=
  .call statement

/-- `TaskQueue.register_research_case`. -/
def registerResearchCase (case : ResearchCase) : Program Statement.Reply Raised String := do
  let existing : Option String ← send (.selectPayload case.caseId)
  Program.raiseIf (existing.any (· ≠ encoded case) = true)
    ⟨.valueError, "research_case_id_already_registered_with_different_content"⟩
  let _ ← send (.insertOrIgnore (rowOf case))
  return case.caseId

abbrev RegistryPool := Pool ResearchCase Statement.Reply CaseTable Raised String

abbrev RegistryHistory := History Statement CaseTable

/-- The pools that registrations from any number of connections lead to. -/
def RegistryPool.Reachable (start : CaseTable) (pool : RegistryPool) : Prop :=
  Pool.Reaches execute registerResearchCase .unrestricted (Pool.idle start) pool

/-! ## What registrations promise -/

/-- Every call that returned left its payload in the registry, under the id that
it answered, and no payload that was ever stored has changed. -/
structure IsTruthful (pool : RegistryPool) : Prop where
  holds : ∀ (index : ℕ) (case : ResearchCase) (value : String),
    pool.processes[index]? = some ⟨case, .done value⟩ →
      value = case.caseId ∧ payload? pool.history.store case.caseId = some (encoded case)
  keeps : ∀ event ∈ pool.history.trace, ∀ caseId payload,
    payload? event.found caseId = some payload →
      payload? pool.history.store caseId = some payload

/-- An insert finds nothing or its own content under the id. -/
def IsUncontested (event : Event Statement CaseTable) : Prop :=
  match event.statement with
  | .insertOrIgnore row => (payload? event.found row.caseId).all (· = row.payload) = true
  | .selectPayload _ => True

instance : DecidablePred IsUncontested
  | ⟨_, .insertOrIgnore row, found⟩ =>
      inferInstanceAs (Decidable ((payload? found row.caseId).all (· = row.payload) = true))
  | ⟨_, .selectPayload _, _⟩ => .isTrue trivial

/-! ## Stages of a call -/

def isInsert (event : Event Statement CaseTable) : Bool :=
  match event.statement with
  | .insertOrIgnore _ => true
  | .selectPayload _ => false

/-- The call after its check. -/
def insertion (case : ResearchCase) : Program Statement.Reply Raised String :=
  .step (.insertOrIgnore (rowOf case)) fun _ => .done case.caseId

/-- How far a call has come, and the inserts that it has executed. -/
inductive Stage (case : ResearchCase) :
    Program Statement.Reply Raised String → List Statement → Prop
  | called : Stage case (registerResearchCase case) []
  | raised (error : Raised) : Stage case (.fail error) []
  | checked : Stage case (insertion case) []
  | returned : Stage case (.done case.caseId) [.insertOrIgnore (rowOf case)]

def inserts (history : RegistryHistory) (process : ℕ) : List Statement :=
  ((history.own process).filter isInsert).map Event.statement

theorem inserts_record_self (history : RegistryHistory) (process : ℕ) (statement : Statement) :
    inserts (history.record execute process statement) process =
      if isInsert ⟨process, statement, history.store⟩ = true then
        statement :: inserts history process
      else inserts history process := by
  rw [inserts, History.own_record_self, List.filter_cons]
  split <;> rfl

theorem inserts_record_of_ne {history : RegistryHistory} {process other : ℕ}
    (statement : Statement) (hne : other ≠ process) :
    inserts (history.record execute process statement) other = inserts history other := by
  rw [inserts, History.own_record_of_ne _ _ _ hne, inserts]

/-- Every call of the pool is at one of its stages. -/
structure Staged (pool : RegistryPool) : Prop where
  known : ∀ event ∈ pool.history.trace, event.process < pool.processes.length
  stage : ∀ index process, pool.processes[index]? = some process →
    Stage process.call process.rest (inserts pool.history index)

/-- One statement of a call takes it to its next stage. -/
theorem Stage.next {case : ResearchCase} {statement : Statement}
    {next : statement.Reply → Program Statement.Reply Raised String} {history : RegistryHistory}
    {process : ℕ} (hstage : Stage case (.step statement next) (inserts history process)) :
    Stage case (next (execute statement history.store).1)
      (inserts (history.record execute process statement) process) := by
  generalize hinserts : inserts history process = executed at hstage
  generalize hprogram : Program.step statement next = program at hstage
  cases hstage with
  | called =>
      cases hprogram
      have hselect : isInsert ⟨process, .selectPayload case.caseId, history.store⟩ = false := rfl
      rw [inserts_record_self, hselect, if_neg Bool.false_ne_true, hinserts]
      change Stage case ((Program.raiseIf ((payload? history.store case.caseId).any
        (· ≠ encoded case) = true) _).bind fun _ => insertion case) []
      rw [Program.raiseIf]
      split
      case isTrue => exact Stage.raised _
      case isFalse => exact Stage.checked
  | raised => cases hprogram
  | checked =>
      cases hprogram
      have hinsert : isInsert ⟨process, .insertOrIgnore (rowOf case), history.store⟩ = true := rfl
      rw [inserts_record_self, if_pos hinsert, hinserts]
      exact Stage.returned
  | returned => cases hprogram

theorem Staged.step {pool after : RegistryPool} (hstaged : Staged pool)
    (hstep : Pool.Step execute registerResearchCase .unrestricted pool after) :
    Staged after := by
  cases hstep with
  | start case _ =>
      refine ⟨fun event hevent => ?_, fun index process hprocess => ?_⟩
      · have hknown := hstaged.known event hevent
        rw [Pool.start, List.length_append]
        omega
      · rcases Pool.getElem?_start_cases hprocess with hold | ⟨rfl, rfl⟩
        · exact hstaged.stage index process hold
        · have hnone : inserts pool.history pool.processes.length = [] := by
            rw [inserts, List.map_eq_nil_iff, List.filter_eq_nil_iff]
            intro event hevent
            have hown := History.mem_own.mp hevent
            have hknown := hstaged.known event hown.1
            omega
          change Stage case (registerResearchCase case) (inserts pool.history _)
          rw [hnone]
          exact Stage.called
  | @execute index case statement next hprocess _ =>
      refine ⟨fun event hevent => ?_, fun other process hother => ?_⟩
      · rw [Pool.execute, List.length_set]
        rcases List.mem_cons.mp hevent with rfl | hold
        · exact (List.getElem?_eq_some_iff.mp hprocess).1
        · exact hstaged.known event hold
      · rcases Pool.getElem?_execute_cases hother with ⟨rfl, rfl⟩ | ⟨hne, hold⟩
        · exact (hstaged.stage other _ hprocess).next
        · have hsame : inserts (pool.history.record execute index statement) other =
              inserts pool.history other := inserts_record_of_ne statement hne
          change Stage process.call process.rest (inserts _ other)
          rw [Pool.execute, hsame]
          exact hstaged.stage other process hold

/-! ## Truthful registrations -/

section Truth

variable {start : CaseTable} {pool : RegistryPool}

theorem payload?_execute_of_some {caseId payload : String} (statement : Statement)
    (cases : CaseTable) (hpayload : payload? cases caseId = some payload) :
    payload? (execute statement cases).2 caseId = some payload := by
  cases statement with
  | selectPayload wanted => exact hpayload
  | insertOrIgnore row => exact payload?_insertOrIgnore_of_some hpayload

theorem RegistryPool.Reachable.staged (hreachable : pool.Reachable start) : Staged pool :=
  Pool.Reaches.invariant Staged (fun _ _ hstaged hstep => hstaged.step hstep) hreachable
    ⟨by simp [Pool.idle], by simp [Pool.idle]⟩

theorem RegistryPool.Reachable.chained (hreachable : pool.Reachable start) :
    Chained execute start pool.history.trace pool.history.store :=
  Pool.Reaches.chained hreachable rfl

/-- What the insert of a row left in the registry. -/
theorem payload?_of_insert (hreachable : pool.Reachable start) {event : Event Statement CaseTable}
    (hevent : event ∈ pool.history.trace) {row : CaseRow}
    (hstatement : event.statement = .insertOrIgnore row) :
    payload? pool.history.store row.caseId =
      some ((payload? event.found row.caseId).getD row.payload) := by
  refine Pool.kept_of_after (fun cases => payload? cases row.caseId = _)
    (fun statement cases => payload?_execute_of_some statement cases) hreachable.chained hevent ?_
  rw [Event.after, hstatement, execute, payload?_insertOrIgnore, if_pos rfl]

/-- The insert of a call that returned. -/
theorem exists_insert (hreachable : pool.Reachable start) {index : ℕ} {case : ResearchCase}
    {value : String} (hreturned : pool.processes[index]? = some ⟨case, .done value⟩) :
    value = case.caseId ∧ ∃ event ∈ pool.history.trace, event.process = index ∧
      event.statement = .insertOrIgnore (rowOf case) := by
  have hstage := hreachable.staged.stage index _ hreturned
  dsimp only at hstage
  generalize hinserts : inserts pool.history index = executed at hstage
  generalize hrest : (Program.done value : Program Statement.Reply Raised String) = rest at hstage
  cases hstage with
  | called => cases hrest
  | raised error => cases hrest
  | checked => cases hrest
  | returned =>
      have hmember : Statement.insertOrIgnore (rowOf case) ∈ inserts pool.history index := by
        rw [hinserts]
        exact List.mem_cons_self
      obtain ⟨event, hfiltered, hstatement⟩ := List.mem_map.mp hmember
      have hown := History.mem_own.mp (List.mem_of_mem_filter hfiltered)
      exact ⟨by cases hrest; rfl, event, hown.1, hown.2, hstatement⟩

/-- A call that inserted a row has returned, and the row is that of its case. -/
theorem returned_of_insert (hreachable : pool.Reachable start) {event : Event Statement CaseTable}
    (hevent : event ∈ pool.history.trace) {row : CaseRow}
    (hstatement : event.statement = .insertOrIgnore row) :
    ∃ case, pool.processes[event.process]? = some ⟨case, .done case.caseId⟩ ∧
      row = rowOf case := by
  have hstaged := hreachable.staged
  obtain ⟨⟨case, rest⟩, hprocess⟩ : ∃ process, pool.processes[event.process]? = some process :=
    ⟨_, List.getElem?_eq_getElem (hstaged.known event hevent)⟩
  have hstage := hstaged.stage event.process _ hprocess
  have hmember : Statement.insertOrIgnore row ∈ inserts pool.history event.process := by
    rw [inserts, List.mem_map]
    refine ⟨event, List.mem_filter.mpr ⟨History.mem_own.mpr ⟨hevent, rfl⟩, ?_⟩, hstatement⟩
    simp [isInsert, hstatement]
  generalize inserts pool.history event.process = executed at hstage hmember
  dsimp only at hstage
  cases hstage with
  | called => cases hmember
  | raised error => cases hmember
  | checked => cases hmember
  | returned =>
      rw [List.mem_singleton] at hmember
      exact ⟨case, hprocess, Statement.insertOrIgnore.inj hmember⟩

/-- What every returned registration says is true exactly if every insert found
nothing or its own content. -/
theorem isTruthful_iff (hreachable : pool.Reachable start) :
    IsTruthful pool ↔ ∀ event ∈ pool.history.trace, IsUncontested event := by
  constructor
  · intro htruthful event hevent
    cases hstatement : event.statement with
    | selectPayload wanted => simp [IsUncontested, hstatement]
    | insertOrIgnore row =>
        obtain ⟨case, hprocess, rfl⟩ := returned_of_insert hreachable hevent hstatement
        have hheld := (htruthful.holds event.process case _ hprocess).2
        have hleft := payload?_of_insert hreachable hevent hstatement
        simp only [IsUncontested, hstatement]
        rw [show (rowOf case).caseId = case.caseId from rfl] at hleft ⊢
        rw [hheld, Option.some.injEq] at hleft
        cases hfound : payload? event.found case.caseId with
        | none => rfl
        | some found =>
            rw [hfound, Option.getD_some] at hleft
            exact decide_eq_true hleft.symm
  · intro huncontested
    refine ⟨fun index case value hreturned => ?_, fun event hevent caseId payload hfound => ?_⟩
    · obtain ⟨hvalue, event, hevent, -, hstatement⟩ := exists_insert hreachable hreturned
      have hleft := payload?_of_insert hreachable hevent hstatement
      have hmet := huncontested event hevent
      simp only [IsUncontested, hstatement] at hmet
      refine ⟨hvalue, hleft.trans ?_⟩
      cases hfound : payload? event.found (rowOf case).caseId with
      | none => rfl
      | some found =>
          rw [hfound] at hmet
          exact congrArg some (of_decide_eq_true hmet)
    · exact Pool.kept_of_chained (fun cases => payload? cases caseId = some payload)
        (fun statement cases => payload?_execute_of_some statement cases) hreachable.chained
        hevent hfound

end Truth

/-! ## Two registrations of one id -/

namespace Sample

/-- A case by its id and its hypothesis. -/
def fields (caseId hypothesis : String) : CaseFields where
  caseId := caseId
  targetRepository := "owner/repository"
  targetCommit := "0123456789012345678901234567890123456789"
  scopeUrl := "https://scope.example/rules"
  scopeDigest := "0123456789012345678901234567890123456789012345678901234567890123"
  scopeReviewedOn := "2026-01-15"
  hypothesis := hypothesis
  attackerCapability := "none"
  expectedInvariant := "balance"
  falsificationCriteria := "counterexample"
  executionMode := .local
  status := .ready
  allowedTechniques := ["source_pattern"]
  rounds := []

def first : ResearchCase := ⟨fields "case-1" "first", by decide +kernel⟩

def second : ResearchCase := ⟨fields "case-1" "second", by decide +kernel⟩

def other : ResearchCase := ⟨fields "case-2" "first", by decide +kernel⟩

/-- Different payloads have different texts. -/
theorem encoded_first_ne : encoded first ≠ encoded second := by
  intro hencoded
  have hreadable : ∀ hypothesis, (fields "case-1" hypothesis).payload.Readable := by
    intro hypothesis
    simp [CaseFields.payload, fields, Json.Readable, Json.ReadableFields, Json.ReadableItems]
  have hpayload := Json.eq_of_encode_eq (hreadable "first") (hreadable "second")
    (String.ofList_injective hencoded)
  have hhypothesis := congrArg (fun payload : Json => payload.get "hypothesis") hpayload
  exact absurd (Json.text.inj hhypothesis) (by decide)

/-- Two registrations of different ids. -/
def orderlyMoves : List (Move ResearchCase) :=
  [.start first, .start other, .advance 0, .advance 1, .advance 0, .advance 1]

/-- Both registrations have looked before either inserts. -/
def racingMoves : List (Move ResearchCase) :=
  [.start first, .start second, .advance 0, .advance 1, .advance 0, .advance 1]

def pool (moves : List (Move ResearchCase)) : RegistryPool :=
  Pool.run execute registerResearchCase (Pool.idle Table.empty) moves

theorem reachable_pool (moves : List (Move ResearchCase)) :
    (pool moves).Reachable Table.empty :=
  Pool.reaches_run _ _

end Sample

/-- A registration that came second is told that its content was stored. -/
theorem not_isTruthful_racingMoves :
    ¬∀ (start : CaseTable) (pool : RegistryPool), pool.Reachable start → IsTruthful pool := by
  intro hall
  have htruthful := hall _ _ (Sample.reachable_pool Sample.racingMoves)
  have hsecond := (htruthful.holds 1 Sample.second "case-1" rfl).2
  have hstored : payload? (Sample.pool Sample.racingMoves).history.store "case-1" =
      some (encoded Sample.first) := rfl
  exact Sample.encoded_first_ne (Option.some.inj (hstored.symm.trans hsecond))

theorem isTruthful_orderlyMoves : IsTruthful (Sample.pool Sample.orderlyMoves) :=
  (isTruthful_iff (Sample.reachable_pool Sample.orderlyMoves)).mpr (by decide +kernel)

end AegisForge.Shared.ResearchCaseRegistry
