import AegisForge.Agents.ForensicsAgents

/-!
# The worker

A worker binds a claimed task to its registered case, runs the agent of its role
on the result of the parent, and stores the answer with the binding of the case,
or it fails the task.
-/

namespace AegisForge.Agents

open AegisForge.Core AegisForge.Shared

/-- The agents of the roles. -/
structure Roster where
  fixtures : SourceResearcher.FixtureRuns
  sources : SourceResearcher.PublicSources
  analyst : CryptoAnalyst.Analyst
  laboratory : LabRunner.Laboratory
  reviews : Validator.Reviews
  runOther : String → AgentTask → Except Raised AgentAnswer

def Roster.run (roster : Roster) (lower : String → String) (role : String) (task : AgentTask) :
    Except Raised AgentAnswer :=
  if role = "source_researcher" then
    SourceResearcher.run lower roster.fixtures roster.sources task
  else if role = "crypto_analyst" then CryptoAnalyst.run lower roster.analyst task
  else if role = "lab_runner" then LabRunner.run roster.laboratory task
  else if role = "validator" then .ok (Validator.run roster.reviews task)
  else roster.runOther role task

theorem Roster.run_sourceResearcher (roster : Roster) (lower : String → String)
    (task : AgentTask) : roster.run lower "source_researcher" task =
      SourceResearcher.run lower roster.fixtures roster.sources task :=
  if_pos rfl

theorem Roster.run_cryptoAnalyst (roster : Roster) (lower : String → String)
    (task : AgentTask) : roster.run lower "crypto_analyst" task =
      CryptoAnalyst.run lower roster.analyst task :=
  (if_neg (by decide)).trans (if_pos rfl)

theorem Roster.run_labRunner (roster : Roster) (lower : String → String) (task : AgentTask) :
    roster.run lower "lab_runner" task = LabRunner.run roster.laboratory task :=
  (if_neg (by decide)).trans ((if_neg (by decide)).trans (if_pos rfl))

theorem Roster.run_validator (roster : Roster) (lower : String → String) (task : AgentTask) :
    roster.run lower "validator" task = .ok (Validator.run roster.reviews task) :=
  (if_neg (by decide)).trans
    ((if_neg (by decide)).trans ((if_neg (by decide)).trans (if_pos rfl)))

namespace Worker

/-- Why a task is failed: what was raised, or the result of a refusal or of an agent. -/
inductive Failure
  | raised (raised : Raised)
  | answered (result : Json)

/-- What the worker calls besides its agent. -/
structure Surroundings where
  getResearchCase : String → Except Raised (Option ResearchCase)
  capabilityRefusal : String → AgentTask → Except Raised (Option Json)
  dispatchTechnique : String → String → AgentTask → Except Raised AgentAnswer
  enqueueExecutionHandoff : String → Json → Except Raised (Option String)
  finish : Json → Except Raised Unit
  agentId : String
  agentIdentity : Json

/-- The columns of a claimed task that are read, with the result of its parent and
the rounds of the task and of its ancestors. -/
structure Claimed where
  role : String
  description : String
  researchCaseId : Option String
  parentTaskId : Option String
  parentResult : Option Json
  lineage : List (Option String)

/-- `validate_worker_case_binding`. -/
def validateWorkerCaseBinding (role : String) (case : Option ResearchCase)
    (taskCaseId : Option String) : Except Raised Unit := do
  if taskCaseId.getD "" = "" then
    raiseUnless (role ∉ caseRequiredRoles) (caseValidationError
      s!"Role '{role}' requires a registered research case; execution denied")
    raiseUnless (case = none)
      (caseValidationError "Research case payload has no task binding")
  else
    let _ ← validateTaskBinding case taskCaseId

/-- `_resolve_round_spec`. -/
def resolveRoundSpec (case : Option ResearchCase) (lineage : List (Option String)) :
    Option RoundSpec :=
  case.bind fun case => lineage.findSome? fun roundId => roundId.bind fun roundId =>
    case.rounds.find? fun spec => roundId ≠ "" ∧ spec.roundId = roundId

/-- `_is_agent_failure`. -/
def isAgentFailure (lower : String → String) (answer : AgentAnswer) : Bool :=
  "_failed".toList.isSuffixOf (lower answer.status).toList ||
    answer.result.isObject && ["error", "error_type", "agent_error"].any fun key =>
      (answer.result.get key).isTruthy

/-- What is raised fails the task. -/
def attempt {A : Type} : Except Raised A → Except Failure A
  | .ok value => .ok value
  | .error raised => .error (.raised raised)

/-- The result of the parent, where there is one. -/
def parentResult (claimed : Claimed) : Except Raised Json :=
  let parentTaskId := claimed.parentTaskId.getD ""
  if parentTaskId = "" then .ok .null
  else orRaise ⟨.runtimeError, s!"Parent task {parentTaskId} has no stored result"⟩
    claimed.parentResult

/-- The agent, or the technique of the round. -/
def runAgent (roster : Roster) (lower : String → String) (surroundings : Surroundings)
    (role : String) (spec : Option RoundSpec) (task : AgentTask) : Except Raised AgentAnswer :=
  match spec with
  | some spec =>
      if role ∈ caseRequiredRoles then surroundings.dispatchTechnique spec.technique role task
      else roster.run lower role task
  | none => roster.run lower role task

/-- The result with the binding of the case. -/
def bindResult (case : Option ResearchCase) (result : Json) : Except Raised Json :=
  match case with
  | none => .ok result
  | some case => do
      raiseUnless (result.isObject = true)
        ⟨.runtimeError, "research_case_result_must_be_object"⟩
      return result.set "research_case_binding" (researchCaseBinding case)

/-- The result with the identity of the agent. -/
def identify (surroundings : Surroundings) (result : Json) : Json :=
  (result.setDefault "agent_id" (.text surroundings.agentId)).setDefault "agent_identity"
    surroundings.agentIdentity

def withExecution (execution : Option String) (result : Json) : Json :=
  execution.elim result fun taskId => result.set "execution_request" (.object [
    ("role", .text "executor"), ("status", .text "pending"), ("task_id", .text taskId)])

/-- What is stored of the result of an agent. -/
def complete (surroundings : Surroundings) (role : String) (case : Option ResearchCase)
    (result : Json) : Except Raised Json := do
  let bound ← bindResult case result
  let identified := identify surroundings bound
  let execution ← surroundings.enqueueExecutionHandoff role identified
  surroundings.finish (withExecution execution identified)
  return withExecution execution identified

/-- `run_once` on the task that it claimed, of a role with an agent; the stored
result, or why the task is failed. -/
def runTask (roster : Roster) (lower : String → String) (surroundings : Surroundings)
    (claimed : Claimed) : Except Failure Json := do
  let case ← attempt (match claimed.researchCaseId with
    | none => .ok none
    | some caseId => surroundings.getResearchCase caseId)
  attempt (validateWorkerCaseBinding claimed.role case claimed.researchCaseId)
  let parent ← attempt (parentResult claimed)
  let task : AgentTask := ⟨claimed.description, claimed.researchCaseId, case, parent⟩
  match ← attempt (surroundings.capabilityRefusal claimed.role task) with
  | some refusal => .error (.answered refusal)
  | none =>
      let answer ← attempt (runAgent roster lower surroundings claimed.role
        (resolveRoundSpec case claimed.lineage) task)
      if isAgentFailure lower answer then .error (.answered answer.result)
      else attempt (complete surroundings claimed.role case answer.result)

/-! ## What a worker stores -/

theorem attempt_eq_ok {A : Type} {computation : Except Raised A} {value : A}
    (hok : attempt computation = .ok value) : computation = .ok value := by
  cases computation with
  | error raised => cases hok
  | ok found => exact congrArg Except.ok (Except.ok.inj hok)

/-- The keys that a worker sets. -/
def completionKeys : List String :=
  ["research_case_binding", "agent_id", "agent_identity", "execution_request"]

variable {roster : Roster} {lower : String → String} {surroundings : Surroundings}
variable {claimed : Claimed} {case : ResearchCase} {stored : Json}

theorem isObject_identify (result : Json) :
    (identify surroundings result).isObject = result.isObject :=
  (Json.isObject_setDefault _ _ _).trans (Json.isObject_setDefault _ _ _)

theorem get_identify {key : String} (hid : key ≠ "agent_id") (hidentity : key ≠ "agent_identity")
    (result : Json) : (identify surroundings result).get key = result.get key :=
  (Json.get_setDefault_of_ne hidentity _ _).trans (Json.get_setDefault_of_ne hid _ _)

theorem isObject_withExecution (execution : Option String) (result : Json) :
    (withExecution execution result).isObject = result.isObject := by
  cases execution with
  | none => rfl
  | some taskId => exact Json.isObject_set _ _ _

theorem get_withExecution {key : String} (hkey : key ≠ "execution_request")
    (execution : Option String) (result : Json) :
    (withExecution execution result).get key = result.get key := by
  cases execution with
  | none => rfl
  | some taskId => exact Json.get_set_of_ne hkey _ _

/-- A completed result has the binding of the case and the other keys of the agent's. -/
theorem complete_spec {role : String} {result : Json}
    (hcomplete : complete surroundings role (some case) result = .ok stored) :
    stored.isObject = true ∧ stored.get "research_case_binding" = researchCaseBinding case ∧
      ∀ key ∉ completionKeys, stored.get key = result.get key := by
  obtain ⟨bound, hbound, hrest⟩ := bind_eq_ok hcomplete
  obtain ⟨execution, -, hrest⟩ := bind_eq_ok hrest
  obtain ⟨-, -, hstored⟩ := bind_eq_ok hrest
  obtain ⟨hobject, hset⟩ := raiseUnless_bind_eq_ok hbound
  obtain rfl := Except.ok.inj hset
  rw [← Except.ok.inj hstored]
  refine ⟨?_, ?_, fun key hkey => ?_⟩
  · rw [isObject_withExecution, isObject_identify, Json.isObject_set]
    exact hobject
  · rw [get_withExecution (by decide), get_identify (by decide) (by decide),
      Json.get_set hobject, if_pos rfl]
  · simp only [completionKeys, List.mem_cons, List.not_mem_nil, or_false, not_or] at hkey
    rw [get_withExecution hkey.2.2.2, get_identify hkey.2.1 hkey.2.2.1,
      Json.get_set_of_ne hkey.1]

/-- An agent with a failed status has failed, where `str.lower` keeps the status. -/
theorem isAgentFailure_of_status {answer : AgentAnswer} {status : String}
    (hstatus : answer.status = status) (hlower : lower status = status)
    (hfailed : "_failed".toList.isSuffixOf status.toList = true) :
    isAgentFailure lower answer = true := by
  rw [isAgentFailure, hstatus, hlower, hfailed, Bool.true_or]

theorem resolveRoundSpec_of_rounds_eq_nil (hrounds : case.rounds = [])
    (lineage : List (Option String)) : resolveRoundSpec (some case) lineage = none := by
  rw [resolveRoundSpec, Option.bind_some, List.findSome?_eq_none_iff]
  intro roundId _
  cases roundId with
  | none => rfl
  | some roundId => rw [Option.bind_some, hrounds, List.find?_nil]

/-- What is stored for a task of a case without rounds is what the agent of its
role answered on the result of the parent, with the binding of the case. -/
theorem runTask_spec {caseId : String} (hcaseId : claimed.researchCaseId = some caseId)
    (hcase : surroundings.getResearchCase caseId = .ok (some case)) (hrounds : case.rounds = [])
    (hrun : runTask roster lower surroundings claimed = .ok stored) :
    ∃ parent answer, parentResult claimed = .ok parent ∧
      roster.run lower claimed.role ⟨claimed.description, some caseId, some case, parent⟩ =
        .ok answer ∧
      isAgentFailure lower answer = false ∧ stored.isObject = true ∧
      stored.get "research_case_binding" = researchCaseBinding case ∧
      ∀ key ∉ completionKeys, stored.get key = answer.result.get key := by
  obtain ⟨found, hfound, hrest⟩ := bind_eq_ok hrun
  simp only [hcaseId, hcase] at hfound hrest
  obtain rfl := Except.ok.inj hfound
  obtain ⟨-, -, hrest⟩ := bind_eq_ok hrest
  obtain ⟨parent, hparent, hrest⟩ := bind_eq_ok hrest
  obtain ⟨refusal, -, hrest⟩ := bind_eq_ok hrest
  cases refusal with
  | some refusal => cases hrest
  | none =>
      obtain ⟨answer, hanswer, hrest⟩ := bind_eq_ok hrest
      rw [resolveRoundSpec_of_rounds_eq_nil hrounds] at hanswer
      split at hrest
      case isTrue => cases hrest
      case isFalse hsuccess =>
        obtain ⟨hobject, hbinding, hkeys⟩ := complete_spec (attempt_eq_ok hrest)
        exact ⟨parent, answer, attempt_eq_ok hparent, attempt_eq_ok hanswer,
          (Bool.not_eq_true _).mp hsuccess, hobject, hbinding, hkeys⟩

end Worker

end AegisForge.Agents
