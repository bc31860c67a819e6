import AegisForge.Agents.Worker
import AegisForge.Shared.CaseBinding
import AegisForge.Shared.ResearchCaseRegistry

/-!
# The forensics route

The planner sends a task that is bound to a registered case from the sources to
the analysis, the laboratory and the validator, and back to the sources while the
source searches that the results count are fewer than three.
-/

/-- The case in another state of its life. -/
def AegisForge.Shared.ResearchCase.withStatus (case : AegisForge.Shared.ResearchCase)
    (status : AegisForge.Shared.CaseStatus) : AegisForge.Shared.ResearchCase :=
  ⟨{ case.toCaseFields with status := status }, case.valid⟩

namespace AegisForge.Orchestrator

open AegisForge.Core AegisForge.Shared AegisForge.Agents

/-! ## Decisions -/

inductive DecisionKind
  | continues
  | refine
  | verify
  | branch
  | escalate
  | complete
  | abort
  deriving DecidableEq

/-- A decision of the planner without its gain. -/
structure Decision where
  decision : DecisionKind
  role : Option String
  description : Option String
  reason : String

/-- The role and the description of the task that `plan` creates. -/
def Decision.child? (decision : Decision) : Option (String × String) :=
  if decision.decision ∈ [DecisionKind.complete, .abort] then none
  else
    (decision.role.filter (· ≠ "")).bind fun role =>
      (decision.description.filter (· ≠ "")).map fun description => (role, description)

/-- A completed task as the planner reads it. -/
structure CompletedTask where
  role : String
  result : Json

/-- The registry of cases, and the planning of other tracks. -/
structure Planner where
  compactContext : Json → String
  getResearchCase : String → Except Raised (Option ResearchCase)
  chooseByHeuristics : CompletedTask → Except Raised Decision
  chooseByPolicies : CompletedTask → Except Raised Decision

namespace Planner

variable (planner : Planner)

/-- The decision behind a validator: another search, while there were fewer than three. -/
def validatedDecision (validation : Json) (sourceRounds : ℤ) : Decision :=
  if !(validation.get "historical_reproduction_confirmed").isTruthy && sourceRounds < 3 then {
    decision := .refine
    role := some "source_researcher"
    description := some ("Continue with a new source-search round focused on exact historical " ++
      "revisions, release boundaries and source code before/after fixes. Do not enumerate " ++
      "live-wallet addresses. Current round: " ++ toString sourceRounds ++ ". Gaps: " ++
      planner.compactContext ((validation.get? "next_actions").getD (.array [])))
    reason := "Validation remains inconclusive; run a bounded follow-up source round." }
  else {
    decision := .complete
    role := none
    description := none
    reason := "The bounded cycle is complete. Preserve an inconclusive verdict until a pinned " ++
      "historical implementation is reproduced with synthetic test material." }

/-- The decision for a task that has a stage of the route; `none` for another task. -/
def dedicatedDecision (role : String) (result : Json) (sourceRounds : ℤ) :
    Except Raised (Option Decision) := do
  let stage := result.get "stage"
  if role = "source_researcher" ∧ stage = .text "sources" then
    return some {
      decision := .continues
      role := some "crypto_analyst"
      description := some ("Analyze the public-source dossier. Create falsifiable hypotheses, " ++
        "separate weak generation from unrelated storage or contract faults, and list evidence " ++
        "needed for reproduction. Do not claim any live address is vulnerable. Dossier: " ++
        planner.compactContext result)
      reason := "Source collection is ready for evidence classification." }
  else if role = "crypto_analyst" ∧ stage = .text "analysis" then
    return some {
      decision := .refine
      role := some "lab_runner"
      description := some ("Run only the registered synthetic entropy demonstration. Do not " ++
        "execute downloaded code, use real keys, inspect live-wallet candidates, or call the " ++
        "toy model a historical reproduction. Hypotheses: " ++
        planner.compactContext ((result.get? "hypotheses").getD (.array [])))
      reason := "Hypotheses need a controlled synthetic experiment with explicit limits." }
  else if role = "lab_runner" ∧ stage = .text "lab" then
    return some {
      decision := .verify
      role := some "validator"
      description := some ("Check source provenance, hypothesis references, experiment scope " ++
        "and whether the historical implementation was actually reproduced. A toy entropy demo " ++
        "is not historical reproduction. Dossier: " ++ planner.compactContext result)
      reason := "The lab output is ready for independent validation." }
  else if role = "validator" ∧ stage = .text "validation" then
    let validation := result.get "research_validation"
    raiseUnless (validation.isTruthy = true → validation.isObject = true)
      ⟨.attributeError, s!"'{typeName validation}' object has no attribute 'get'"⟩
    return some (planner.validatedDecision validation sourceRounds)
  else return none

/-- `_choose_next_raw`. -/
def chooseNextRaw (task : CompletedTask) : Except Raised Decision :=
  if task.result.isObject && task.result.get "research_track" = .text evmKeyForensics then do
    let sourceRounds ← toIntOrZero (task.result.get "source_search_rounds")
    match ← planner.dedicatedDecision task.role task.result sourceRounds with
    | some decision => return decision
    | none => planner.chooseByHeuristics task
  else planner.chooseByHeuristics task

def immutableFields : List String :=
  ["case_id", "target_repository", "target_commit", "scope_url", "scope_digest",
    "scope_reviewed_on", "hypothesis", "attacker_capability", "expected_invariant",
    "falsification_criteria", "execution_mode"]

/-- The case of a verified binding is registered with the same immutable fields. -/
def matchesRegistered (binding : Json) : Except Raised Bool := do
  let payload ← verifyResearchCaseBinding binding
  match (binding.get "case_id").text? with
  | none => return false
  | some caseId =>
      match ← planner.getResearchCase caseId with
      | none => return false
      | some registered => do
          let registeredPayload ← verifyResearchCaseBinding (researchCaseBinding registered)
          return immutableFields.all fun field =>
            (payload.get field).equal (registeredPayload.get field)

def forensicsRoles : List String :=
  ["source_researcher", "crypto_analyst", "lab_runner", "validator"]

/-- `except (TypeError, ValueError): return False`. -/
def falseOnInvalid : Except Raised Bool → Except Raised Bool
  | .ok value => .ok value
  | .error raised =>
      if raised.cls.isValueError || raised.cls = .typeError then .ok false else .error raised

/-- `_is_bound_evm_forensics_task`. -/
def isBoundEvmForensicsTask (task : CompletedTask) : Except Raised Bool :=
  if task.role ∈ forensicsRoles ∧ task.result.isObject = true ∧
      task.result.get "research_track" = .text evmKeyForensics ∧
      (task.result.get "research_case_binding").isObject = true then
    falseOnInvalid (planner.matchesRegistered (task.result.get "research_case_binding"))
  else .ok false

def chooseNext (task : CompletedTask) : Except Raised Decision := do
  if ← planner.isBoundEvmForensicsTask task then planner.chooseNextRaw task
  else planner.chooseByPolicies task

end Planner

/-! ## Branches -/

/-- What surrounds one task of a branch. -/
structure Turn where
  taskId : String
  lineage : List (Option String)
  roster : Roster
  worker : Worker.Surroundings
  planner : Planner

/-- The case, of which the registry may change the status, and what every task of
its branch meets. -/
structure Route where
  lower : String → String
  lower_failed : lower "validation_failed" = "validation_failed"
  case : ResearchCase
  description : String
  turns : ℕ → Turn
  named : ∀ index, (turns index).taskId ≠ ""
  registered : ∀ index, ∃ status, (turns index).worker.getResearchCase case.caseId =
    .ok (some (case.withStatus status))
  known : ∀ index, ∃ status, (turns index).planner.getResearchCase case.caseId =
    .ok (some (case.withStatus status))

inductive VisitOutcome
  | failed (failure : Worker.Failure)
  /-- The planner raised. -/
  | undecided (raised : Raised)
  | decided (result : Json) (decision : Decision)

structure Visit where
  role : String
  outcome : VisitOutcome

/-- A task that is to be run, with the id and the stored result of its parent. -/
structure Position where
  role : String
  description : String
  parentTaskId : Option String
  parentResult : Option Json

namespace Route

variable (route : Route)

def claimed (index : ℕ) (position : Position) : Worker.Claimed where
  role := position.role
  description := position.description
  researchCaseId := some route.case.caseId
  parentTaskId := position.parentTaskId
  parentResult := position.parentResult
  lineage := (route.turns index).lineage

/-- What the planner makes of a task that was run. -/
def decide (index : ℕ) (role : String) : Except Worker.Failure Json → VisitOutcome
  | .error failure => .failed failure
  | .ok result =>
      match (route.turns index).planner.chooseNext ⟨role, result⟩ with
      | .error raised => .undecided raised
      | .ok decision => .decided result decision

def visit (index : ℕ) (position : Position) : Visit where
  role := position.role
  outcome := route.decide index position.role (Worker.runTask (route.turns index).roster
    route.lower (route.turns index).worker (route.claimed index position))

/-- The task that was created for a decision. -/
def next (index : ℕ) : VisitOutcome → Option Position
  | .decided result decision => decision.child?.map fun child =>
      ⟨child.1, child.2, some (route.turns index).taskId, some result⟩
  | _ => none

/-- The tasks of a branch from a position on, as many as the fuel allows. -/
def branchFrom : ℕ → ℕ → Position → List Visit
  | 0, _, _ => []
  | fuel + 1, index, position =>
      let visit := route.visit index position
      visit :: (route.next index visit.outcome).elim [] (branchFrom fuel (index + 1))

def root : Position := ⟨"source_researcher", route.description, none, none⟩

/-- The first tasks of the branch of the case's root. -/
def branch (fuel : ℕ) : List Visit := route.branchFrom fuel 0 route.root

end Route

/-- The task failed, or its decision completes the branch. -/
def Visit.Ends (visit : Visit) : Prop :=
  (∃ failure, visit.outcome = .failed failure) ∨
    ∃ result decision, visit.outcome = .decided result decision ∧ decision.decision = .complete

def roleAt (index : ℕ) : String := Planner.forensicsRoles.getD (index % 4) ""

/-- The tasks are all of the branch, follow the route, and end. -/
structure Route.IsWhole (route : Route) (visits : List Visit) : Prop where
  branch : ∀ fuel, route.branch fuel = visits.take fuel
  roles : visits.map Visit.role = (List.range visits.length).map roleAt
  length : visits.length ≤ 12
  searches : (visits.map Visit.role).count "source_researcher" ≤ 3
  ends : ∃ visit, visits.getLast? = some visit ∧ visit.Ends

/-! ## Stored results -/

def stageAt (index : ℕ) : String :=
  ["sources", "analysis", "lab", "validation"].getD (index % 4) ""

theorem turn_cases (index : ℕ) :
    (index % 4 = 0 ∧ roleAt index = "source_researcher" ∧ stageAt index = "sources") ∨
    (index % 4 = 1 ∧ roleAt index = "crypto_analyst" ∧ stageAt index = "analysis") ∨
    (index % 4 = 2 ∧ roleAt index = "lab_runner" ∧ stageAt index = "lab") ∨
    (index % 4 = 3 ∧ roleAt index = "validator" ∧ stageAt index = "validation") := by
  have hturns : index % 4 = 0 ∨ index % 4 = 1 ∨ index % 4 = 2 ∨ index % 4 = 3 := by omega
  rcases hturns with hturn | hturn | hturn | hturn
  · exact Or.inl ⟨hturn, by rw [roleAt, hturn]; rfl, by rw [stageAt, hturn]; rfl⟩
  · exact Or.inr (Or.inl ⟨hturn, by rw [roleAt, hturn]; rfl, by rw [stageAt, hturn]; rfl⟩)
  · exact Or.inr (Or.inr (Or.inl
      ⟨hturn, by rw [roleAt, hturn]; rfl, by rw [stageAt, hturn]; rfl⟩))
  · exact Or.inr (Or.inr (Or.inr
      ⟨hturn, by rw [roleAt, hturn]; rfl, by rw [stageAt, hturn]; rfl⟩))

/-- What the result of the task at an index of the route has. -/
structure IsStored (case : ResearchCase) (index : ℕ) (result : Json) : Prop
    extends OnRoute (stageAt index) (index / 4 + 1 : ℕ) result where
  bound : ∃ status, result.get "research_case_binding" =
    researchCaseBinding (case.withStatus status)
  validation : index % 4 = 3 → (result.get "research_validation").isObject = true

/-- A position at an index of the route. -/
structure IsAt (route : Route) (index : ℕ) (position : Position) : Prop where
  role : position.role = roleAt index
  parent : index = 0 ∧ position.parentTaskId = none ∨
    ∃ before result, index = before + 1 ∧
      position.parentTaskId = some (route.turns before).taskId ∧
      position.parentResult = some result ∧ IsStored route.case before result

variable {route : Route} {index : ℕ} {position : Position} {result : Json}

/-- The agent of a position runs on nothing or on what is stored. -/
theorem parentResult_of_isAt (hat : IsAt route index position) {parent : Json}
    (hparent : Worker.parentResult (route.claimed index position) = .ok parent) :
    index = 0 ∧ parent = .null ∨ ∃ before, index = before + 1 ∧
      IsStored route.case before parent := by
  rcases hat.parent with ⟨hindex, hnone⟩ | ⟨before, result, hindex, hid, hresult, hstored⟩
  · left
    simp only [Worker.parentResult, Route.claimed, hnone] at hparent
    exact ⟨hindex, (Except.ok.inj hparent).symm⟩
  · right
    simp only [Worker.parentResult, Route.claimed, hid, hresult, Option.getD_some,
      if_neg (route.named before), orRaise] at hparent
    exact ⟨before, hindex, Except.ok.inj hparent ▸ hstored⟩

theorem toIntOrZero_int (value : ℤ) : toIntOrZero (.int value) = .ok value := by
  rw [toIntOrZero]
  split
  case isTrue => rfl
  case isFalse hzero =>
    have hvalue : value = 0 := by simpa [Json.isTruthy] using hzero
    rw [hvalue]

/-- What the keys of the agent's answer say of the stored result. -/
theorem onRoute_of_get {stage : String} {rounds : ℤ} {answer stored : Json}
    (hanswer : OnRoute stage rounds answer) (hobject : stored.isObject = true)
    (hkeys : ∀ key ∉ Worker.completionKeys, stored.get key = answer.get key) :
    OnRoute stage rounds stored where
  isObject := hobject
  track := (hkeys _ (by simp [Worker.completionKeys])).trans hanswer.track
  stage := (hkeys _ (by simp [Worker.completionKeys])).trans hanswer.stage
  rounds := (hkeys _ (by simp [Worker.completionKeys])).trans hanswer.rounds

/-- A source researcher of the route counts the rounds before its own. -/
theorem searchRounds_of_isAt (hturn : index % 4 = 0) {parent record : Json}
    (hparent : index = 0 ∧ parent = .null ∨ ∃ before, index = before + 1 ∧
      IsStored route.case before parent) (hrecord : toDict parent = .ok record) :
    toIntOrZero (record.get "source_search_rounds") = .ok (index / 4 : ℕ) := by
  rcases hparent with ⟨rfl, rfl⟩ | ⟨before, rfl, hstored⟩
  · obtain rfl := Except.ok.inj hrecord
    rfl
  · rw [get_of_toDict hstored.isObject hrecord, hstored.rounds, toIntOrZero_int]
    have hcount : before / 4 + 1 = (before + 1) / 4 := by omega
    rw [hcount]

theorem repositoryName_withStatus (lower : String → String) (case : ResearchCase)
    (status : CaseStatus) :
    repositoryName lower (some (case.withStatus status)) = repositoryName lower (some case) := by
  rw [repositoryName, repositoryName, Option.elim_some, Option.elim_some]
  rfl

/-- The agent of a position answers with a result of its stage. -/
theorem onRoute_of_run {status : CaseStatus} {parent : Json} {answer : AgentAnswer}
    {description caseId : String}
    (htarget : repositoryName route.lower (some route.case) ∉
      SourceResearcher.fixtureRepositories)
    (hbefore : index = 0 ∧ parent = .null ∨ ∃ before, index = before + 1 ∧
      IsStored route.case before parent)
    (hrun : (route.turns index).roster.run route.lower (roleAt index)
      ⟨description, some caseId, some (route.case.withStatus status), parent⟩ = .ok answer)
    (hsuccess : Worker.isAgentFailure route.lower answer = false) :
    OnRoute (stageAt index) (index / 4 + 1 : ℕ) answer.result ∧
      (index % 4 = 3 → (answer.result.get "research_validation").isObject = true) := by
  -- behind the first task every agent gets a result of the stage before its own
  have hprior : index % 4 ≠ 0 → OnRoute (stageAt (index - 1)) (index / 4 + 1 : ℕ) parent := by
    intro hturn
    rcases hbefore with ⟨rfl, -⟩ | ⟨before, rfl, hstored⟩
    · exact absurd rfl hturn
    · have hcount : before / 4 + 1 = (before + 1) / 4 + 1 := by omega
      exact hcount ▸ hstored.toOnRoute
  rcases turn_cases index with ⟨hturn, hrole, hstage⟩ | ⟨hturn, hrole, hstage⟩ |
    ⟨hturn, hrole, hstage⟩ | ⟨hturn, hrole, hstage⟩
  · rw [hrole, Roster.run_sourceResearcher] at hrun
    have hrepository : repositoryName route.lower (some (route.case.withStatus status)) ∉
        SourceResearcher.fixtureRepositories := by
      rwa [repositoryName_withStatus]
    have hcount : ∀ record, toDict parent = .ok record →
        toIntOrZero (record.get "source_search_rounds") = .ok (index / 4 : ℕ) :=
      fun record hrecord => searchRounds_of_isAt hturn hbefore hrecord
    have hstep := SourceResearcher.onRoute_run hrun hrepository hcount
    rw [hstage, Nat.cast_add, Nat.cast_one]
    exact ⟨hstep, fun hother => by omega⟩
  · rw [hrole, Roster.run_cryptoAnalyst] at hrun
    rw [hstage]
    exact ⟨CryptoAnalyst.onRoute_run hrun (hprior (by omega)), fun hother => by omega⟩
  · rw [hrole, Roster.run_labRunner] at hrun
    rw [hstage]
    exact ⟨LabRunner.onRoute_run hrun (hprior (by omega)), fun hother => by omega⟩
  · rw [hrole, Roster.run_validator] at hrun
    obtain rfl := Except.ok.inj hrun
    rw [hstage]
    have hreview := Validator.onRoute_run (route.turns index).roster.reviews
      ⟨description, some caseId, some (route.case.withStatus status), parent⟩ (hprior (by omega))
    rcases hreview with hstatus | ⟨hroute, hvalidation⟩
    · rw [Worker.isAgentFailure_of_status hstatus route.lower_failed (by decide)] at hsuccess
      cases hsuccess
    · exact ⟨hroute, fun _ => hvalidation⟩

/-- A task of the route that does not fail stores a result of its stage. -/
theorem isStored_of_runTask (hrounds : route.case.rounds = [])
    (htarget : repositoryName route.lower (some route.case) ∉
      SourceResearcher.fixtureRepositories)
    (hat : IsAt route index position)
    (hrun : Worker.runTask (route.turns index).roster route.lower (route.turns index).worker
      (route.claimed index position) = .ok result) : IsStored route.case index result := by
  obtain ⟨status, hcase⟩ := route.registered index
  obtain ⟨parent, answer, hparent, hanswer, hsuccess, hobject, hbinding, hkeys⟩ :=
    Worker.runTask_spec rfl hcase hrounds hrun
  have hrole : (route.claimed index position).role = roleAt index := hat.role
  rw [hrole] at hanswer
  obtain ⟨hroute, hvalidation⟩ :=
    onRoute_of_run htarget (parentResult_of_isAt hat hparent) hanswer hsuccess
  refine ⟨onRoute_of_get hroute hobject hkeys, ⟨status, hbinding⟩, fun hturn => ?_⟩
  rw [hkeys _ (by simp [Worker.completionKeys])]
  exact hvalidation hturn

/-! ## Decisions on the route -/

theorem payload_get_withStatus (case : ResearchCase) (status other : CaseStatus) :
    (Planner.immutableFields.all fun field =>
      ((case.withStatus status).payload.get field).equal
        ((case.withStatus other).payload.get field)) = true := by
  rw [List.all_eq_true]
  intro field hfield
  simp only [Planner.immutableFields, List.mem_cons, List.not_mem_nil, or_false] at hfield
  rcases hfield with rfl | rfl | rfl | rfl | rfl | rfl | rfl | rfl | rfl | rfl | rfl <;>
    exact Json.equal_text_iff.mpr rfl

/-- A stored result is bound to the registered case, whatever its status is by now. -/
theorem isBound_of_isStored (hstored : IsStored route.case index result) :
    (route.turns index).planner.isBoundEvmForensicsTask ⟨roleAt index, result⟩ = .ok true := by
  obtain ⟨status, hbinding⟩ := hstored.bound
  obtain ⟨known, hknown⟩ := route.known index
  have hrole : roleAt index ∈ Planner.forensicsRoles := by
    rcases turn_cases index with ⟨-, hrole, -⟩ | ⟨-, hrole, -⟩ | ⟨-, hrole, -⟩ | ⟨-, hrole, -⟩
    all_goals simp [hrole, Planner.forensicsRoles]
  have hmatches : (route.turns index).planner.matchesRegistered
      (researchCaseBinding (route.case.withStatus status)) = .ok true := by
    have hid : ((researchCaseBinding (route.case.withStatus status)).get "case_id").text? =
        some route.case.caseId := rfl
    rw [Planner.matchesRegistered, verifyResearchCaseBinding_researchCaseBinding]
    simp only [hid, hknown]
    change (verifyResearchCaseBinding (researchCaseBinding (route.case.withStatus known)) >>=
      fun registeredPayload => pure (Planner.immutableFields.all fun field =>
        ((route.case.withStatus status).payload.get field).equal
          (registeredPayload.get field))) = _
    rw [verifyResearchCaseBinding_researchCaseBinding]
    exact congrArg Except.ok (payload_get_withStatus route.case status known)
  have hobject : (result.get "research_case_binding").isObject = true := by
    rw [hbinding]
    rfl
  rw [Planner.isBoundEvmForensicsTask, if_pos ⟨hrole, hstored.isObject, hstored.track, hobject⟩,
    hbinding, hmatches]
  rfl

theorem append_ne_empty {text : String} (htext : text ≠ "") (rest : String) :
    text ++ rest ≠ "" := by
  intro hempty
  exact htext (String.append_eq_empty_iff.mp hempty).1

theorem Decision.child?_eq_some {decision : Decision} {kind : DecisionKind}
    {role description : String} (hkind : decision.decision = kind)
    (hgoes : kind ∉ [DecisionKind.complete, .abort]) (hrole : decision.role = some role)
    (hnamed : role ≠ "") (hdescription : decision.description = some description)
    (hdescribed : description ≠ "") : decision.child? = some (role, description) := by
  rw [Decision.child?, hkind, if_neg hgoes, hrole, hdescription]
  simp [Option.filter, hnamed, hdescribed]

section Dedicated

variable {planner : Planner}

theorem dedicatedDecision_sources (hstage : result.get "stage" = .text "sources") (rounds : ℤ) :
    ∃ decision description,
      planner.dedicatedDecision "source_researcher" result rounds = .ok (some decision) ∧
        decision.child? = some ("crypto_analyst", description) := by
  rw [Planner.dedicatedDecision, if_pos ⟨rfl, hstage⟩]
  refine ⟨_, _, rfl, Decision.child?_eq_some rfl (by simp) rfl (by decide) rfl ?_⟩
  exact append_ne_empty (by decide) _

theorem dedicatedDecision_analysis (hstage : result.get "stage" = .text "analysis")
    (rounds : ℤ) : ∃ decision description,
      planner.dedicatedDecision "crypto_analyst" result rounds = .ok (some decision) ∧
        decision.child? = some ("lab_runner", description) := by
  rw [Planner.dedicatedDecision, if_neg fun h => absurd h.1 (by decide), if_pos ⟨rfl, hstage⟩]
  refine ⟨_, _, rfl, Decision.child?_eq_some rfl (by simp) rfl (by decide) rfl ?_⟩
  exact append_ne_empty (by decide) _

theorem dedicatedDecision_lab (hstage : result.get "stage" = .text "lab") (rounds : ℤ) :
    ∃ decision description,
      planner.dedicatedDecision "lab_runner" result rounds = .ok (some decision) ∧
        decision.child? = some ("validator", description) := by
  rw [Planner.dedicatedDecision, if_neg fun h => absurd h.1 (by decide),
    if_neg fun h => absurd h.1 (by decide), if_pos ⟨rfl, hstage⟩]
  refine ⟨_, _, rfl, Decision.child?_eq_some rfl (by simp) rfl (by decide) rfl ?_⟩
  exact append_ne_empty (by decide) _

/-- Behind a validator the branch is complete, or fewer than three searches were made. -/
theorem validatedDecision_spec (validation : Json) (rounds : ℤ) :
    (planner.validatedDecision validation rounds).decision = .complete ∨
      rounds < 3 ∧ ∃ description, (planner.validatedDecision validation rounds).child? =
        some ("source_researcher", description) := by
  rw [Planner.validatedDecision]
  split
  case isTrue hfollows =>
    rw [Bool.and_eq_true, decide_eq_true_eq] at hfollows
    refine Or.inr ⟨hfollows.2, _, Decision.child?_eq_some rfl (by simp) rfl (by decide) rfl ?_⟩
    exact append_ne_empty (append_ne_empty (append_ne_empty (by decide) _) _) _
  case isFalse => exact Or.inl rfl

theorem dedicatedDecision_validation (planner : Planner)
    (hstage : result.get "stage" = .text "validation")
    (hobject : (result.get "research_validation").isObject = true) (rounds : ℤ) :
    planner.dedicatedDecision "validator" result rounds =
      .ok (some (planner.validatedDecision (result.get "research_validation") rounds)) := by
  rw [Planner.dedicatedDecision, if_neg fun h => absurd h.1 (by decide),
    if_neg fun h => absurd h.1 (by decide), if_neg fun h => absurd h.1 (by decide),
    if_pos ⟨rfl, hstage⟩]
  dsimp only
  rw [raiseUnless, if_pos fun _ => hobject]
  rfl

end Dedicated

/-- What the planner decides on the route: to complete it behind a validator, or
the task that is next on the route, of which there are twelve. -/
theorem chooseNext_of_isStored (hstored : IsStored route.case index result) :
    ∃ decision, (route.turns index).planner.chooseNext ⟨roleAt index, result⟩ = .ok decision ∧
      (decision.decision = .complete ∨
        (index % 4 = 3 → index + 1 < 12) ∧ ∃ description,
          decision.child? = some (roleAt (index + 1), description)) := by
  have hraw : ∀ decision, (route.turns index).planner.dedicatedDecision (roleAt index) result
      (index / 4 + 1 : ℕ) = .ok (some decision) →
      (route.turns index).planner.chooseNext ⟨roleAt index, result⟩ = .ok decision := by
    intro decision hdecision
    rw [Planner.chooseNext, isBound_of_isStored hstored]
    change (route.turns index).planner.chooseNextRaw ⟨roleAt index, result⟩ = .ok decision
    rw [Planner.chooseNextRaw, if_pos (by simp [hstored.isObject, hstored.track]),
      hstored.rounds, toIntOrZero_int]
    change (route.turns index).planner.dedicatedDecision (roleAt index) result
      (index / 4 + 1 : ℕ) >>= _ = _
    rw [hdecision]
    rfl
  rcases turn_cases index with ⟨hturn, hrole, hstage⟩ | ⟨hturn, hrole, hstage⟩ |
    ⟨hturn, hrole, hstage⟩ | ⟨hturn, hrole, hstage⟩
  · have hnext : roleAt (index + 1) = "crypto_analyst" := by
      rw [roleAt, Nat.add_mod, hturn]
      rfl
    obtain ⟨decision, description, hdecision, hchild⟩ :=
      dedicatedDecision_sources (hstage ▸ hstored.stage) (index / 4 + 1 : ℕ)
    exact ⟨decision, hraw decision (hrole ▸ hdecision), Or.inr ⟨fun h => by omega, description,
      hnext ▸ hchild⟩⟩
  · have hnext : roleAt (index + 1) = "lab_runner" := by
      rw [roleAt, Nat.add_mod, hturn]
      rfl
    obtain ⟨decision, description, hdecision, hchild⟩ :=
      dedicatedDecision_analysis (hstage ▸ hstored.stage) (index / 4 + 1 : ℕ)
    exact ⟨decision, hraw decision (hrole ▸ hdecision), Or.inr ⟨fun h => by omega, description,
      hnext ▸ hchild⟩⟩
  · have hnext : roleAt (index + 1) = "validator" := by
      rw [roleAt, Nat.add_mod, hturn]
      rfl
    obtain ⟨decision, description, hdecision, hchild⟩ :=
      dedicatedDecision_lab (hstage ▸ hstored.stage) (index / 4 + 1 : ℕ)
    exact ⟨decision, hraw decision (hrole ▸ hdecision), Or.inr ⟨fun h => by omega, description,
      hnext ▸ hchild⟩⟩
  · have hnext : roleAt (index + 1) = "source_researcher" := by
      rw [roleAt, Nat.add_mod, hturn]
      rfl
    have hdecision := dedicatedDecision_validation (route.turns index).planner
      (hstage ▸ hstored.stage) (hstored.validation hturn) (index / 4 + 1 : ℕ)
    refine ⟨_, hraw _ (hrole ▸ hdecision), ?_⟩
    rcases validatedDecision_spec (result.get "research_validation") (index / 4 + 1 : ℕ) with
      hcomplete | ⟨hfew, description, hchild⟩
    · exact Or.inl hcomplete
    · exact Or.inr ⟨fun _ => by omega, description, hnext ▸ hchild⟩

/-! ## Branches of the route -/

/-- A task of the route ends the branch, or its child is at the next index. -/
theorem visit_spec (hrounds : route.case.rounds = [])
    (htarget : repositoryName route.lower (some route.case) ∉
      SourceResearcher.fixtureRepositories)
    (hat : IsAt route index position) (hindex : index < 12) :
    (route.visit index position).Ends ∧
        route.next index (route.visit index position).outcome = none ∨
      ∃ child, route.next index (route.visit index position).outcome = some child ∧
        IsAt route (index + 1) child ∧ index + 1 < 12 := by
  cases hrun : Worker.runTask (route.turns index).roster route.lower (route.turns index).worker
      (route.claimed index position) with
  | error failure =>
      have houtcome : (route.visit index position).outcome = .failed failure := by
        rw [Route.visit, hrun, Route.decide]
      refine Or.inl ⟨Or.inl ⟨failure, houtcome⟩, ?_⟩
      rw [houtcome]
      rfl
  | ok result =>
      have hstored := isStored_of_runTask hrounds htarget hat hrun
      obtain ⟨decision, hdecision, hcase⟩ := chooseNext_of_isStored hstored
      have houtcome : (route.visit index position).outcome = .decided result decision := by
        simp only [Route.visit, hrun, Route.decide, hat.role, hdecision]
      rw [houtcome]
      rcases hcase with hcomplete | ⟨hmore, description, hchild⟩
      · refine Or.inl ⟨Or.inr ⟨result, decision, houtcome, hcomplete⟩, ?_⟩
        rw [Route.next, Decision.child?, hcomplete]
        rfl
      · right
        refine ⟨_, by rw [Route.next, hchild, Option.map_some], ⟨rfl, Or.inr ?_⟩, by omega⟩
        exact ⟨index, result, rfl, rfl, rfl, hstored⟩

/-- From a position of the route on the branch follows it to its end. -/
theorem exists_branchFrom (hrounds : route.case.rounds = [])
    (htarget : repositoryName route.lower (some route.case) ∉
      SourceResearcher.fixtureRepositories)
    (hat : IsAt route index position) (hindex : index < 12) :
    ∃ visits : List Visit, (∀ fuel, route.branchFrom fuel index position = visits.take fuel) ∧
      visits.map Visit.role = (List.range' index visits.length).map roleAt ∧
      index + visits.length ≤ 12 ∧ ∃ visit, visits.getLast? = some visit ∧ visit.Ends := by
  -- by the number of tasks that the route has left
  induction hleft : 12 - index generalizing index position with
  | zero => omega
  | succ left ih =>
      have hrole : (route.visit index position).role = roleAt index := hat.role
      rcases visit_spec hrounds htarget hat hindex with ⟨hends, hnext⟩ |
        ⟨child, hnext, hchild, hmore⟩
      · refine ⟨[route.visit index position], fun fuel => ?_, ?_, hindex, _, rfl, hends⟩
        · cases fuel with
          | zero => rfl
          | succ fuel => rw [Route.branchFrom, hnext, List.take_succ_cons, List.take_nil]; rfl
        · simp [hrole]
      · obtain ⟨rest, hrest, hroles, hlength, visit, hlast, hends⟩ := ih hchild hmore (by omega)
        refine ⟨route.visit index position :: rest, fun fuel => ?_, ?_, ?_, visit, ?_, hends⟩
        · cases fuel with
          | zero => rfl
          | succ fuel =>
              rw [Route.branchFrom, hnext, List.take_succ_cons, ← hrest fuel]
              rfl
        · rw [List.map_cons, hrole, hroles, List.length_cons, List.range'_succ, List.map_cons]
        · rw [List.length_cons]
          omega
        · rw [List.getLast?_cons, hlast]
          rfl

/-- The branch of a case without rounds, whose target is no fixture repository,
follows the route and ends within three searches and twelve tasks. -/
theorem exists_isWhole (route : Route) (hrounds : route.case.rounds = [])
    (htarget : repositoryName route.lower (some route.case) ∉
      SourceResearcher.fixtureRepositories) : ∃ visits, route.IsWhole visits := by
  have hroot : IsAt route 0 route.root := ⟨rfl, Or.inl ⟨rfl, rfl⟩⟩
  obtain ⟨visits, hbranch, hroles, hlength, hends⟩ :=
    exists_branchFrom hrounds htarget hroot (Nat.zero_lt_succ 11)
  rw [Nat.zero_add] at hlength
  rw [← List.range_eq_range'] at hroles
  refine ⟨visits, hbranch, hroles, hlength, ?_, hends⟩
  calc (visits.map Visit.role).count "source_researcher"
      = ((List.range visits.length).map roleAt).count "source_researcher" := by rw [hroles]
    _ ≤ ((List.range 12).map roleAt).count "source_researcher" :=
        ((List.range_sublist.mpr hlength).map roleAt).count_le _
    _ = 3 := by decide

/-! ## A case without rounds -/

namespace Sample

/-- What a task meets when pages can be fetched, searches answer nothing, and the
demonstration runs. -/
def turn (case : ResearchCase) (index : ℕ) : Turn where
  taskId := s!"task-{index}"
  lineage := [none]
  roster := {
    fixtures := {
      runSoliditySourceFixture := fun _ => .error ⟨.externalError, "no fixture"⟩
      runUniswapV2FactoryFixture := fun _ => .error ⟨.externalError, "no fixture"⟩ }
    sources := {
      fetchSeedSource := fun url family _ => .object [
        ("source_family", .text family), ("source_url", .text url), ("status_code", .int 200)]
      fetchPinnedRepositorySources := fun _ pins => .ok ⟨[], pins, []⟩
      searchIssueLeads := fun _ => .ok ([], 0)
      errorType := fun _ => "RuntimeError" }
    analyst := {
      analyseUniswapV2Factory := fun _ => .error ⟨.externalError, "no fixture"⟩
      analyseSoliditySource := fun _ => .error ⟨.externalError, "no fixture"⟩
      analyseProfanity := fun _ _ => .error ⟨.externalError, "no source"⟩
      analyse := fun _ => .ok ⟨.array [], .object [], .array [], .object []⟩ }
    laboratory := {
      runSyntheticEntropyDemo := fun _ => .ok (.object [
        ("execution_receipt_signed", .bool false),
        ("execution_record", .object [("test_passed", .bool true)])])
      runFeeSetterControls := fun _ => .error ⟨.externalError, "no fixture"⟩
      runAccessControlControls := fun _ => .error ⟨.externalError, "no fixture"⟩ }
    reviews := {
      reviewDossier := fun _ =>
        .ok ⟨.array [], [("historical_reproduction_confirmed", .bool false)]⟩
      validateUniswapV2FactoryFixture := fun _ => .error ⟨.externalError, "no fixture"⟩
      validateSoliditySourceFixture := fun _ => .error ⟨.externalError, "no fixture"⟩
      validateOther := fun _ => .error ⟨.externalError, "no dossier"⟩
      errorType := fun _ => "RuntimeError" }
    runOther := fun _ _ => .error ⟨.externalError, "no agent"⟩ }
  worker := {
    getResearchCase := fun _ => .ok (some case)
    capabilityRefusal := fun _ _ => .ok none
    dispatchTechnique := fun _ _ _ => .error ⟨.externalError, "no technique"⟩
    enqueueExecutionHandoff := fun _ _ => .ok none
    finish := fun _ => .ok ()
    agentId := "agent-1"
    agentIdentity := .object [] }
  planner := {
    compactContext := fun _ => "{}"
    getResearchCase := fun _ => .ok (some case)
    chooseByHeuristics := fun _ => .error ⟨.externalError, "no heuristics"⟩
    chooseByPolicies := fun _ => .error ⟨.externalError, "no policy"⟩ }

theorem taskId_turn_ne (case : ResearchCase) (index : ℕ) : (turn case index).taskId ≠ "" := by
  intro hempty
  exact absurd (String.append_eq_empty_iff.mp hempty).1 (by decide)

def caseRoute : Route where
  lower := id
  lower_failed := rfl
  case := ResearchCaseRegistry.Sample.first
  description := "Research the case."
  turns := turn ResearchCaseRegistry.Sample.first
  named := taskId_turn_ne _
  registered _ := ⟨.ready, rfl⟩
  known _ := ⟨.ready, rfl⟩

end Sample

theorem exists_isWhole_sample : ∃ visits, Sample.caseRoute.IsWhole visits :=
  exists_isWhole Sample.caseRoute rfl (by decide)

end AegisForge.Orchestrator
