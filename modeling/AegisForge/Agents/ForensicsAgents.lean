import AegisForge.Core.IntegerText
import AegisForge.Core.JsonEquality
import AegisForge.Core.JsonUpdate
import AegisForge.Shared.ResearchCase

/-!
# The agents of the forensics route

Each agent copies the result of its parent and updates some keys of it.  What
sources, searches and the laboratory answer, and what an agent writes about its
sources, are parameters; which keys an agent sets is not.
-/

namespace AegisForge.Agents

open AegisForge.Core AegisForge.Shared

/-- A task as its agent gets it; its result is the result of its parent. -/
structure AgentTask where
  description : String
  researchCaseId : Option String
  researchCase : Option ResearchCase
  result : Json

/-- The status and the result that an agent leaves in its task. -/
structure AgentAnswer where
  status : String
  result : Json

def evmKeyForensics : String := "evm_key_forensics"

def soliditySourceFixture : String := "solidity_source_fixture"

def uniswapV2FactoryFixture : String := "uniswap_v2_factory_fixture"

/-- A result on the route: its stage, and the number of its source searches. -/
structure OnRoute (stage : String) (rounds : ℤ) (result : Json) : Prop where
  isObject : result.isObject = true
  track : result.get "research_track" = .text evmKeyForensics
  stage : result.get "stage" = .text stage
  rounds : result.get "source_search_rounds" = .int rounds

/-! ## Conversions -/

/-- `int(value)`. -/
def toInt : Json → Except Raised ℤ
  | .bool value => .ok (if value then 1 else 0)
  | .int value => .ok value
  | .float literal =>
      match Magnitude.ofLiteral literal with
      | some (.finite value) => .ok (value.num.tdiv value.den)
      | some (.infinite _) =>
          .error ⟨.overflowError, "cannot convert float infinity to integer"⟩
      | none => .error ⟨.valueError, "cannot convert float NaN to integer"⟩
  | .text value =>
      orRaise ⟨.valueError, s!"invalid literal for int() with base 10: '{value}'"⟩
        (decimal? value)
  | value => .error ⟨.typeError, ("int() argument must be a string, a bytes-like object or a " ++
      s!"real number, not '{typeName value}'")⟩

/-- `int(value or 0)`. -/
def toIntOrZero (value : Json) : Except Raised ℤ :=
  if value.isTruthy then toInt value else .ok 0

/-- `list(value)`. -/
def toList : Json → Except Raised (List Json)
  | .array items => .ok items
  | .object fields => .ok (fields.map fun field => .text field.1)
  | .text value => .ok (value.toList.map fun character => .text (String.singleton character))
  | value => .error ⟨.typeError, s!"'{typeName value}' object is not iterable"⟩

/-- `list(record.get(key, []))`. -/
def itemsOf (record : Json) (key : String) : Except Raised (List Json) :=
  toList ((record.get? key).getD (.array []))

/-- `dict(value or {})`. -/
def toDict (value : Json) : Except Raised Json :=
  if !value.isTruthy then .ok (.object [])
  else if value.isObject then .ok value
  else .error ⟨.typeError, s!"'{typeName value}' object is not iterable"⟩

theorem isObject_of_toDict {value record : Json} (hdict : toDict value = .ok record) :
    record.isObject = true := by
  rw [toDict] at hdict
  split at hdict
  · rw [← Except.ok.inj hdict]
    rfl
  · split at hdict
    case isTrue hobject => exact Except.ok.inj hdict ▸ hobject
    case isFalse => cases hdict

theorem toDict_of_isObject {value : Json} (hobject : value.isObject = true) (key : String) :
    ∃ record, toDict value = .ok record ∧ record.isObject = true ∧
      record.get key = value.get key := by
  rw [toDict]
  split
  case isTrue hempty =>
    obtain ⟨fields, rfl⟩ := Json.isObject_eq_true_iff.mp hobject
    cases fields with
    | nil => exact ⟨_, rfl, rfl, rfl⟩
    | cons field rest => cases hempty
  case isFalse => exact ⟨value, rfl, hobject, rfl⟩

/-- A dictionary that was copied has the fields of the value. -/
theorem get_of_toDict {value record : Json} (hobject : value.isObject = true)
    (hdict : toDict value = .ok record) (key : String) : record.get key = value.get key := by
  obtain ⟨copied, hcopied, -, hget⟩ := toDict_of_isObject hobject key
  rw [← hget, ← Except.ok.inj (hcopied.symm.trans hdict)]

/-- `str(case.target_repository or "").strip().lower().rstrip("/")`. -/
def repositoryName (lower : String → String) (case : Option ResearchCase) : String :=
  let name := lower (strip (case.elim "" fun case => case.targetRepository))
  String.ofList ((name.toList.reverse.dropWhile (· = '/')).reverse)

def profanityRepositories : List String :=
  ["johguse/profanity", "https://github.com/johguse/profanity"]

/-- `items[-count:]`. -/
def lastItems (count : ℕ) (items : List Json) : List Json := items.drop (items.length - count)

/-! ## The source researcher -/

namespace SourceResearcher

def maxSources : ℕ := 20

def maxLeads : ℕ := 20

def seedSources : List (String × String) := [
  ("https://blog.ethereum.org/en/2015/08/04/ethereum-protocol-update-1", "ethereum_foundation"),
  ("https://1inch.com/blog/post/a-vulnerability-disclosed-in-profanity-an-ethereum-" ++
    "vanity-address-tool", "1inch_research"),
  ("https://blog.ethereum.org/2015/08/07/security-alert-1-windowsalethzero-2",
    "ethereum_foundation"),
  ("https://blog.ethereum.org/2016/06/24/security-alert-smart-contract-wallets-created-in-" ++
    "frontier-are-vulnerable-to-phishing-attacks", "ethereum_foundation")]

def profanitySeedSources : List (String × String) := [
  ("https://1inch.com/blog/post/a-vulnerability-disclosed-in-profanity-an-ethereum-" ++
    "vanity-address-tool", "1inch_disclosure"),
  ("https://github.com/johguse/profanity/issues/61", "upstream_maintainer_disclosure"),
  ("https://github.com/advisories/GHSA-9q2f-7hm7-62h6", "github_security_advisory"),
  ("https://nvd.nist.gov/vuln/detail/CVE-2022-40769", "nvd_cve_record")]

def profanitySearchQueryRounds : List (List String) := [
  ["repo:johguse/profanity \"private key safety\"",
    "\"Profanity\" \"createSeed\" \"mt19937_64\""],
  ["\"CVE-2022-40769\" Profanity", "\"GHSA-9q2f-7hm7-62h6\""],
  ["\"johguse/profanity\" \"random_device\"", "\"Profanity\" \"seed space\" Ethereum"]]

def searchQueryRounds : List (List String) := [
  ["\"Profanity\" \"32-bit\" vulnerability", "\"Ethereum\" \"regenerate all of your keys\""],
  ["\"Profanity\" private key recovery", "\"C++ 0.9.36\" Ethereum key"],
  ["Ethereum early client weak key generation security",
    "Ethereum wallet random generator vulnerability"]]

/-- `rounds[min(round_number - 1, len(rounds) - 1)]`; a negative index counts
from the end. -/
def queriesOf (rounds : List (List String)) (roundNumber : ℤ) : Except Raised (List String) :=
  let index := min (roundNumber - 1) (rounds.length - 1)
  let position := if index < 0 then index + rounds.length else index
  orRaise ⟨.externalError, "tuple index out of range"⟩
    (if position < 0 then none else rounds[position.toNat]?)

structure PinnedSources where
  sources : List Json
  pins : List Json
  errors : List Json

/-- What fetching and searching answer. -/
structure PublicSources where
  fetchSeedSource : String → String → Entries → Json
  fetchPinnedRepositorySources : Entries → List Json → Except Raised PinnedSources
  searchIssueLeads : String → Except Raised (List Json × ℕ)
  errorType : Raised → String

/-- What the runs on checked-in fixtures answer. -/
structure FixtureRuns where
  runSoliditySourceFixture : AgentTask → Except Raised AgentAnswer
  runUniswapV2FactoryFixture : AgentTask → Except Raised AgentAnswer

def unhashable (key : Json) : Raised := ⟨.typeError, s!"unhashable type: '{typeName key}'"⟩

/-- `{item["source_url"]: dict(item) for item in items if ...}`. -/
def bySourceUrl : Entries → List Json → Except Raised Entries
  | entries, [] => .ok entries
  | entries, item :: rest => do
      let url := item.get "source_url"
      if item.isObject && url.isTruthy then
        raiseUnless (url.isHashable = true) (unhashable url)
        bySourceUrl (entries.setItem url item) rest
      else bySourceUrl entries rest

/-- Sources are taken while there is room. -/
def takeSources : Entries → List Json → Except Raised Entries
  | entries, [] => .ok entries
  | entries, source :: rest => do
      if entries.length < maxSources then
        let url ← orRaise ⟨.keyError, "'source_url'"⟩ (source.get? "source_url")
        raiseUnless (url.isHashable = true) (unhashable url)
        takeSources (entries.setItem url source) rest
      else takeSources entries rest

def takeSeedSources (sources : PublicSources) :
    Entries → List (String × String) → Except Raised Entries
  | entries, [] => .ok entries
  | entries, (url, family) :: rest => do
      if entries.length < maxSources then
        takeSeedSources sources
          (← takeSources entries [sources.fetchSeedSource url family entries]) rest
      else takeSeedSources sources entries rest

/-- The leads until there are enough, and what stopped before. -/
def takeLeads : Entries → List Json → Entries × Option Raised
  | entries, [] => (entries, none)
  | entries, lead :: rest =>
      match lead.get? "source_url" with
      | none => (entries, some ⟨.keyError, "'source_url'"⟩)
      | some url =>
          if !url.isHashable then (entries, some (unhashable url))
          else
            let entries := entries.setDefault url lead
            if maxLeads ≤ entries.length then (entries, none) else takeLeads entries rest

structure SearchProgress where
  leadsByUrl : Entries
  queryHistory : List Json
  searchErrors : List Json
  filteredLeadCount : ℤ

/-- One query; an error of a search is recorded. -/
def searchQuery (sources : PublicSources) (roundNumber : ℤ) (progress : SearchProgress)
    (query : String) : SearchProgress :=
  let errorRecord (raised : Raised) : Json := .object [
    ("error", .text (String.ofList (raised.message.toList.take 300))),
    ("error_type", .text (sources.errorType raised)),
    ("query", .text query),
    ("round", .int roundNumber)]
  let asked := { progress with
    queryHistory := progress.queryHistory ++
      [Json.object [("query", .text query), ("round", .int roundNumber)]] }
  match sources.searchIssueLeads query with
  | .error raised => { asked with searchErrors := asked.searchErrors ++ [errorRecord raised] }
  | .ok (leads, filtered) =>
      let (entries, failure) := takeLeads asked.leadsByUrl leads
      { asked with
        leadsByUrl := entries
        filteredLeadCount := asked.filteredLeadCount + filtered
        searchErrors := asked.searchErrors ++ (failure.map errorRecord).toList }

def countOf (items : List Json) (key : String) (value : Json) : ℕ :=
  items.countP fun item => (item.get key).equal value

/-- What a round collects. -/
structure Collected where
  sourcesByUrl : Entries
  pinned : PinnedSources
  progress : SearchProgress

/-- The keys that `run` updates. -/
def updates (task : AgentTask) (parent : Json) (roundNumber : ℤ) (collected : Collected) :
    List (String × Json) :=
  let sources := collected.sourcesByUrl.values
  let pinned := collected.pinned
  let progress := collected.progress
  let objective := if (parent.get "objective").isTruthy then parent.get "objective"
    else if task.description ≠ "" then .text task.description
    else .text "Research historical EVM key-generation weaknesses from primary sources."
  [("research_track", .text evmKeyForensics),
    ("stage", .text "sources"),
    ("objective", objective),
    ("source_search_rounds", .int roundNumber),
    ("sources", .array (sources.take maxSources)),
    ("repository_pins", .array pinned.pins),
    ("repository_pin_errors", .array (lastItems 12 pinned.errors)),
    ("source_leads", .array (progress.leadsByUrl.values.take maxLeads)),
    ("source_queries", .array (lastItems 12 progress.queryHistory)),
    ("source_search_errors", .array (lastItems 12 progress.searchErrors)),
    ("filtered_source_lead_count", .int progress.filteredLeadCount),
    ("source_summary", .object [
      ("filtered_search_leads", .int progress.filteredLeadCount),
      ("pinned_repository_files",
        .int (countOf sources "source_kind" (.text "pinned_repository_source"))),
      ("pinned_repository_revisions", .int pinned.pins.length),
      ("repository_pin_errors", .int pinned.errors.length),
      ("round", .int roundNumber),
      ("search_leads", .int progress.leadsByUrl.length),
      ("sources_collected", .int sources.length),
      ("sources_fetched_http_200", .int (countOf sources "status_code" (.int 200)))]),
    ("scope_guards", .object [
      ("no_real_wallet_key_recovery", .bool true),
      ("no_target_list_of_live_addresses", .bool true),
      ("public_sources_only", .bool true),
      ("synthetic_experiments_only", .bool true)]),
    ("next_research_questions", .array [
      .text ("Pin exact historical client or generator revisions for source-supported " ++
        "claims."),
      .text ("Separate weak generation from missing key files, weak user secrets, contract " ++
        "bugs, and key theft."),
      .text ("Never infer a weak key from address age, balance, inactivity, or vanity " ++
        "appearance alone.")])]

def fixtureRepositories : List String := [
  "openzeppelin/openzeppelin-contracts",
  "https://github.com/openzeppelin/openzeppelin-contracts",
  "uniswap/v2-core",
  "https://github.com/uniswap/v2-core"]

/-- The fetches and the searches of a round. -/
def collect (sources : PublicSources) (profanityCase : Bool) (parent : Json) (roundNumber : ℤ) :
    Except Raised Collected := do
  let seeds := if profanityCase then profanitySeedSources else seedSources
  let rounds := if profanityCase then profanitySearchQueryRounds else searchQueryRounds
  let queries ← queriesOf rounds roundNumber
  let stored ← bySourceUrl [] (← itemsOf parent "sources")
  let seeded ← takeSeedSources sources stored seeds
  let pinned ← sources.fetchPinnedRepositorySources seeded (← itemsOf parent "repository_pins")
  let sourcesByUrl ← takeSources seeded pinned.sources
  let leadsByUrl ← bySourceUrl [] (← itemsOf parent "source_leads")
  let searchErrors ← itemsOf parent "source_search_errors"
  let queryHistory ← itemsOf parent "source_queries"
  let filteredLeadCount ← toIntOrZero (parent.get "filtered_source_lead_count")
  return {
    sourcesByUrl := sourcesByUrl
    pinned := pinned
    progress := queries.foldl (searchQuery sources roundNumber)
      ⟨leadsByUrl, queryHistory, searchErrors, filteredLeadCount⟩ }

def run (lower : String → String) (fixtures : FixtureRuns) (sources : PublicSources)
    (task : AgentTask) : Except Raised AgentAnswer := do
  let parent ← toDict task.result
  let repository := repositoryName lower task.researchCase
  if repository ∈ fixtureRepositories.take 2 then
    fixtures.runSoliditySourceFixture task
  else if repository ∈ fixtureRepositories then
    fixtures.runUniswapV2FactoryFixture task
  else
    let roundNumber := (← toIntOrZero (parent.get "source_search_rounds")) + 1
    let collected ← collect sources (repository ∈ profanityRepositories) parent roundNumber
    return {
      status := "source_researched"
      result := (parent.without ["research_validation"]).update
        (updates task parent roundNumber collected) }

variable {lower : String → String} {fixtures : FixtureRuns} {sources : PublicSources}
variable {task : AgentTask} {answer : AgentAnswer}

theorem nodup_updates (task : AgentTask) (parent : Json) (roundNumber : ℤ)
    (collected : Collected) : ((updates task parent roundNumber collected).map Prod.fst).Nodup := by
  simp [updates]

/-- A run that is not one on fixtures counts one search more. -/
theorem onRoute_run (hrun : run lower fixtures sources task = .ok answer)
    (hrepository : repositoryName lower task.researchCase ∉ fixtureRepositories) {rounds : ℤ}
    (hrounds : ∀ parent, toDict task.result = .ok parent →
      toIntOrZero (parent.get "source_search_rounds") = .ok rounds) :
    OnRoute "sources" (rounds + 1) answer.result := by
  obtain ⟨parent, hparent, hrest⟩ := bind_eq_ok hrun
  have hsolidity : repositoryName lower task.researchCase ∉ fixtureRepositories.take 2 :=
    fun hmem => hrepository (List.mem_of_mem_take hmem)
  simp only [if_neg hsolidity, if_neg hrepository] at hrest
  obtain ⟨searched, hsearched, hrest⟩ := bind_eq_ok hrest
  obtain ⟨collected, -, hanswer⟩ := bind_eq_ok hrest
  obtain rfl := Except.ok.inj ((hrounds parent hparent).symm.trans hsearched)
  have hobject : (parent.without ["research_validation"]).isObject = true := by
    obtain ⟨fields, rfl⟩ := Json.isObject_eq_true_iff.mp (isObject_of_toDict hparent)
    rfl
  rw [← Except.ok.inj hanswer]
  constructor
  · exact (Json.isObject_update _ _).trans hobject
  · exact Json.get_update hobject (nodup_updates _ _ _ _) (by simp [updates])
  · exact Json.get_update hobject (nodup_updates _ _ _ _) (by simp [updates])
  · exact Json.get_update hobject (nodup_updates _ _ _ _) (by simp [updates])

end SourceResearcher

/-! ## The crypto analyst -/

namespace CryptoAnalyst

/-- What is written about a dossier. -/
structure Analysis where
  hypotheses : Json
  analysisSummary : Json
  confounderSources : Json
  nextExperiment : Json

structure ProfanityAnalysis extends Analysis where
  caseAnalysis : Json

/-- What the analyst writes, and what the analyses of checked-in fixtures answer. -/
structure Analyst where
  analyseUniswapV2Factory : AgentTask → Except Raised AgentAnswer
  analyseSoliditySource : AgentTask → Except Raised AgentAnswer
  analyseProfanity : Option ResearchCase → Json → Except Raised ProfanityAnalysis
  analyse : Json → Except Raised Analysis

/-- The keys that both analyses update. -/
def Analysis.updates (analysis : Analysis) : List (String × Json) :=
  [("research_track", .text evmKeyForensics),
    ("stage", .text "analysis"),
    ("hypotheses", analysis.hypotheses),
    ("analysis_summary", analysis.analysisSummary),
    ("confounder_sources", analysis.confounderSources),
    ("next_experiment", analysis.nextExperiment)]

def run (lower : String → String) (analyst : Analyst) (task : AgentTask) :
    Except Raised AgentAnswer := do
  let parent ← toDict task.result
  if parent.get "research_track" = .text uniswapV2FactoryFixture then
    analyst.analyseUniswapV2Factory task
  else if parent.get "research_track" = .text soliditySourceFixture then
    analyst.analyseSoliditySource task
  else if repositoryName lower task.researchCase ∈ profanityRepositories then
    let analysis ← analyst.analyseProfanity task.researchCase parent
    return {
      status := "crypto_analyzed"
      result := parent.update (("case_analysis", analysis.caseAnalysis) :: analysis.updates) }
  else
    let analysis ← analyst.analyse parent
    return { status := "crypto_analyzed", result := parent.update analysis.updates }

variable {lower : String → String} {analyst : Analyst} {task : AgentTask}
variable {answer : AgentAnswer} {stage : String} {rounds : ℤ}

theorem onRoute_update {parent : Json} (hobject : parent.isObject = true)
    (hrounds : parent.get "source_search_rounds" = .int rounds) (analysis : Analysis)
    {more : List (String × Json)}
    (hmore : more = [] ∨ ∃ value, more = [("case_analysis", value)]) :
    OnRoute "analysis" rounds (parent.update (more ++ analysis.updates)) := by
  have hkeys : ((more ++ analysis.updates).map Prod.fst).Nodup ∧
      "source_search_rounds" ∉ (more ++ analysis.updates).map Prod.fst := by
    rcases hmore with rfl | ⟨value, rfl⟩
    · simp [Analysis.updates]
    · simp [Analysis.updates]
  constructor
  · exact (Json.isObject_update _ _).trans hobject
  · exact Json.get_update hobject hkeys.1 (by simp [Analysis.updates])
  · exact Json.get_update hobject hkeys.1 (by simp [Analysis.updates])
  · exact (Json.get_update_of_notMem hkeys.2 parent).trans hrounds

theorem onRoute_run (hrun : run lower analyst task = .ok answer)
    (hroute : OnRoute stage rounds task.result) : OnRoute "analysis" rounds answer.result := by
  obtain ⟨parent, hparent, hrest⟩ := bind_eq_ok hrun
  have hobject := isObject_of_toDict hparent
  have htrack := (get_of_toDict hroute.isObject hparent "research_track").trans hroute.track
  have hrounds :=
    (get_of_toDict hroute.isObject hparent "source_search_rounds").trans hroute.rounds
  have hfactory : parent.get "research_track" ≠ .text uniswapV2FactoryFixture := by
    simp [htrack, evmKeyForensics, uniswapV2FactoryFixture]
  have hsolidity : parent.get "research_track" ≠ .text soliditySourceFixture := by
    simp [htrack, evmKeyForensics, soliditySourceFixture]
  simp only [if_neg hfactory, if_neg hsolidity] at hrest
  split at hrest
  · obtain ⟨analysis, -, hanswer⟩ := bind_eq_ok hrest
    rw [← Except.ok.inj hanswer]
    exact onRoute_update hobject hrounds analysis.toAnalysis (Or.inr ⟨_, rfl⟩)
  · obtain ⟨analysis, -, hanswer⟩ := bind_eq_ok hrest
    rw [← Except.ok.inj hanswer]
    exact onRoute_update hobject hrounds analysis (Or.inl rfl)

end CryptoAnalyst

/-! ## The laboratory -/

namespace LabRunner

/-- What the subprocess and the controls on fixtures answer. -/
structure Laboratory where
  runSyntheticEntropyDemo : Option Json → Except Raised Json
  runFeeSetterControls : AgentTask → Except Raised AgentAnswer
  runAccessControlControls : AgentTask → Except Raised AgentAnswer

/-- The keys that a synthetic experiment updates. -/
def updates (experiment : Json) : List (String × Json) :=
  [("research_track", .text evmKeyForensics),
    ("stage", .text "lab"),
    ("lab_experiments", .array [experiment]),
    ("lab_summary", .object [
      ("claim_status", .text "ILLUSTRATIVE_ONLY"),
      ("experiments_run", .int 1),
      ("historical_implementation_reproduced", .bool false),
      ("live_addresses_examined", .int 0),
      ("real_private_keys_used", .bool false),
      ("receipt_integrity_available", .bool true),
      ("receipt_is_signed", experiment.get "execution_receipt_signed"),
      ("synthetic_subprocess_passed", (experiment.get "execution_record").get "test_passed")])]

/-- The binding of the task's case, which must be the one that the result has. -/
def bindCase (task : AgentTask) (result : Json) : Except Raised (Option Json) :=
  if task.researchCaseId.isNone && task.researchCase.isNone then .ok none
  else do
    let case ← validateTaskBinding task.researchCase task.researchCaseId
    let binding := researchCaseBinding case
    let prior := result.get "research_case_binding"
    if prior.isNull then return some binding
    let _ ← verifyResearchCaseBinding prior
    raiseUnless (prior.equal binding = true)
      (caseValidationError "research_case_binding_changed_between_stages")
    return some binding

def run (laboratory : Laboratory) (task : AgentTask) : Except Raised AgentAnswer := do
  let parent ← toDict task.result
  let binding ← bindCase task parent
  let result := binding.elim parent (parent.set "research_case_binding")
  if result.get "research_track" = .text uniswapV2FactoryFixture then
    laboratory.runFeeSetterControls { task with result := result }
  else if result.get "research_track" = .text soliditySourceFixture then
    laboratory.runAccessControlControls { task with result := result }
  else
    let experiment ← laboratory.runSyntheticEntropyDemo binding
    return { status := "lab_completed", result := result.update (updates experiment) }

variable {laboratory : Laboratory} {task : AgentTask} {answer : AgentAnswer}
variable {stage : String} {rounds : ℤ}

theorem onRoute_run (hrun : run laboratory task = .ok answer)
    (hroute : OnRoute stage rounds task.result) : OnRoute "lab" rounds answer.result := by
  obtain ⟨parent, hparent, hrest⟩ := bind_eq_ok hrun
  obtain ⟨binding, -, hrest⟩ := bind_eq_ok hrest
  have hbound : (binding.elim parent (parent.set "research_case_binding")).isObject = true ∧
      ∀ key ≠ "research_case_binding",
        (binding.elim parent (parent.set "research_case_binding")).get key =
          task.result.get key := by
    have hcopied := get_of_toDict hroute.isObject hparent
    cases binding with
    | none => exact ⟨isObject_of_toDict hparent, fun key _ => hcopied key⟩
    | some value =>
        refine ⟨(Json.isObject_set _ _ _).trans (isObject_of_toDict hparent), fun key hkey => ?_⟩
        exact (Json.get_set_of_ne hkey parent value).trans (hcopied key)
  generalize binding.elim parent (parent.set "research_case_binding") = result at hbound hrest
  obtain ⟨hobject, hget⟩ := hbound
  have htrack := (hget "research_track" (by decide)).trans hroute.track
  have hfactory : result.get "research_track" ≠ .text uniswapV2FactoryFixture := by
    simp [htrack, evmKeyForensics, uniswapV2FactoryFixture]
  have hsolidity : result.get "research_track" ≠ .text soliditySourceFixture := by
    simp [htrack, evmKeyForensics, soliditySourceFixture]
  simp only [if_neg hfactory, if_neg hsolidity] at hrest
  obtain ⟨experiment, -, hanswer⟩ := bind_eq_ok hrest
  rw [← Except.ok.inj hanswer]
  have hkeys : ((updates experiment).map Prod.fst).Nodup := by simp [updates]
  constructor
  · exact (Json.isObject_update _ _).trans hobject
  · exact Json.get_update hobject hkeys (by simp [updates])
  · exact Json.get_update hobject hkeys (by simp [updates])
  · have hrounds := (hget "source_search_rounds" (by decide)).trans hroute.rounds
    exact (Json.get_update_of_notMem (by simp [updates]) result).trans hrounds

end LabRunner

/-! ## The validator -/

namespace Validator

/-- What the checks of a dossier find. -/
structure DossierReview where
  sourceChecks : Json
  validation : List (String × Json)

/-- What the checks answer; tasks of other tracks are reviewed elsewhere. -/
structure Reviews where
  reviewDossier : Json → Except Raised DossierReview
  validateUniswapV2FactoryFixture : AgentTask → Except Raised AgentAnswer
  validateSoliditySourceFixture : AgentTask → Except Raised AgentAnswer
  validateOther : AgentTask → Except Raised AgentAnswer
  errorType : Raised → String

def validateEvmForensicsDossier (reviews : Reviews) (task : AgentTask) :
    Except Raised AgentAnswer := do
  let result ← toDict task.result
  let review ← reviews.reviewDossier result
  return {
    status := "validated"
    result := result.update [
      ("research_track", .text evmKeyForensics),
      ("stage", .text "validation"),
      ("research_source_checks", review.sourceChecks),
      ("research_validation", .object review.validation)] }

/-- The answer, or what was caught. -/
def report (reviews : Reviews) : Except Raised AgentAnswer → AgentAnswer
  | .ok answer => answer
  | .error raised => {
      status := "validation_failed"
      result := .object [
        ("agent", .text "validator"),
        ("error", .text raised.message),
        ("error_type", .text (reviews.errorType raised))] }

def run (reviews : Reviews) (task : AgentTask) : AgentAnswer :=
  let track := task.result.get "research_track"
  report reviews (
    if task.result.isObject && track = .text uniswapV2FactoryFixture then
      reviews.validateUniswapV2FactoryFixture task
    else if task.result.isObject && track = .text soliditySourceFixture then
      reviews.validateSoliditySourceFixture task
    else if task.result.isObject && track = .text evmKeyForensics then
      validateEvmForensicsDossier reviews task
    else reviews.validateOther task)

variable {stage : String} {rounds : ℤ}

/-- The validator reviews the dossier, or it fails. -/
theorem onRoute_run (reviews : Reviews) (task : AgentTask)
    (hroute : OnRoute stage rounds task.result) :
    (run reviews task).status = "validation_failed" ∨
      OnRoute "validation" rounds (run reviews task).result ∧
        ((run reviews task).result.get "research_validation").isObject = true := by
  have hrun : run reviews task = report reviews (validateEvmForensicsDossier reviews task) := by
    simp [run, hroute.track, hroute.isObject, evmKeyForensics, uniswapV2FactoryFixture,
      soliditySourceFixture]
  cases hreview : validateEvmForensicsDossier reviews task with
  | error raised => exact Or.inl (by rw [hrun, hreview, report])
  | ok answer =>
      right
      rw [hrun, hreview, report]
      obtain ⟨result, hresult, hrest⟩ := bind_eq_ok hreview
      obtain ⟨review, -, hanswer⟩ := bind_eq_ok hrest
      have hobject := isObject_of_toDict hresult
      have hrounds :=
        (get_of_toDict hroute.isObject hresult "source_search_rounds").trans hroute.rounds
      rw [← Except.ok.inj hanswer]
      refine ⟨⟨?_, ?_, ?_, ?_⟩, ?_⟩
      · exact (Json.isObject_update _ _).trans hobject
      · exact Json.get_update hobject (by simp) (by simp)
      · exact Json.get_update hobject (by simp) (by simp)
      · exact (Json.get_update_of_notMem (by simp) result).trans hrounds
      · rw [Json.get_update hobject (by simp) (List.mem_cons_of_mem _ (List.mem_cons_of_mem _
          (List.mem_cons_of_mem _ (List.mem_singleton_self _))))]
        rfl

end Validator

end AegisForge.Agents
