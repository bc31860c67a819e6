import AegisForge.Shared.ResearchCase

/-!
# Bindings of research cases

A binding that was made of a case is verified, and a payload that a case was read
from agrees with the payload of the case.
-/

namespace AegisForge.Shared

open AegisForge.Core

/-! ## Payloads -/

theorem exact_texts (texts : List String) : (Json.array (texts.map Json.text)).Exact := by
  rw [Json.Exact, Json.exactItems_iff, List.forall_mem_map]
  exact fun _ _ => trivial

theorem isCanonical_texts (texts : List String) :
    (Json.array (texts.map Json.text)).IsCanonical := by
  rw [Json.isCanonical_array_iff, List.forall_mem_map]
  exact fun text _ => .text text

namespace RoundSpec

variable (spec : RoundSpec)

theorem exact_toJson : spec.toJson.Exact :=
  ⟨trivial, exact_texts spec.expectedEvidenceAtoms, trivial, trivial, trivial, trivial, trivial,
    trivial⟩

theorem isCanonical_toJson : spec.toJson.IsCanonical := by
  have hatoms := isCanonical_texts spec.expectedEvidenceAtoms
  rw [toJson, Json.isCanonical_object_iff]
  refine ⟨show fieldNames.IsChain (· < ·) by decide, ?_⟩
  simp only [List.forall_mem_cons, List.not_mem_nil, false_implies, implies_true, and_true,
    Json.IsCanonical.int, Json.IsCanonical.text, true_and]
  exact hatoms

end RoundSpec

namespace ResearchCase

variable (case : ResearchCase)

theorem exact_payload : case.payload.Exact := by
  have hrounds : (Json.array (case.rounds.map RoundSpec.toJson)).Exact := by
    rw [Json.Exact, Json.exactItems_iff, List.forall_mem_map]
    exact fun spec _ => spec.exact_toJson
  exact ⟨exact_texts case.allowedTechniques, trivial, trivial, trivial, trivial, trivial, trivial,
    hrounds, trivial, trivial, trivial, trivial, trivial, trivial, trivial⟩

theorem isCanonical_payload : case.payload.IsCanonical := by
  have htechniques := isCanonical_texts case.allowedTechniques
  have hrounds : (Json.array (case.rounds.map RoundSpec.toJson)).IsCanonical := by
    rw [Json.isCanonical_array_iff, List.forall_mem_map]
    exact fun spec _ => spec.isCanonical_toJson
  rw [CaseFields.payload, Json.isCanonical_object_iff]
  refine ⟨show CaseFields.fieldNames.IsChain (· < ·) by decide, ?_⟩
  simp only [List.forall_mem_cons, List.not_mem_nil, false_implies, implies_true, and_true,
    Json.IsCanonical.text, true_and]
  exact ⟨htechniques, hrounds⟩

end ResearchCase

/-! ## Bindings -/

variable (case : ResearchCase)

theorem caseOfBinding_payload : caseOfBinding case.payload = .ok case := by
  have hmode : case.payload.get? "execution_mode" = some (.text case.executionMode.value) := rfl
  have hstatus : case.payload.get? "status" = some (.text case.status.value) := rfl
  rw [caseOfBinding, hmode, hstatus]
  simp only [Json.text?, Option.bind_some, ExecutionMode.of?_value, CaseStatus.of?_value]
  exact congrArg (orRaise _) case.construct_payload

/-- A binding of a case is verified. -/
theorem verifyResearchCaseBinding_researchCaseBinding :
    verifyResearchCaseBinding (researchCaseBinding case) = .ok case.payload := by
  have hpayload : (researchCaseBinding case).get "case" = case.payload := rfl
  have hcaseId : (case.payload.get "case_id").equal
      ((researchCaseBinding case).get "case_id") = true := Json.equal_text_iff.mpr rfl
  have hequal := Json.equal_self case.exact_payload
  rw [verifyResearchCaseBinding, hpayload, raiseUnless_bind_eq_ok_iff]
  refine ⟨rfl, ?_⟩
  rw [raiseUnless_bind_eq_ok_iff]
  refine ⟨rfl, ?_⟩
  rw [raiseUnless_bind_eq_ok_iff]
  refine ⟨hcaseId, ?_⟩
  rw [caseOfBinding_payload, bind_eq_ok_iff]
  refine ⟨case, rfl, ?_⟩
  rw [raiseUnless_bind_eq_ok_iff]
  refine ⟨hequal, ?_⟩
  rw [raiseUnless_bind_eq_ok_iff]
  exact ⟨rfl, rfl⟩

/-! ## What a case was read from -/

/-- The fields of a payload that are texts. -/
def textFieldNames : List String :=
  ["attacker_capability", "case_id", "execution_mode", "expected_invariant",
    "falsification_criteria", "hypothesis", "scope_digest", "scope_reviewed_on", "scope_url",
    "status", "target_commit", "target_repository"]

/-- The case is what its constructor makes of the payload. -/
structure IsReadFrom (case : ResearchCase) (payload : Json) : Prop where
  keys : ∀ key ∈ payload.keys, key ∈ CaseFields.fieldNames
  texts : ∀ field ∈ textFieldNames, payload.get field = case.payload.get field
  techniques : ResearchCase.techniques? payload = some case.allowedTechniques
  rounds : ResearchCase.rounds? payload = some case.rounds

variable {case}

theorem ExecutionMode.value_of_of? {text : String} {mode : ExecutionMode}
    (hmode : ExecutionMode.of? text = some mode) : mode.value = text := by
  simpa using List.find?_some hmode

theorem CaseStatus.value_of_of? {text : String} {status : CaseStatus}
    (hstatus : CaseStatus.of? text = some status) : status.value = text := by
  simpa using List.find?_some hstatus

/-- What the constructor leaves of a payload, apart from the enumerations. -/
theorem isReadFrom_of_construct {payload : Json} {mode : ExecutionMode} {status : CaseStatus}
    (hcase : ResearchCase.construct payload mode status = some case)
    (hmode : payload.get "execution_mode" = .text mode.value)
    (hstatus : payload.get "status" = .text status.value) : IsReadFrom case payload := by
  rw [ResearchCase.construct] at hcase
  split at hcase
  case isFalse => cases hcase
  case isTrue hkeys =>
    simp only [Option.bind_eq_bind, Option.bind_eq_some_iff, Json.text?_eq_some_iff] at hcase
    obtain ⟨caseId, hcaseId, repository, hrepository, commit, hcommit, scopeUrl, hscopeUrl,
      digest, hdigest, reviewed, hreviewed, hypothesis, hhypothesis, attacker, hattacker,
      expected, hexpected, criteria, hcriteria, techniques, htechniques, rounds, hrounds,
      hfields⟩ := hcase
    have hcase := ResearchCase.toCaseFields_of? hfields
    constructor
    case keys => simpa using hkeys
    case texts =>
      simp only [textFieldNames, List.forall_mem_cons, List.not_mem_nil, false_implies,
        implies_true, and_true, hcaseId, hrepository, hcommit, hscopeUrl, hdigest, hreviewed,
        hhypothesis, hattacker, hexpected, hcriteria, hmode, hstatus, hcase]
      exact ⟨rfl, rfl, rfl, rfl, rfl, rfl, rfl, rfl, rfl, rfl, rfl, rfl⟩
    case techniques => rw [htechniques, hcase]
    case rounds => rw [hrounds, hcase]

theorem isReadFrom_of_ofPayload? {payload : Json}
    (hcase : ResearchCase.ofPayload? payload = some case) : IsReadFrom case payload := by
  simp only [ResearchCase.ofPayload?, Option.bind_eq_bind, Option.bind_eq_some_iff,
    Json.text?_eq_some_iff] at hcase
  obtain ⟨mode, ⟨modeText, hmodeText, hmode⟩, status, ⟨statusText, hstatusText, hstatus⟩,
    hconstruct⟩ := hcase
  rw [← ExecutionMode.value_of_of? hmode] at hmodeText
  rw [← CaseStatus.value_of_of? hstatus] at hstatusText
  exact isReadFrom_of_construct hconstruct hmodeText hstatusText

end AegisForge.Shared
