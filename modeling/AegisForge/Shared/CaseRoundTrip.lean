import AegisForge.Shared.CaseBinding
import AegisForge.Shared.ResearchCaseRegistry

/-!
# Round trips of research cases

A registered case is read back as it was, and a binding that is verified holds
the payload of a case, with the id, the digest and the schema of the binding of
that case.  Further keys of a binding are not looked at.
-/

namespace AegisForge.Shared

open AegisForge.Core AegisForge.Concurrency

/-! ## Lists that were read -/

theorem mapM_text?_eq_some {items : List Json} {texts : List String}
    (htexts : items.mapM Json.text? = some texts) : items = texts.map Json.text := by
  induction items generalizing texts with
  | nil =>
      cases htexts
      rfl
  | cons item rest ih =>
      simp only [List.mapM_cons, Option.bind_eq_bind, Option.bind_eq_some_iff,
        Json.text?_eq_some_iff, Option.pure_def, Option.some.injEq] at htexts
      obtain ⟨text, rfl, others, hothers, rfl⟩ := htexts
      rw [List.map_cons, ih hothers]

theorem texts?_eq_some_iff {value : Json} {texts : List String} :
    texts? value = some texts ↔ value = .array (texts.map Json.text) := by
  constructor
  · intro htexts
    obtain ⟨items, hitems, htexts⟩ := Option.bind_eq_some_iff.mp htexts
    rw [Json.array?_eq_some_iff.mp hitems, mapM_text?_eq_some htexts]
  · rintro rfl
    exact texts?_array texts

theorem intOr_eq_some {record : Json} {key : String} {default number : ℤ}
    (hkey : key ∈ record.keys) (hnumber : intOr record key default = some number) :
    record.get key = .int number := by
  rw [intOr, Json.get?_eq_some_get hkey] at hnumber
  exact Json.int?_eq_some_iff.mp hnumber

/-! ## Rounds that were read -/

namespace RoundSpec

/-- A dictionary that a round was read from, and is equal to that of the round, is
that of the round. -/
theorem eq_toJson {item : Json} {spec : RoundSpec} (hspec : ofJson? item = some spec)
    (hequal : spec.toJson.equal item = true) : item = spec.toJson := by
  obtain ⟨hobject, hkeys⟩ := Json.keys_of_equal_object hequal
  have hnames : item.keys = fieldNames := hkeys
  have hnodup : item.keys.Nodup := by
    rw [hnames]
    decide
  rw [ofJson?] at hspec
  split at hspec
  case isFalse => cases hspec
  case isTrue =>
    simp only [Option.bind_eq_bind, Option.bind_eq_some_iff, Json.text?_eq_some_iff,
      texts?_eq_some_iff] at hspec
    obtain ⟨roundId, hroundId, technique, htechnique, hypothesis, hhypothesis, atoms, hatoms,
      criteria, hcriteria, priority, hpriority, days, hdays, hspec⟩ := hspec
    split at hspec
    case isFalse => cases hspec
    case isTrue =>
      have hpriority := intOr_eq_some (by simp [hnames, fieldNames]) hpriority
      have hdays := intOr_eq_some (by simp [hnames, fieldNames]) hdays
      rw [Json.eq_object_of_keys hobject hnodup, hnames, ← Option.some.inj hspec]
      simp only [fieldNames, List.map_cons, List.map_nil, hroundId, htechnique, hhypothesis,
        hatoms, hcriteria, hpriority, hdays, toJson]

theorem eq_map_toJson {items : List Json} {rounds : List RoundSpec}
    (hrounds : items.mapM ofJson? = some rounds)
    (hequal : List.Forall₂ (fun spec item => Json.equal spec item = true)
      (rounds.map toJson) items) : items = rounds.map toJson := by
  induction items generalizing rounds with
  | nil =>
      cases hrounds
      rfl
  | cons item rest ih =>
      simp only [List.mapM_cons, Option.bind_eq_bind, Option.bind_eq_some_iff,
        Option.pure_def, Option.some.injEq] at hrounds
      obtain ⟨spec, hspec, others, hothers, rfl⟩ := hrounds
      rw [List.map_cons, List.forall₂_cons] at hequal
      rw [List.map_cons, ← eq_toJson hspec hequal.1, ← ih hothers hequal.2]

end RoundSpec

/-! ## Payloads that were read -/

section Payload

variable {case : ResearchCase} {payload : Json}

theorem keys_of_equal_payload (hequal : case.payload.equal payload = true) :
    payload.isObject = true ∧ payload.keys = CaseFields.fieldNames :=
  Json.keys_of_equal_object hequal

theorem get_techniques (hread : IsReadFrom case payload)
    (hkeys : payload.keys = CaseFields.fieldNames) :
    payload.get "allowed_techniques" = .array (case.allowedTechniques.map Json.text) := by
  have htechniques := hread.techniques
  rw [ResearchCase.techniques?,
    Json.get?_eq_some_get (by simp [hkeys, CaseFields.fieldNames])] at htechniques
  exact texts?_eq_some_iff.mp htechniques

theorem get_rounds (hread : IsReadFrom case payload)
    (hequal : case.payload.equal payload = true) :
    payload.get "rounds" = .array (case.rounds.map RoundSpec.toJson) := by
  have hkeys := (keys_of_equal_payload hequal).2
  have hsame : (Json.array (case.rounds.map RoundSpec.toJson)).equal (payload.get "rounds") =
      true := Json.equal_get_of_equal_object hequal rfl
  obtain ⟨items, hitems, hforall⟩ := Json.items_of_equal_array hsame
  have hrounds := hread.rounds
  rw [ResearchCase.rounds?, Json.get?_eq_some_get (by simp [hkeys, CaseFields.fieldNames]),
    hitems] at hrounds
  rw [hitems, RoundSpec.eq_map_toJson hrounds hforall]

/-- A payload that a case was read from, and is equal to that of the case, is that of
the case. -/
theorem eq_payload (hread : IsReadFrom case payload)
    (hequal : case.payload.equal payload = true) : payload = case.payload := by
  obtain ⟨hobject, hkeys⟩ := keys_of_equal_payload hequal
  have hnodup : payload.keys.Nodup := by
    rw [hkeys]
    decide
  have hvalues : ∀ key ∈ CaseFields.fieldNames, payload.get key = case.payload.get key := by
    have hsplit : ∀ key ∈ CaseFields.fieldNames,
        key ∈ textFieldNames ∨ key = "allowed_techniques" ∨ key = "rounds" := by decide
    intro key hkey
    rcases hsplit key hkey with htext | rfl | rfl
    · exact hread.texts key htext
    · exact get_techniques hread hkeys
    · exact get_rounds hread hequal
  have hcase : case.payload = .object
      (CaseFields.fieldNames.map fun key => (key, case.payload.get key)) := rfl
  rw [Json.eq_object_of_keys hobject hnodup, hkeys, hcase]
  congr 1
  refine List.map_congr_left ?_
  intro key hkey
  rw [hvalues key hkey]

theorem ofPayload?_of_caseOfBinding (hkeys : payload.keys = CaseFields.fieldNames)
    (hcase : caseOfBinding payload = .ok case) : ResearchCase.ofPayload? payload = some case := by
  rw [caseOfBinding, Json.get?_eq_some_get (by simp [hkeys, CaseFields.fieldNames]),
    Json.get?_eq_some_get (by simp [hkeys, CaseFields.fieldNames]), orRaise_bind_eq_ok_iff]
    at hcase
  obtain ⟨mode, hmode, hcase⟩ := hcase
  rw [ResearchCase.ofPayload?]
  cases hstatus : (payload.get "status").text? with
  | none =>
      simp only [hstatus] at hcase
      obtain ⟨_, -, hraised⟩ := orRaise_bind_eq_ok hcase
      cases hraised
  | some text =>
      simp only [hstatus] at hcase
      obtain ⟨status, hstatus, hcase⟩ := orRaise_bind_eq_ok hcase
      simp only [Option.bind_eq_bind, Option.bind_eq_some_iff]
      exact ⟨mode, Option.bind_eq_some_iff.mp hmode, status, ⟨text, rfl, hstatus⟩,
        orRaise_eq_ok hcase⟩

end Payload

/-! ## Registered cases -/

namespace ResearchCaseRegistry

variable (case : ResearchCase)

theorem loads_encoded : Json.loads (encoded case).toList = some case.payload := by
  rw [encoded, String.toList_ofList,
    Json.loads_encode true (Json.readable_of_exact case.exact_payload),
    Json.sortKeys_of_isCanonical case.isCanonical_payload]

theorem getResearchCase_of_payload? {cases : CaseTable}
    (hpayload : payload? cases case.caseId = some (encoded case)) :
    getResearchCase cases case.caseId = .ok (some case) := by
  have hnamed : case.caseId ≠ "" := by
    intro hempty
    have hblank := case.isBlank_caseId
    rw [hempty] at hblank
    cases hblank
  rw [getResearchCase, if_neg hnamed, hpayload, readCase, loads_encoded, Option.bind_some,
    ResearchCase.ofPayload?_payload]

/-- A registration returns the id exactly if nothing else is stored under it, and has
then ignored or inserted its own row. -/
theorem run_registerResearchCase_eq_ok_iff {cases after : CaseTable} {value : String} :
    (registerResearchCase case).run execute cases = (.ok value, after) ↔
      (payload? cases case.caseId).all (· = encoded case) = true ∧ value = case.caseId ∧
        after = insertOrIgnore (rowOf case) cases := by
  have hrun : (registerResearchCase case).run execute cases =
      (Program.raiseIf ((payload? cases case.caseId).any (· ≠ encoded case) = true)
        ⟨.valueError, "research_case_id_already_registered_with_different_content"⟩ |>.bind
          fun _ => insertion case).run execute cases := rfl
  have hopposite : (payload? cases case.caseId).all (· = encoded case) = true ↔
      ¬(payload? cases case.caseId).any (· ≠ encoded case) = true := by
    cases payload? cases case.caseId <;> simp
  rw [hrun, hopposite, Program.raiseIf]
  split
  case isTrue hother =>
    constructor
    · intro hreturned
      cases hreturned
    · exact fun hreturned => absurd hother hreturned.1
  case isFalse hsame =>
    have hinserted : (insertion case).run execute cases =
        (.ok case.caseId, insertOrIgnore (rowOf case) cases) := rfl
    rw [Program.done_bind, hinserted, Prod.mk.injEq, Except.ok.injEq]
    constructor
    · rintro ⟨rfl, rfl⟩
      exact ⟨hsame, rfl, rfl⟩
    · rintro ⟨-, rfl, rfl⟩
      exact ⟨rfl, rfl⟩

theorem payload?_registered {cases : CaseTable}
    (hsame : (payload? cases case.caseId).all (· = encoded case) = true) :
    payload? (insertOrIgnore (rowOf case) cases) case.caseId = some (encoded case) := by
  have hrow : case.caseId = (rowOf case).caseId := rfl
  rw [payload?_insertOrIgnore, if_pos hrow]
  cases hpayload : payload? cases case.caseId with
  | none => rfl
  | some payload =>
      rw [hpayload, Option.all_some, decide_eq_true_eq] at hsame
      rw [Option.getD_some, hsame]

end ResearchCaseRegistry

/-! ## Bindings -/

/-- The binding has the fields of the binding of the case, and may have others. -/
def Binds (binding : Json) (case : ResearchCase) : Prop :=
  ∀ key ∈ (researchCaseBinding case).keys, binding.get key = (researchCaseBinding case).get key

section Binding

variable {binding payload : Json} {case : ResearchCase}

theorem binds_iff : Binds binding case ↔ binding.get "case" = case.payload ∧
    binding.get "case_digest" = .text (caseDigest case.payload).text ∧
    binding.get "case_id" = .text case.caseId ∧
    binding.get "schema_version" = .text caseBindingSchema := by
  have hkeys : (researchCaseBinding case).keys =
      ["case", "case_digest", "case_id", "schema_version"] := rfl
  rw [Binds, hkeys]
  simp only [List.forall_mem_cons, List.not_mem_nil, false_implies, implies_true, and_true]
  exact Iff.rfl

/-- A binding that binds a case and has no other fields is the binding of the case. -/
theorem eq_of_binds (hbinds : Binds binding case)
    (hkeys : binding.keys = (researchCaseBinding case).keys) :
    binding = researchCaseBinding case := by
  have hobject : binding.isObject = true := by
    cases binding with
    | object fields => rfl
    | _ => cases hkeys
  have hnodup : (researchCaseBinding case).keys.Nodup :=
    show ["case", "case_digest", "case_id", "schema_version"].Nodup by decide
  rw [Json.eq_object_of_keys hobject (hkeys ▸ hnodup),
    Json.eq_object_of_keys rfl hnodup, hkeys]
  congr 1
  refine List.map_congr_left ?_
  intro key hkey
  rw [hbinds key hkey]

/-- A binding is verified exactly if it binds the case that its payload describes. -/
theorem verifyResearchCaseBinding_eq_ok_iff :
    verifyResearchCaseBinding binding = .ok payload ↔
      ∃ case, caseOfBinding payload = .ok case ∧ payload = case.payload ∧ Binds binding case := by
  rw [verifyResearchCaseBinding, raiseUnless_bind_eq_ok_iff, raiseUnless_bind_eq_ok_iff,
    raiseUnless_bind_eq_ok_iff, bind_eq_ok_iff]
  simp only [raiseUnless_bind_eq_ok_iff, binds_iff]
  constructor
  · rintro ⟨hschema, -, hcaseId, case, hcase, hequal, hdigest, hpayload⟩
    have hpayload : binding.get "case" = payload := Except.ok.inj hpayload
    rw [hpayload] at hcaseId hcase hequal hdigest
    have hkeys := (keys_of_equal_payload hequal).2
    have hread := isReadFrom_of_ofPayload? (ofPayload?_of_caseOfBinding hkeys hcase)
    obtain rfl := eq_payload hread hequal
    have hid : binding.get "case_id" = .text case.caseId := Json.equal_text_iff.mp hcaseId
    exact ⟨case, hcase, rfl, hpayload, hdigest, hid, hschema⟩
  · rintro ⟨case, hcase, rfl, hpayload, hdigest, hid, hschema⟩
    have hcaseId : (case.payload.get "case_id").equal (.text case.caseId) = true :=
      Json.equal_text_iff.mpr rfl
    rw [hpayload, hid]
    exact ⟨hschema, rfl, hcaseId, case, hcase, Json.equal_self case.exact_payload, hdigest, rfl⟩

end Binding

/-! ## Round trips -/

/-- A registered case is read back, its binding is verified, and a verified binding
binds the case of its payload; it is the binding of that case if it has no further
fields. -/
theorem researchCase_roundTrip :
    (∀ (case : ResearchCase) (cases : ResearchCaseRegistry.CaseTable),
      (ResearchCaseRegistry.payload? cases case.caseId).all
        (· = ResearchCaseRegistry.encoded case) = true →
      ∃ after, (ResearchCaseRegistry.registerResearchCase case).run
        ResearchCaseRegistry.execute cases = (.ok case.caseId, after)) ∧
    (∀ (case : ResearchCase) (cases after : ResearchCaseRegistry.CaseTable) (value : String),
      (ResearchCaseRegistry.registerResearchCase case).run ResearchCaseRegistry.execute cases =
        (.ok value, after) →
      value = case.caseId ∧
        ResearchCaseRegistry.getResearchCase after case.caseId = .ok (some case)) ∧
    (∀ case : ResearchCase,
      verifyResearchCaseBinding (researchCaseBinding case) = .ok case.payload) ∧
    ∀ binding payload : Json, verifyResearchCaseBinding binding = .ok payload →
      ∃ case, caseOfBinding payload = .ok case ∧ payload = case.payload ∧ Binds binding case ∧
        (binding.keys = (researchCaseBinding case).keys →
          binding = researchCaseBinding case) := by
  refine ⟨?_, ?_, verifyResearchCaseBinding_researchCaseBinding, ?_⟩
  · intro case cases hsame
    exact ⟨_, (ResearchCaseRegistry.run_registerResearchCase_eq_ok_iff case).mpr
      ⟨hsame, rfl, rfl⟩⟩
  · intro case cases after value hrun
    obtain ⟨hsame, hvalue, rfl⟩ :=
      (ResearchCaseRegistry.run_registerResearchCase_eq_ok_iff case).mp hrun
    exact ⟨hvalue, ResearchCaseRegistry.getResearchCase_of_payload? case
      (ResearchCaseRegistry.payload?_registered case hsame)⟩
  · intro binding payload hverify
    obtain ⟨case, hcase, hpayload, hbinds⟩ := verifyResearchCaseBinding_eq_ok_iff.mp hverify
    exact ⟨case, hcase, hpayload, hbinds, eq_of_binds hbinds⟩

/-! ## A binding with a further field -/

namespace Sample

/-- The binding of a case with a note. -/
def notedBinding (case : ResearchCase) : Json :=
  .object [
    ("case", case.payload),
    ("case_digest", .text (caseDigest case.payload).text),
    ("case_id", .text case.caseId),
    ("note", .text "reviewed"),
    ("schema_version", .text caseBindingSchema)]

end Sample

/-- A noted binding is verified and is not the binding of a case. -/
theorem not_eq_researchCaseBinding_notedBinding :
    ∃ binding payload, verifyResearchCaseBinding binding = .ok payload ∧
      ∀ case, caseOfBinding payload = .ok case → researchCaseBinding case ≠ binding := by
  refine ⟨Sample.notedBinding ResearchCaseRegistry.Sample.first,
    ResearchCaseRegistry.Sample.first.payload, ?_, ?_⟩
  · exact verifyResearchCaseBinding_eq_ok_iff.mpr
      ⟨_, caseOfBinding_payload _, rfl, binds_iff.mpr ⟨rfl, rfl, rfl, rfl⟩⟩
  · intro case _ hsame
    have hkeys : 4 = 5 := congrArg (fun binding : Json => binding.keys.length) hsame
    cases hkeys

end AegisForge.Shared
