import AegisForge.Core.Base64
import AegisForge.Core.IsoTime
import AegisForge.Core.JsonIdentity
import AegisForge.Core.Sha256
import AegisForge.Shared.ReplayJournal

/-!
# What an attestation binds

The receipt is compared with the dossier by `!=`, which does not tell a truth
value from a number.  A verified receipt states the very documents that the
dossier describes exactly when it states its exit code by an integer and its
truth values by truth values, as the dossier must.
-/

namespace AegisForge.Shared.IndependentRunnerAttestation

open AegisForge.Core AegisForge.Core.Json
open AttestorRegistry (Bytes itemsOf isArray)
open ExperimentDossier (isInteger isBoolean)
open ReplayRegistry (Document)

/-! ## Exact bindings -/

/-- `canonical_json` of receipts: the bytes of a dictionary with sorted keys. -/
def canonicalJson (value : Json) : Option Octets :=
  if value.isObject = true ∧ value.isFinite = true then
    some (utf8 (Json.encode false value.sortKeys))
  else none

/-- What is stated is the expected dictionary itself, and serializes to its bytes. -/
structure IsIdentical (stated : Json) (expected : List (String × Json)) : Prop where
  value : stated = (object expected).sortKeys
  bytes : ∃ bytes, canonicalJson stated = some bytes ∧
    canonicalJson (object expected) = some bytes

/-- The receipt states the documents that are derived from the dossier. -/
structure BindsExactly (dossier envelope : Json) : Prop where
  inputs : IsIdentical ((envelope.get "receipt").get "inputs") (expectedInputs dossier)
  execution : IsIdentical ((envelope.get "receipt").get "execution") (expectedExecution dossier)
  artifacts : IsIdentical ((envelope.get "receipt").get "artifacts")
    [("items", expectedArtifacts dossier)]

/-- The receipt states an integer and truth values where a dossier must. -/
structure StatesTypes (envelope : Json) : Prop where
  exitCode :
    isInteger (((envelope.get "receipt").get "execution").get "exit_code") = true
  timedOut :
    isBoolean (((envelope.get "receipt").get "execution").get "timed_out") = true
  testPassed :
    isBoolean (((envelope.get "receipt").get "execution").get "test_passed") = true
  historicalCode : isBoolean ((((envelope.get "receipt").get "inputs").get "safety").get
    "historical_code_executed") = true
  keyMaterial : isBoolean ((((envelope.get "receipt").get "inputs").get "safety").get
    "real_key_material_handled") = true

/-! ## Keys -/

theorem sameKeys_iff {value : Json} {expected : List String} :
    sameKeys value expected = true ↔ ∀ key, key ∈ value.keys ↔ key ∈ expected := by
  simp only [sameKeys, Bool.and_eq_true, List.all_eq_true, decide_eq_true_eq]
  constructor
  · rintro ⟨hknown, hheld⟩ key
    exact ⟨hknown key, hheld key⟩
  · intro hkeys
    exact ⟨fun key hkey => (hkeys key).mp hkey, fun key hkey => (hkeys key).mpr hkey⟩

/-- A dictionary with the expected keys is the expected one as soon as its values are. -/
theorem isIdentical_iff {stated : Json} {expected : List (String × Json)}
    (hstated : stated.IsCanonical) (hobject : stated.isObject = true)
    (hkeys : sameKeys stated (expected.map Prod.fst) = true)
    (hnodup : (expected.map Prod.fst).Nodup)
    (hcanonical : ∀ field ∈ expected, field.2.IsCanonical)
    (hexact : ∀ field ∈ expected, field.2.Exact) :
    IsIdentical stated expected ↔ ∀ field ∈ expected, stated.get field.1 = field.2 := by
  have hsame := sameKeys_iff.mp hkeys
  constructor
  · intro hidentical
    exact (eq_sortKeys_iff hstated hobject hsame hnodup hcanonical).mp hidentical.value
  · intro hget
    have hvalue := (eq_sortKeys_iff hstated hobject hsame hnodup hcanonical).mpr hget
    have hstatedKeys : stated.keys.Nodup := by
      obtain ⟨fields, rfl⟩ := isObject_eq_true_iff.mp hobject
      exact (List.isChain_iff_pairwise.mp (isCanonical_object_iff.mp hstated).1).nodup
    have hstatedExact : stated.Exact := by
      refine exact_of_get hobject hstatedKeys ?_
      intro key hkey
      obtain ⟨field, hfield, rfl⟩ := List.mem_map.mp ((hsame key).mp hkey)
      rw [hget field hfield]
      exact hexact field hfield
    have hexpectedExact : (object expected).Exact := by
      rw [Exact, exactFields_iff, List.forall_mem_map]
      exact hexact
    refine ⟨hvalue, utf8 (Json.encode false stated), ?_, ?_⟩
    · rw [canonicalJson, if_pos ⟨hobject, isFinite_of_exact hstatedExact⟩,
        sortKeys_of_isCanonical hstated]
    · rw [canonicalJson, if_pos ⟨rfl, isFinite_of_exact hexpectedExact⟩, ← hvalue]

/-! ## The types of a valid dossier -/

section ValidDossiers

variable {primitives : ExperimentDossier.Primitives} {dossier : Json}
  {summary : ExperimentDossier.DossierSummary}

theorem rigid_of_checkText {value : Json} {field text : String}
    (hchecked : ExperimentDossier.checkText value field = .ok text) : value.Rigid := by
  rw [ExperimentDossier.checkText_eq_ok hchecked]
  trivial

theorem rigid_of_checkDigest {value : Json} {field digest : String}
    (hchecked : ExperimentDossier.checkDigest value field = .ok digest) : value.Rigid := by
  rw [ExperimentDossier.checkDigest_eq_ok hchecked]
  trivial

theorem rigid_of_checkTimestamp {value : Json} {field : String} {time : Time}
    (hchecked : ExperimentDossier.checkTimestamp primitives value field = .ok time) :
    value.Rigid := by
  obtain ⟨text, htext, -⟩ := bind_eq_ok hchecked
  exact rigid_of_checkText htext

theorem rigid_of_isArgv {value : Json} (hargv : ExperimentDossier.isArgv value = true) :
    value.Rigid := by
  cases value with
  | array items =>
      simp only [ExperimentDossier.isArgv, Bool.and_eq_true, List.all_eq_true] at hargv
      rw [Rigid, rigidItems_iff]
      intro item hitem
      obtain ⟨text, htext⟩ := Option.isSome_iff_exists.mp (hargv.2 item hitem)
      rw [text?_eq_some_iff.mp htext]
      trivial
  | _ => cases hargv

theorem keys_of_checkObject {value : Json} {field : String} {expected : List String}
    {answer : PUnit}
    (hchecked : ExperimentDossier.checkObject value field expected = .ok answer) :
    value.isObject = true ∧ ∀ key ∈ value.keys, key ∈ expected := by
  rw [ExperimentDossier.checkObject] at hchecked
  split at hchecked
  · cases hchecked
  · rename_i hobject
    refine ⟨by simpa using hobject, ?_⟩
    split at hchecked
    · cases hchecked
    · rename_i hsorted
      intro key hkey
      by_contra hunknown
      have hmem : key ∈ sorted (value.keys.filter fun key => key ∉ expected) := by
        simp [hkey, hunknown]
      rw [hsorted] at hmem
      cases hmem
    · cases hchecked

/-- A value whose text satisfies a condition is a text. -/
theorem rigid_of_text {value : Json} {condition : String → Bool}
    (htext : value.text?.any condition = true) : value.Rigid := by
  cases value with
  | text _ => trivial
  | _ => cases htext

theorem rigid_of_checkSource {source : Json} {answer : PUnit}
    (hchecked : ExperimentDossier.checkSource source = .ok answer) :
    (source.get "repository").Rigid ∧ (source.get "revision").Rigid := by
  obtain ⟨_, -, hnamed⟩ := bind_eq_ok hchecked
  obtain ⟨repository, hrepository, hrevised⟩ := bind_eq_ok hnamed
  exact ⟨rigid_of_checkText hrepository, rigid_of_text (raiseUnless_eq_ok hrevised)⟩

theorem rigid_of_checkFixture {fixture : Json} {answer : PUnit}
    (hchecked : ExperimentDossier.checkFixture fixture = .ok answer) :
    (fixture.get "fixture_id").Rigid ∧ (fixture.get "sha256").Rigid := by
  obtain ⟨_, -, hnamed⟩ := bind_eq_ok hchecked
  obtain ⟨fixtureId, hfixtureId, hhashed⟩ := bind_eq_ok hnamed
  obtain ⟨digest, hdigest, -⟩ := bind_eq_ok hhashed
  exact ⟨rigid_of_checkText hfixtureId, rigid_of_checkDigest hdigest⟩

theorem rigid_of_checkCommand {command : Json} {answer : PUnit}
    (hchecked : ExperimentDossier.checkCommand primitives command = .ok answer) :
    (command.get "argv").Rigid ∧ (command.get "argv_sha256").Rigid := by
  obtain ⟨_, -, hlisted⟩ := bind_eq_ok hchecked
  obtain ⟨hargv, hhashed⟩ := raiseUnless_bind_eq_ok hlisted
  obtain ⟨expected, -, hstated⟩ := bind_eq_ok hhashed
  obtain ⟨digest, hdigest, -⟩ := bind_eq_ok hstated
  exact ⟨rigid_of_isArgv hargv, rigid_of_checkDigest hdigest⟩

theorem rigid_of_checkHarness {harness : Json} {answer : PUnit}
    (hchecked : ExperimentDossier.checkHarness harness = .ok answer) :
    (harness.get "harness_sha256").Rigid ∧ (harness.get "build_recipe_sha256").Rigid := by
  obtain ⟨_, -, hhashed⟩ := bind_eq_ok hchecked
  obtain ⟨digest, hdigest, hrecipe⟩ := bind_eq_ok hhashed
  obtain ⟨recipe, hrecipeDigest, -⟩ := bind_eq_ok hrecipe
  exact ⟨rigid_of_checkDigest hdigest, rigid_of_checkDigest hrecipeDigest⟩

theorem rigid_of_checkRunner {runner : Json} {providerId : String}
    (hchecked : ExperimentDossier.checkRunner runner = .ok providerId) :
    (runner.get "provider_id").Rigid ∧ (runner.get "runner_id").Rigid ∧
      (runner.get "image_digest").Rigid := by
  obtain ⟨hprovider, ⟨runnerId, hrunnerId⟩, himage⟩ :=
    ExperimentDossier.checkRunner_eq_ok hchecked
  refine ⟨rigid_of_checkText hprovider, ?_, ?_⟩
  · rw [hrunnerId]
    trivial
  · rcases himage with hnull | ⟨digest, hdigest⟩
    · rw [hnull]
      trivial
    · rw [hdigest]
      trivial

/-- The execution of a valid dossier has texts, an integer and two truth values. -/
theorem types_of_checkExecution {execution : Json} {answer : PUnit}
    (hchecked : ExperimentDossier.checkExecution primitives execution = .ok answer) :
    ((execution.get "started_at").Rigid ∧ (execution.get "completed_at").Rigid) ∧
      isInteger (execution.get "exit_code") = true ∧
        isBoolean (execution.get "timed_out") = true ∧
          isBoolean (execution.get "test_passed") = true := by
  obtain ⟨_, -, hbegun⟩ := bind_eq_ok hchecked
  obtain ⟨started, hstarted, hended⟩ := bind_eq_ok hbegun
  obtain ⟨completed, hcompleted, hordered⟩ := bind_eq_ok hended
  obtain ⟨-, hexited⟩ := raiseUnless_bind_eq_ok hordered
  obtain ⟨hexitCode, htimed⟩ := raiseUnless_bind_eq_ok hexited
  obtain ⟨htimedOut, htested⟩ := raiseUnless_bind_eq_ok htimed
  exact ⟨⟨rigid_of_checkTimestamp hstarted, rigid_of_checkTimestamp hcompleted⟩, hexitCode,
    htimedOut, raiseUnless_eq_ok htested⟩

/-- The safety of a valid dossier is a dictionary of a text and two truth values. -/
theorem types_of_checkSafety {safety : Json} {answer : PUnit}
    (hchecked : ExperimentDossier.checkSafety safety = .ok answer) :
    safety.isObject = true ∧ (safety.get "scope").Rigid ∧
      (∀ key ∈ safety.keys, key ∈
        ["scope", "historical_code_executed", "real_key_material_handled"]) ∧
        isBoolean (safety.get "historical_code_executed") = true ∧
          isBoolean (safety.get "real_key_material_handled") = true := by
  obtain ⟨_, hobject, hscoped⟩ := bind_eq_ok hchecked
  obtain ⟨scope, hscope, hexecuted⟩ := orRaise_bind_eq_ok hscoped
  obtain ⟨hhistorical, hhandled⟩ := raiseUnless_bind_eq_ok hexecuted
  obtain ⟨hmaterial, -⟩ := raiseUnless_bind_eq_ok hhandled
  obtain ⟨hisObject, hkeys⟩ := keys_of_checkObject hobject
  refine ⟨hisObject, ?_, hkeys, hhistorical, hmaterial⟩
  rw [text?_eq_some_iff.mp (Option.filter_eq_some_iff.mp hscope).1]
  trivial

/-- Every artifact that the loop accepts has a name and a digest. -/
theorem rigid_of_checkArtifacts {artifacts : List Json} {index : ℕ} {seen : List String}
    {answer : PUnit}
    (hchecked : ExperimentDossier.checkArtifacts index seen artifacts = .ok answer) :
    ∀ artifact ∈ artifacts, (artifact.get "name").Rigid ∧ (artifact.get "sha256").Rigid := by
  induction artifacts generalizing index seen with
  | nil => simp
  | cons artifact rest ih =>
      obtain ⟨_, -, hnamed⟩ := bind_eq_ok hchecked
      obtain ⟨name, hname, hpath⟩ := bind_eq_ok hnamed
      obtain ⟨-, hfresh⟩ := raiseUnless_bind_eq_ok hpath
      obtain ⟨-, hhashed⟩ := raiseUnless_bind_eq_ok hfresh
      obtain ⟨digest, hdigest, hrest⟩ := bind_eq_ok hhashed
      rw [List.forall_mem_cons]
      exact ⟨⟨rigid_of_checkText hname, rigid_of_checkDigest hdigest⟩, ih hrest⟩

/-! ## The expected documents -/

theorem nodup_expectedInputs : ((expectedInputs dossier).map Prod.fst).Nodup := by
  simp [expectedInputs]

theorem eq_safety {field : String × Json} (hfield : field ∈ expectedInputs dossier)
    (hname : field.1 = "safety") : field.2 = dossier.get "safety" := by
  have hlookup := lookup_of_mem nodup_expectedInputs hfield
  rw [hname] at hlookup
  exact (Option.some.inj hlookup).symm

theorem rigid_expectedInputs (hvalid : ExperimentDossier.IsValid primitives dossier summary) :
    ∀ field ∈ expectedInputs dossier, field.1 ≠ "safety" → field.2.Rigid := by
  obtain ⟨hrepository, hrevision⟩ := rigid_of_checkSource hvalid.source
  obtain ⟨hfixtureId, hfixture⟩ := rigid_of_checkFixture hvalid.fixture
  obtain ⟨hargv, hargvDigest⟩ := rigid_of_checkCommand hvalid.command
  obtain ⟨hharness, hrecipe⟩ := rigid_of_checkHarness hvalid.harness
  obtain ⟨hprovider, hrunner, himage⟩ := rigid_of_checkRunner hvalid.runner
  have hnonce := rigid_of_checkText hvalid.nonce
  simp only [expectedInputs, List.forall_mem_cons, List.not_mem_nil, false_implies,
    implies_true, and_true]
  exact ⟨fun _ => hrepository, fun _ => hrevision, fun _ => hfixtureId, fun _ => hfixture,
    fun _ => hargv, fun _ => hargvDigest, fun _ => hharness, fun _ => hrecipe,
    fun _ => hprovider, fun _ => hrunner, fun _ => himage, fun _ => hnonce,
    fun hsafety => absurd rfl hsafety⟩

theorem rigid_expectedArtifacts (hvalid : ExperimentDossier.IsValid primitives dossier summary) :
    (expectedArtifacts dossier).Rigid := by
  rw [expectedArtifacts, Rigid, rigidItems_iff, List.forall_mem_map]
  intro artifact hartifact
  obtain ⟨hname, hdigest⟩ := rigid_of_checkArtifacts hvalid.artifacts artifact hartifact
  exact ⟨hname, hdigest, trivial⟩

theorem exact_of_isInteger {value : Json} (hinteger : isInteger value = true) : value.Exact := by
  cases value with
  | int _ => trivial
  | _ => cases hinteger

theorem exact_of_isBoolean {value : Json} (hboolean : isBoolean value = true) : value.Exact := by
  cases value with
  | bool _ => trivial
  | _ => cases hboolean

/-- Equal integers are one integer. -/
theorem eq_of_isInteger {left right : Json} (hleft : isInteger left = true)
    (hright : isInteger right = true) (hequal : equal left right = true) : left = right := by
  cases left with
  | int number =>
      cases right with
      | int other => rw [equal_int_iff.mp hequal]
      | _ => cases hright
  | _ => cases hleft

/-- Equal truth values are one truth value. -/
theorem eq_of_isBoolean {left right : Json} (hleft : isBoolean left = true)
    (hright : isBoolean right = true) (hequal : equal left right = true) : left = right := by
  cases left with
  | bool value =>
      cases right with
      | bool other => rw [equal_bool_iff.mp hequal]
      | _ => cases hright
  | _ => cases hleft

theorem exact_safety (hvalid : ExperimentDossier.IsValid primitives dossier summary)
    (hcanonical : dossier.IsCanonical) : (dossier.get "safety").Exact := by
  obtain ⟨hobject, hscope, hkeys, hhistorical, hmaterial⟩ := types_of_checkSafety hvalid.safety
  have hnodup : (dossier.get "safety").keys.Nodup := by
    have hsafety := isCanonical_get hcanonical "safety"
    obtain ⟨fields, hfields⟩ := isObject_eq_true_iff.mp hobject
    rw [hfields] at hsafety ⊢
    exact (List.isChain_iff_pairwise.mp (isCanonical_object_iff.mp hsafety).1).nodup
  refine exact_of_get hobject hnodup ?_
  intro key hkey
  have hknown := hkeys key hkey
  simp only [List.mem_cons, List.not_mem_nil, or_false] at hknown
  rcases hknown with rfl | rfl | rfl
  · exact exact_of_rigid hscope
  · exact exact_of_isBoolean hhistorical
  · exact exact_of_isBoolean hmaterial

theorem exact_expectedInputs (hvalid : ExperimentDossier.IsValid primitives dossier summary)
    (hcanonical : dossier.IsCanonical) : ∀ field ∈ expectedInputs dossier, field.2.Exact := by
  intro field hfield
  by_cases hsafety : field.1 = "safety"
  · rw [eq_safety hfield hsafety]
    exact exact_safety hvalid hcanonical
  · exact exact_of_rigid (rigid_expectedInputs hvalid field hfield hsafety)

theorem exact_expectedExecution (hvalid : ExperimentDossier.IsValid primitives dossier summary) :
    ∀ field ∈ expectedExecution dossier, field.2.Exact := by
  obtain ⟨⟨hstarted, hcompleted⟩, hexitCode, htimedOut, htestPassed⟩ :=
    types_of_checkExecution hvalid.execution
  obtain ⟨digest, hresult⟩ := hvalid.result
  simp only [expectedExecution, List.forall_mem_cons, List.not_mem_nil, false_implies,
    implies_true, and_true]
  exact ⟨exact_of_rigid hstarted, exact_of_rigid hcompleted, exact_of_isInteger hexitCode,
    exact_of_isBoolean htimedOut, exact_of_isBoolean htestPassed,
    exact_of_rigid (rigid_of_checkDigest hresult)⟩

theorem isCanonical_of_mem_itemsOf {value : Json} (hcanonical : value.IsCanonical) :
    ∀ item ∈ itemsOf value, item.IsCanonical := by
  cases value with
  | array items => exact isCanonical_array_iff.mp hcanonical
  | _ => simp [itemsOf]

theorem isCanonical_expectedArtifacts (hcanonical : dossier.IsCanonical) :
    (expectedArtifacts dossier).IsCanonical := by
  have hartifacts := isCanonical_of_mem_itemsOf (isCanonical_get hcanonical "artifacts")
  rw [expectedArtifacts, isCanonical_array_iff, List.forall_mem_map]
  intro artifact hartifact
  have hfields := isCanonical_get (hartifacts artifact hartifact)
  simp [-String.lt_iff_ltb, hfields]

theorem isCanonical_expectedInputs (hcanonical : dossier.IsCanonical) :
    ∀ field ∈ expectedInputs dossier, field.2.IsCanonical := by
  simp [expectedInputs, isCanonical_get, hcanonical]

theorem isCanonical_expectedExecution (hcanonical : dossier.IsCanonical) :
    ∀ field ∈ expectedExecution dossier, field.2.IsCanonical := by
  simp [expectedExecution, isCanonical_get, hcanonical]

/-! ## What is stated -/

/-- An equal execution is identical where its numbers and truth values are such. -/
theorem execution_iff (hvalid : ExperimentDossier.IsValid primitives dossier summary)
    {stated : Json}
    (hequal : ∀ field ∈ expectedExecution dossier, equal (stated.get field.1) field.2 = true) :
    (∀ field ∈ expectedExecution dossier, stated.get field.1 = field.2) ↔
      isInteger (stated.get "exit_code") = true ∧ isBoolean (stated.get "timed_out") = true ∧
        isBoolean (stated.get "test_passed") = true := by
  obtain ⟨⟨hstarted, hcompleted⟩, hexitCode, htimedOut, htestPassed⟩ :=
    types_of_checkExecution hvalid.execution
  obtain ⟨digest, hresult⟩ := hvalid.result
  simp only [expectedExecution, List.forall_mem_cons, List.not_mem_nil, false_implies,
    implies_true, and_true] at hequal ⊢
  obtain ⟨hequalStarted, hequalCompleted, hequalExit, hequalTimed, hequalTest, hequalResult⟩ :=
    hequal
  constructor
  · rintro ⟨-, -, hexit, htimed, htest, -⟩
    rw [hexit, htimed, htest]
    exact ⟨hexitCode, htimedOut, htestPassed⟩
  · rintro ⟨hexit, htimed, htest⟩
    exact ⟨eq_of_equal hstarted hequalStarted, eq_of_equal hcompleted hequalCompleted,
      eq_of_isInteger hexit hexitCode hequalExit, eq_of_isBoolean htimed htimedOut hequalTimed,
      eq_of_isBoolean htest htestPassed hequalTest,
      eq_of_equal (rigid_of_checkDigest hresult) hequalResult⟩

/-- An equal safety is identical where its truth values are such. -/
theorem safety_iff (hvalid : ExperimentDossier.IsValid primitives dossier summary)
    (hcanonical : dossier.IsCanonical) {stated : Json} (hstated : stated.IsCanonical)
    (hequal : equal stated (dossier.get "safety") = true) :
    stated = dossier.get "safety" ↔
      isBoolean (stated.get "historical_code_executed") = true ∧
        isBoolean (stated.get "real_key_material_handled") = true := by
  obtain ⟨hobject, hscope, hkeys, hhistorical, hmaterial⟩ := types_of_checkSafety hvalid.safety
  have hsafety := isCanonical_get hcanonical "safety"
  constructor
  · rintro rfl
    exact ⟨hhistorical, hmaterial⟩
  · rintro ⟨hstatedHistorical, hstatedMaterial⟩
    obtain ⟨fields, hfields⟩ := isObject_eq_true_iff.mp hobject
    rw [hfields] at hequal hsafety hscope hhistorical hmaterial hkeys ⊢
    rw [eq_iff_of_equal_object hstated hsafety hequal]
    intro key hkey
    have hheld := equal_get hequal hkey
    have hknown := hkeys key hkey
    simp only [List.mem_cons, List.not_mem_nil, or_false] at hknown
    rcases hknown with rfl | rfl | rfl
    · exact eq_of_equal hscope hheld
    · exact eq_of_isBoolean hstatedHistorical hhistorical hheld
    · exact eq_of_isBoolean hstatedMaterial hmaterial hheld

/-- Equal inputs are identical where the safety is. -/
theorem inputs_iff (hvalid : ExperimentDossier.IsValid primitives dossier summary)
    {stated : Json}
    (hequal : ∀ field ∈ expectedInputs dossier, equal (stated.get field.1) field.2 = true) :
    (∀ field ∈ expectedInputs dossier, stated.get field.1 = field.2) ↔
      stated.get "safety" = dossier.get "safety" := by
  constructor
  · intro hsame
    exact hsame ("safety", dossier.get "safety") (by simp [expectedInputs])
  · intro hsafety field hfield
    by_cases hname : field.1 = "safety"
    · rw [hname, eq_safety hfield hname, hsafety]
    · exact eq_of_equal (rigid_expectedInputs hvalid field hfield hname) (hequal field hfield)

end ValidDossiers

/-! ## Verified attestations -/

/-- For every dossier and every envelope that verify: the receipt states the
documents of the dossier, byte by byte, exactly when it states an integer and
truth values where the dossier must. -/
theorem bindsExactly_iff (primitives : Primitives) (dossier envelope : Document)
    {trusted : String → Option Bytes} {verified : VerifiedAttestation}
    (hverified : verifyIndependentRunnerAttestation { primitives with equal := Json.equal }
      dossier.1 envelope.1 trusted = .ok verified) :
    BindsExactly dossier.1 envelope.1 ↔ StatesTypes envelope.1 := by
  have hchecks := isVerified_of_verify hverified
  have hvalid := ExperimentDossier.isValid_of_validateExperimentDossier hchecks.dossierValid
  obtain ⟨receipt, hsigned, -⟩ := hchecks.signed
  obtain ⟨payload, hshaped⟩ := LabExecutionReceipt.shaped_of_verifySignedReceipt hsigned
  obtain ⟨hinputsObject, hexecutionObject, hartifactsObject⟩ :=
    LabExecutionReceipt.parts_of_validateReceiptShape hshaped
  have hpart (key : String) : ((envelope.1.get "receipt").get key).IsCanonical :=
    isCanonical_get (isCanonical_get envelope.2 "receipt") key
  have hinputs := isIdentical_iff (hpart "inputs") hinputsObject hchecks.inputs.1
    nodup_expectedInputs (isCanonical_expectedInputs dossier.2)
    (exact_expectedInputs hvalid dossier.2)
  have hexecution := isIdentical_iff (hpart "execution") hexecutionObject hchecks.execution.1
    (by simp [expectedExecution]) (isCanonical_expectedExecution dossier.2)
    (exact_expectedExecution hvalid)
  have hartifacts : IsIdentical ((envelope.1.get "receipt").get "artifacts")
      [("items", expectedArtifacts dossier.1)] := by
    have hrigid := rigid_expectedArtifacts hvalid
    have hitems := eq_of_equal hrigid (hchecks.artifacts.2 _ (List.mem_singleton_self _))
    refine (isIdentical_iff (hpart "artifacts") hartifactsObject hchecks.artifacts.1
      (by simp) ?_ ?_).mpr ?_
    · simpa using isCanonical_expectedArtifacts dossier.2
    · simpa using exact_of_rigid hrigid
    · simpa using hitems
  have hsafety := safety_iff hvalid dossier.2
    (isCanonical_get (hpart "inputs") "safety")
    (hchecks.inputs.2 ("safety", dossier.1.get "safety") (by simp [expectedInputs]))
  rw [inputs_iff hvalid hchecks.inputs.2, hsafety] at hinputs
  rw [execution_iff hvalid hchecks.execution.2] at hexecution
  constructor
  · intro hbinds
    obtain ⟨hhistorical, hmaterial⟩ := hinputs.mp hbinds.inputs
    obtain ⟨hexitCode, htimedOut, htestPassed⟩ := hexecution.mp hbinds.execution
    exact ⟨hexitCode, htimedOut, htestPassed, hhistorical, hmaterial⟩
  · intro htypes
    exact ⟨hinputs.mpr ⟨htypes.historicalCode, htypes.keyMaterial⟩,
      hexecution.mpr ⟨htypes.exitCode, htypes.timedOut, htypes.testPassed⟩, hartifacts⟩

/-! ## A receipt that states `0` for `False` -/

namespace LooseSample

open ReplayRegistry.Sample (dossier envelope receipt digest keySha256 publicKey signatureText)

/-- The receipt of the sample run, which did not time out: `timed_out` is `0`. -/
def looseReceipt : Json := .object [
  ("artifacts", receipt.get "artifacts"),
  ("execution", .object [
    ("completed_at", .text "2026-10-12T06:00:03Z"),
    ("exit_code", .int 0),
    ("result_sha256", digest 'e'),
    ("started_at", .text "2026-10-12T06:00:00Z"),
    ("test_passed", .bool true),
    ("timed_out", .int 0)]),
  ("experiment_id", .text "check-v1"),
  ("inputs", receipt.get "inputs"),
  ("receipt_type", .text "aegisforge.lab_execution"),
  ("run_id", .text "run-1"),
  ("schema_version", .int 1)]

def looseSignatureText : String :=
  "CcwxuXUF7KgxexGTnBkubguFjq/7K4v0xxvVcNVExbqUfQjtAknYUtOPmSrHDMLUUWT9l4jGQeapn5LfnT9+CA=="

def looseEnvelope : Json := .object [
  ("algorithm", .text "Ed25519"),
  ("key_id", .text "key-1"),
  ("receipt", looseReceipt),
  ("receipt_sha256",
    .text "8209f480e95a8688c16a2f74d3fdd084d41558af785148866bc174393d6153f8"),
  ("schema_version", .int 1),
  ("signature", .text looseSignatureText),
  ("signer_public_key_sha256", .text keySha256)]

/-- The key has signed the two receipts. -/
def signatureValid (key signed _payload : Bytes) : Bool :=
  key = publicKey && [signatureText, looseSignatureText].any fun text =>
    Base64.decode? text = some signed

/-- `datetime.fromisoformat(value.replace("Z", "+00:00"))` with a time zone. -/
def fromIsoFormat (value : String) : Option Time := do
  let replaced := value.toList.flatMap fun character =>
    if character = 'Z' then "+00:00".toList else [character]
  let parsed ← DateTime.fromisoformat replaced
  if parsed.offset.isSome then some parsed.instant.toNat else none

def primitives : Primitives where
  dossiers :=
    { canonicalJson := fun value => value.sortKeys.canonicalText?.map String.ofList
      sha256 := fun bytes => (Sha256.sha256 bytes).text
      fromIsoFormat := fromIsoFormat }
  receipts :=
    { canonicalJson := canonicalJson
      sha256 := fun bytes => (Sha256.sha256 bytes).text
      decodeBase64 := Base64.decode?
      signatureValid := signatureValid }
  equal := Json.equal

def trustedPublicKeys (keyId : String) : Option Bytes :=
  if keyId = "key-1" then some publicKey else none

theorem isCanonical_looseEnvelope : looseEnvelope.IsCanonical := by
  have hreceipt := isCanonical_get ReplayRegistry.Sample.isCanonical_envelope "receipt"
  have hartifacts : (receipt.get "artifacts").IsCanonical := isCanonical_get hreceipt _
  have hinputs : (receipt.get "inputs").IsCanonical := isCanonical_get hreceipt _
  simp [-String.lt_iff_ltb, looseEnvelope, looseReceipt, digest, hartifacts, hinputs]

theorem verifies : ∀ signed ∈ [envelope, looseEnvelope], ∃ verified,
    verifyIndependentRunnerAttestation primitives dossier signed trustedPublicKeys =
      .ok verified := by
  have haccepted : ∀ signed ∈ [envelope, looseEnvelope],
      (verifyIndependentRunnerAttestation primitives dossier signed
        trustedPublicKeys).toOption.isSome = true := by decide +kernel
  intro signed hmem
  obtain ⟨verified, hverified⟩ := Option.isSome_iff_exists.mp (haccepted signed hmem)
  exact ⟨verified, eq_ok_of_toOption hverified⟩

end LooseSample

open LooseSample ReplayRegistry.Sample in
theorem bindsExactly_iff_envelope : BindsExactly dossier envelope ↔ StatesTypes envelope := by
  obtain ⟨verified, hverified⟩ := LooseSample.verifies envelope (by simp)
  exact bindsExactly_iff LooseSample.primitives ⟨dossier, isCanonical_dossier⟩
    ⟨envelope, isCanonical_envelope⟩ hverified

open LooseSample ReplayRegistry.Sample in
/-- A receipt with `0` for `False` verifies. -/
theorem not_bindsExactly_looseEnvelope :
    ¬ ∀ (dossier envelope : Document) (trusted : String → Option Bytes)
      (verified : VerifiedAttestation),
      verifyIndependentRunnerAttestation LooseSample.primitives dossier.1 envelope.1 trusted =
        .ok verified → BindsExactly dossier.1 envelope.1 := by
  intro hbinds
  obtain ⟨verified, hverified⟩ := LooseSample.verifies looseEnvelope (by simp)
  have hexact := hbinds ⟨dossier, isCanonical_dossier⟩
    ⟨looseEnvelope, isCanonical_looseEnvelope⟩ trustedPublicKeys verified hverified
  have hstated := congrArg (fun value : Json => isBoolean (value.get "timed_out"))
    hexact.execution.value
  revert hstated
  decide +kernel

end AegisForge.Shared.IndependentRunnerAttestation
