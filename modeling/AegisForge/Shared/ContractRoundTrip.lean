import Mathlib.Algebra.Order.BigOperators.Group.List
import Mathlib.Data.List.Perm.Basic
import AegisForge.Core.WrittenSize
import AegisForge.Shared.ReproductionContract

/-!
# Contracts in normal form

The validator accepts exactly the dictionaries that are some valid contract, up to the
order of keys and outputs.  What it answers is accepted again and written to the same
bytes; the loader takes these within its limit, which escapes can exceed.
-/

namespace AegisForge.Shared.ReproductionContract

open AegisForge.Core

/-! ## Checks of single values -/

structure IsText (maxBytes : ℕ) (text : String) : Prop where
  filled : isBlank text = false
  stripped : strip text = text
  short : (utf8 text.toList).length ≤ maxBytes
  noNul : '\x00' ∉ text.toList

structure IsExactText (text : String) : Prop where
  short : (utf8 text.toList).length ≤ maxTextBytes
  noNul : '\x00' ∉ text.toList

def IsPath (allowRoot : Bool) (path : String) : Prop :=
  IsText maxTextBytes path ∧ (allowRoot = true ∧ path = "." ∨ isRelativePath path.toList = true)

section Checks

variable {value : Json} {field text : String} {maxBytes : ℕ}

theorem validateStringBytes_bind_eq_ok_iff {A : Type} {rest : PUnit → Except String A}
    {answer : A} :
    (validateStringBytes maxBytes text field >>= rest) = .ok answer ↔
      (utf8 text.toList).length ≤ maxBytes ∧ '\x00' ∉ text.toList ∧ rest ⟨⟩ = .ok answer := by
  rw [validateStringBytes, bind_assoc, raiseUnless_bind_eq_ok_iff, raiseUnless_bind_eq_ok_iff]

theorem checkText_eq_ok_iff :
    checkText maxBytes value field = .ok text ↔ value = .text text ∧ IsText maxBytes text := by
  rw [checkText, orRaise_bind_eq_ok_iff]
  constructor
  · rintro ⟨found, hfound, hrest⟩
    rw [raiseUnless_bind_eq_ok_iff, validateStringBytes_bind_eq_ok_iff] at hrest
    obtain ⟨hstripped, hshort, hnul, hanswer⟩ := hrest
    obtain rfl := Except.ok.inj hanswer
    obtain ⟨hvalue, hfilled⟩ := Option.filter_eq_some_iff.mp hfound
    exact ⟨Json.text?_eq_some_iff.mp hvalue, by simpa using hfilled, hstripped, hshort, hnul⟩
  · rintro ⟨rfl, htext⟩
    refine ⟨text, ?_, ?_⟩
    · rw [Json.filledText?, Json.text?, Option.filter_some, if_pos]
      rw [htext.filled]
      rfl
    · rw [raiseUnless_bind_eq_ok_iff, validateStringBytes_bind_eq_ok_iff]
      exact ⟨htext.stripped, htext.short, htext.noNul, rfl⟩

theorem checkExactText_eq_ok_iff :
    checkExactText value field = .ok text ↔ value = .text text ∧ IsExactText text := by
  rw [checkExactText, orRaise_bind_eq_ok_iff]
  constructor
  · rintro ⟨found, hfound, hrest⟩
    rw [validateStringBytes_bind_eq_ok_iff] at hrest
    obtain ⟨hshort, hnul, hanswer⟩ := hrest
    obtain rfl := Except.ok.inj hanswer
    exact ⟨Json.text?_eq_some_iff.mp hfound, hshort, hnul⟩
  · rintro ⟨rfl, htext⟩
    refine ⟨text, rfl, ?_⟩
    rw [validateStringBytes_bind_eq_ok_iff]
    exact ⟨htext.short, htext.noNul, rfl⟩

theorem checkPath_eq_ok_iff {allowRoot : Bool} :
    checkPath allowRoot value field = .ok text ↔ value = .text text ∧ IsPath allowRoot text := by
  rw [checkPath, bind_eq_ok_iff]
  constructor
  · rintro ⟨path, hpath, hrest⟩
    rw [checkText_eq_ok_iff] at hpath
    obtain ⟨hshape, hanswer⟩ := raiseUnless_bind_eq_ok hrest
    obtain rfl := Except.ok.inj hanswer
    exact ⟨hpath.1, hpath.2, hshape⟩
  · rintro ⟨hvalue, htext, hshape⟩
    exact ⟨text, checkText_eq_ok_iff.mpr ⟨hvalue, htext⟩,
      raiseUnless_bind_eq_ok_iff.mpr ⟨hshape, rfl⟩⟩

theorem checkInt_eq_ok_iff {minimum maximum number : ℤ} :
    checkInt value field minimum maximum = .ok number ↔
      value = .int number ∧ minimum ≤ number ∧ number ≤ maximum := by
  rw [checkInt]
  constructor
  · intro hchecked
    obtain ⟨hvalue, hbounds⟩ := Option.filter_eq_some_iff.mp (orRaise_eq_ok hchecked)
    exact ⟨Json.int?_eq_some_iff.mp hvalue, by simpa using hbounds⟩
  · rintro ⟨rfl, hbounds⟩
    rw [Json.int?, Option.filter_some, if_pos (by simpa using hbounds)]
    rfl

theorem checkObject_bind_eq_ok_iff {A : Type} {expected : List String}
    {rest : PUnit → Except String A} {answer : A} :
    (checkObject value field expected >>= rest) = .ok answer ↔
      (value.isObject = true ∧ ∀ key, key ∈ value.keys ↔ key ∈ expected) ∧
        rest ⟨⟩ = .ok answer := by
  rw [checkObject, bind_assoc, raiseUnless_bind_eq_ok_iff, raiseUnless_bind_eq_ok_iff]
  constructor
  · rintro ⟨hobject, ⟨hknown, hheld⟩, hrest⟩
    exact ⟨⟨hobject, fun key => ⟨hknown key, hheld key⟩⟩, hrest⟩
  · rintro ⟨⟨hobject, hkeys⟩, hrest⟩
    exact ⟨hobject, ⟨fun key hkey => (hkeys key).mp hkey, fun key hkey => (hkeys key).mpr hkey⟩,
      hrest⟩

variable {A : Type} {answer : A}

theorem checkText_bind_eq_ok_iff {rest : String → Except String A} :
    (checkText maxBytes value field >>= rest) = .ok answer ↔
      ∃ text, (value = .text text ∧ IsText maxBytes text) ∧ rest text = .ok answer := by
  simp only [bind_eq_ok_iff, checkText_eq_ok_iff]

theorem checkExactText_bind_eq_ok_iff {rest : String → Except String A} :
    (checkExactText value field >>= rest) = .ok answer ↔
      ∃ text, (value = .text text ∧ IsExactText text) ∧ rest text = .ok answer := by
  simp only [bind_eq_ok_iff, checkExactText_eq_ok_iff]

theorem checkPath_bind_eq_ok_iff {allowRoot : Bool} {rest : String → Except String A} :
    (checkPath allowRoot value field >>= rest) = .ok answer ↔
      ∃ path, (value = .text path ∧ IsPath allowRoot path) ∧ rest path = .ok answer := by
  simp only [bind_eq_ok_iff, checkPath_eq_ok_iff]

theorem checkInt_bind_eq_ok_iff {minimum maximum : ℤ} {rest : ℤ → Except String A} :
    (checkInt value field minimum maximum >>= rest) = .ok answer ↔
      ∃ number, (value = .int number ∧ minimum ≤ number ∧ number ≤ maximum) ∧
        rest number = .ok answer := by
  simp only [bind_eq_ok_iff, checkInt_eq_ok_iff]

end Checks

/-! ## Targets, toolchains and limits -/

structure Target.IsValid (target : Target) : Prop where
  repository : IsText 256 target.repository ∧ isRepository target.repository.toList = true
  commitSha : IsText 40 target.commitSha ∧ isHex 40 target.commitSha.toList = true
  scopeReference : IsText 2048 target.scopeReference ∧ isScopeReference target.scopeReference = true
  sourcePath : IsPath false target.sourcePath

structure Toolchain.IsValid (toolchain : Toolchain) : Prop where
  runtime : IsText 128 toolchain.runtime
  version : IsText 128 toolchain.version
  imageDigest : IsText 71 toolchain.imageDigest ∧
    isImageDigest toolchain.imageDigest.toList = true
  imageRef : IsText 512 toolchain.imageRef ∧
    isImageRef toolchain.imageDigest.toList toolchain.imageRef.toList = true

structure Limits.IsValid (limits : Limits) : Prop where
  timeoutSeconds : 1 ≤ limits.timeoutSeconds ∧ limits.timeoutSeconds ≤ 3600
  cpuCores : 1 ≤ limits.cpuCores ∧ limits.cpuCores ≤ 8
  memoryMb : 64 ≤ limits.memoryMb ∧ limits.memoryMb ≤ 16384
  maxProcesses : 1 ≤ limits.maxProcesses ∧ limits.maxProcesses ≤ 256
  maxOutputBytes : 1 ≤ limits.maxOutputBytes ∧ limits.maxOutputBytes ≤ 64 * 1024 * 1024

theorem checkTarget_eq_ok_iff {value : Json} (hnodup : value.keys.Nodup) {target : Target} :
    checkTarget value = .ok target ↔
      value.sortKeys = (Json.object target.fields).sortKeys ∧ target.IsValid := by
  have hfields : (Json.object target.fields).keys.Nodup := by simp [Json.keys, Target.fields]
  rw [Json.sortKeys_eq_object_iff hnodup hfields]
  simp only [Target.fields, List.forall_mem_cons, List.map_cons, List.map_nil, Json.sortKeys,
    Json.sortKeys_eq_text_iff, List.not_mem_nil, false_implies, implies_true, and_true]
  simp only [checkTarget, checkObject_bind_eq_ok_iff, checkText_bind_eq_ok_iff,
    checkPath_bind_eq_ok_iff, raiseUnless_bind_eq_ok_iff]
  constructor
  · rintro ⟨hobject, repository, hrepository, hshape, commitSha, hcommitSha, hhex, scopeReference,
      hscope, hurl, sourcePath, hsource, hanswer⟩
    obtain rfl := Except.ok.inj hanswer
    exact ⟨⟨hobject.1, hobject.2, hrepository.1, hcommitSha.1, hscope.1, hsource.1⟩,
      ⟨hrepository.2, hshape⟩, ⟨hcommitSha.2, hhex⟩, ⟨hscope.2, hurl⟩, hsource.2⟩
  · rintro ⟨⟨hobject, hkeys, hrepository, hcommitSha, hscope, hsource⟩, hvalid⟩
    exact ⟨⟨hobject, hkeys⟩, _, ⟨hrepository, hvalid.repository.1⟩, hvalid.repository.2, _,
      ⟨hcommitSha, hvalid.commitSha.1⟩, hvalid.commitSha.2, _,
      ⟨hscope, hvalid.scopeReference.1⟩, hvalid.scopeReference.2, _,
      ⟨hsource, hvalid.sourcePath⟩, rfl⟩

theorem checkToolchain_eq_ok_iff {value : Json} (hnodup : value.keys.Nodup)
    {toolchain : Toolchain} :
    checkToolchain value = .ok toolchain ↔
      value.sortKeys = (Json.object toolchain.fields).sortKeys ∧ toolchain.IsValid := by
  have hfields : (Json.object toolchain.fields).keys.Nodup := by simp [Json.keys, Toolchain.fields]
  rw [Json.sortKeys_eq_object_iff hnodup hfields]
  simp only [Toolchain.fields, List.forall_mem_cons, List.map_cons, List.map_nil, Json.sortKeys,
    Json.sortKeys_eq_text_iff, List.not_mem_nil, false_implies, implies_true, and_true]
  simp only [checkToolchain, checkObject_bind_eq_ok_iff, checkText_bind_eq_ok_iff,
    raiseUnless_bind_eq_ok_iff]
  constructor
  · rintro ⟨hobject, runtime, hruntime, version, hversion, digest, hdigest, hdigestShape, ref, href,
      hrefShape, hanswer⟩
    obtain rfl := Except.ok.inj hanswer
    exact ⟨⟨hobject.1, hobject.2, hruntime.1, hversion.1, href.1, hdigest.1⟩, hruntime.2,
      hversion.2, ⟨hdigest.2, hdigestShape⟩, ⟨href.2, hrefShape⟩⟩
  · rintro ⟨⟨hobject, hkeys, hruntime, hversion, href, hdigest⟩, hvalid⟩
    exact ⟨⟨hobject, hkeys⟩, _, ⟨hruntime, hvalid.runtime⟩, _, ⟨hversion, hvalid.version⟩, _,
      ⟨hdigest, hvalid.imageDigest.1⟩, hvalid.imageDigest.2, _, ⟨href, hvalid.imageRef.1⟩,
      hvalid.imageRef.2, rfl⟩

theorem checkLimits_eq_ok_iff {value : Json} (hnodup : value.keys.Nodup) {limits : Limits} :
    checkLimits value = .ok limits ↔
      value.sortKeys = (Json.object limits.fields).sortKeys ∧ limits.IsValid := by
  have hfields : (Json.object limits.fields).keys.Nodup := by simp [Json.keys, Limits.fields]
  rw [Json.sortKeys_eq_object_iff hnodup hfields]
  simp only [Limits.fields, List.forall_mem_cons, List.map_cons, List.map_nil, Json.sortKeys,
    Json.sortKeys_eq_int_iff, List.not_mem_nil, false_implies, implies_true, and_true]
  simp only [checkLimits, checkObject_bind_eq_ok_iff, checkInt_bind_eq_ok_iff]
  constructor
  · rintro ⟨hobject, timeout, htimeout, cores, hcores, memory, hmemory, processes, hprocesses,
      bytes, hbytes, hanswer⟩
    obtain rfl := Except.ok.inj hanswer
    exact ⟨⟨hobject.1, hobject.2, htimeout.1, hcores.1, hmemory.1, hprocesses.1, hbytes.1⟩,
      htimeout.2, hcores.2, hmemory.2, hprocesses.2, hbytes.2⟩
  · rintro ⟨⟨hobject, hkeys, htimeout, hcores, hmemory, hprocesses, hbytes⟩, hvalid⟩
    exact ⟨⟨hobject, hkeys⟩, _, ⟨htimeout, hvalid.timeoutSeconds⟩, _, ⟨hcores, hvalid.cpuCores⟩, _,
      ⟨hmemory, hvalid.memoryMb⟩, _, ⟨hprocesses, hvalid.maxProcesses⟩, _,
      ⟨hbytes, hvalid.maxOutputBytes⟩, rfl⟩

/-! ## Commands -/

/-- The argument at an index. -/
structure IsArg (index : ℕ) (text : String) : Prop where
  exactText : IsExactText text
  executable : index = 0 → isBlank text = false
  singleLine : isSingleLine text = true

theorem checkArgs_eq_ok_iff {index : ℕ} {items : List Json} {command : List String} :
    checkArgs index items = .ok command ↔
      items = command.map .text ∧ ∀ arg ∈ command.zipIdx index, IsArg arg.2 arg.1 := by
  induction items generalizing index command with
  | nil =>
      cases command with
      | nil => simp [checkArgs, pure, Except.pure]
      | cons text rest => simp [checkArgs, pure, Except.pure]
  | cons item rest ih =>
      simp only [checkArgs, checkExactText_bind_eq_ok_iff, raiseUnless_bind_eq_ok_iff]
      constructor
      · rintro ⟨text, ⟨rfl, hexact⟩, hexecutable, hline, hrest⟩
        obtain ⟨others, hothers, hanswer⟩ := bind_eq_ok hrest
        obtain rfl := Except.ok.inj hanswer
        obtain ⟨rfl, hvalid⟩ := ih.mp hothers
        rw [List.zipIdx_cons, List.forall_mem_cons]
        exact ⟨rfl, ⟨hexact, hexecutable, hline⟩, hvalid⟩
      · rintro ⟨hitems, hvalid⟩
        cases command with
        | nil => cases hitems
        | cons text others =>
            rw [List.map_cons, List.cons.injEq] at hitems
            rw [List.zipIdx_cons, List.forall_mem_cons] at hvalid
            obtain ⟨rfl, rfl⟩ := hitems
            refine ⟨text, ⟨rfl, hvalid.1.exactText⟩, hvalid.1.executable, hvalid.1.singleLine, ?_⟩
            exact bind_eq_ok_iff.mpr ⟨others, ih.mpr ⟨rfl, hvalid.2⟩, rfl⟩

structure IsCommand (command : List String) : Prop where
  nonempty : command ≠ []
  bounded : command.length ≤ maxCommandArgs
  args : ∀ arg ∈ command.zipIdx, IsArg arg.2 arg.1

theorem checkCommand_eq_ok_iff {value : Json} {command : List String} :
    checkCommand value = .ok command ↔
      value.sortKeys = (Json.array (command.map .text)).sortKeys ∧ IsCommand command := by
  have hsorted : (Json.array (command.map .text)).sortKeys = .array (command.map .text) :=
    Json.sortKeys_eq_texts_iff.mpr rfl
  rw [hsorted, Json.sortKeys_eq_texts_iff, checkCommand, orRaise_bind_eq_ok_iff]
  constructor
  · rintro ⟨items, hitems, hargs⟩
    obtain ⟨hvalue, hbounds⟩ := Option.filter_eq_some_iff.mp hitems
    obtain ⟨rfl, hvalid⟩ := checkArgs_eq_ok_iff.mp hargs
    simp only [ne_eq, List.map_eq_nil_iff, List.length_map, decide_eq_true_eq] at hbounds
    exact ⟨Json.array?_eq_some_iff.mp hvalue, hbounds.1, hbounds.2, hvalid⟩
  · rintro ⟨rfl, hvalid⟩
    refine ⟨_, ?_, checkArgs_eq_ok_iff.mpr ⟨rfl, hvalid.args⟩⟩
    rw [Json.array?, Option.filter_some, if_pos]
    simpa using ⟨hvalid.nonempty, hvalid.bounded⟩

/-! ## Environments -/

structure IsEntry (entry : String × String) : Prop where
  name : isEnvName entry.1.toList = true
  harmless : isSensitive entry.1.toList = false
  exactText : IsExactText entry.2
  singleLine : isSingleLine entry.2 = true

structure IsEnvironment (environment : List (String × String)) : Prop where
  bounded : environment.length ≤ 128
  entries : ∀ entry ∈ environment, IsEntry entry
  sorted : environment.Pairwise fun left right => left.1 < right.1

/-- An entry as a field. -/
def entryField (entry : String × String) : String × Json := (entry.1, .text entry.2)

theorem entryField_injective : Function.Injective entryField := by
  intro left right hsame
  obtain ⟨hname, htext⟩ := Prod.ext_iff.mp hsame
  exact Prod.ext hname (Json.text.inj htext)

theorem map_fst_entryField (entries : List (String × String)) :
    (entries.map entryField).map Prod.fst = entries.map Prod.fst := by
  rw [List.map_map]
  rfl

theorem checkEntries_eq_ok_iff {fields : List (String × Json)} {entries : List (String × String)} :
    checkEntries fields = .ok entries ↔
      fields = entries.map entryField ∧ ∀ entry ∈ entries, IsEntry entry := by
  induction fields generalizing entries with
  | nil => cases entries <;> simp [checkEntries, pure, Except.pure]
  | cons field rest ih =>
      obtain ⟨key, value⟩ := field
      simp only [checkEntries, checkExactText_bind_eq_ok_iff, raiseUnless_bind_eq_ok_iff]
      constructor
      · rintro ⟨hname, hharmless, text, ⟨rfl, hexact⟩, hline, hrest⟩
        obtain ⟨others, hothers, hanswer⟩ := bind_eq_ok hrest
        obtain rfl := Except.ok.inj hanswer
        obtain ⟨rfl, hvalid⟩ := ih.mp hothers
        rw [List.forall_mem_cons]
        exact ⟨rfl, ⟨hname, hharmless, hexact, hline⟩, hvalid⟩
      · rintro ⟨hfields, hvalid⟩
        cases entries with
        | nil => cases hfields
        | cons entry others =>
            rw [List.map_cons, List.cons.injEq] at hfields
            rw [List.forall_mem_cons] at hvalid
            obtain ⟨hfield, rfl⟩ := hfields
            obtain ⟨rfl, rfl⟩ := Prod.ext_iff.mp hfield
            refine ⟨hvalid.1.name, hvalid.1.harmless, _, ⟨rfl, hvalid.1.exactText⟩,
              hvalid.1.singleLine, ?_⟩
            exact bind_eq_ok_iff.mpr ⟨others, ih.mpr ⟨rfl, hvalid.2⟩, rfl⟩

/-- Dictionaries of texts with the same entries sort alike. -/
theorem sortKeys_environmentJson_of_perm {left right : List (String × String)}
    (hperm : left.Perm right) (hnodup : (left.map Prod.fst).Nodup) :
    (environmentJson left).sortKeys = (environmentJson right).sortKeys := by
  have hleft : (environmentJson left).keys.Nodup := by
    rwa [← map_fst_entryField] at hnodup
  have hright : (environmentJson right).keys.Nodup := by
    have hother := (hperm.map Prod.fst).nodup_iff.mp hnodup
    rwa [← map_fst_entryField] at hother
  refine (Json.sortKeys_eq_object_iff hleft hright).mpr ⟨rfl, ?_, ?_⟩
  · intro key
    exact ((hperm.map entryField).map Prod.fst).mem_iff
  · intro field hfield
    have hlisted : field ∈ left.map entryField := (hperm.map entryField).mem_iff.mpr hfield
    rw [environmentJson, Json.get, Json.get?, Json.lookup_of_mem hleft hlisted]
    rfl

theorem sortKeys_environmentJson {environment : List (String × String)}
    (hsorted : environment.Pairwise fun left right => left.1 < right.1) :
    (environmentJson environment).sortKeys = environmentJson environment := by
  refine Json.sortKeys_of_isCanonical (.object (List.pairwise_map.mpr hsorted) ?_)
  intro field hfield
  obtain ⟨entry, -, rfl⟩ := List.mem_map.mp hfield
  exact .text _

/-- A dictionary that sorts as an environment does lists its entries. -/
theorem exists_entries {value : Json} (hnodup : value.keys.Nodup)
    {environment : List (String × String)}
    (hsame : value.sortKeys = environmentJson environment) :
    ∃ entries, value = environmentJson entries ∧ entries.Perm environment := by
  cases value with
  | object fields =>
      rw [Json.sortKeys, environmentJson, Json.object.injEq] at hsame
      have hperm := Json.perm_sortFields hnodup
      rw [hsame] at hperm
      have htexts : ∀ field ∈ fields, ∃ text, field.2 = .text text := by
        intro field hfield
        have hlisted := hperm.mem_iff.mpr (List.mem_map_of_mem hfield)
        obtain ⟨entry, -, hentry⟩ := List.mem_map.mp hlisted
        have hvalue : field.2.sortKeys = .text entry.2 := (congrArg Prod.snd hentry).symm
        exact ⟨entry.2, Json.sortKeys_eq_text_iff.mp hvalue⟩
      let entries := fields.map fun field => (field.1, field.2.text?.getD "")
      have hfields : fields = entries.map entryField := by
        rw [List.map_map]
        refine ((List.map_congr_left ?_).trans (List.map_id fields)).symm
        intro field hfield
        obtain ⟨text, htext⟩ := htexts field hfield
        have hread : Json.text (field.2.text?.getD "") = field.2 := by
          rw [htext]
          rfl
        exact Prod.ext rfl hread
      refine ⟨entries, congrArg Json.object hfields, ?_⟩
      have hsorted : (fields.map fun field => (field.1, field.2.sortKeys)) =
          entries.map entryField := by
        rw [hfields, List.map_map]
        rfl
      rw [hsorted] at hperm
      exact ((List.map_perm_map_iff entryField_injective).mp hperm).symm
  | _ => cases hsame

theorem checkEnvironment_eq_ok_iff {value : Json} (hnodup : value.keys.Nodup)
    {environment : List (String × String)} :
    checkEnvironment value = .ok environment ↔
      value.sortKeys = (environmentJson environment).sortKeys ∧ IsEnvironment environment := by
  rw [checkEnvironment, orRaise_bind_eq_ok_iff]
  constructor
  · rintro ⟨fields, hfields, hrest⟩
    obtain ⟨hvalue, hbounded⟩ := Option.filter_eq_some_iff.mp hfields
    obtain ⟨entries, hentries, hanswer⟩ := bind_eq_ok hrest
    obtain rfl := Except.ok.inj hanswer
    obtain ⟨rfl, hvalid⟩ := checkEntries_eq_ok_iff.mp hentries
    have hobject : value = environmentJson entries := by
      cases value with
      | object _ => exact congrArg Json.object (Option.some.inj hvalue)
      | _ => cases hvalue
    have honce : (entries.map Prod.fst).Nodup := by
      rw [hobject] at hnodup
      rwa [← map_fst_entryField]
    have hperm := List.perm_insertionSort (fun left right : String × String => left.1 ≤ right.1)
      entries
    refine ⟨?_, ?_, ?_, ?_⟩
    · rw [hobject]
      exact sortKeys_environmentJson_of_perm hperm.symm honce
    · simpa [hperm.length_eq] using hbounded
    · intro entry hentry
      exact hvalid entry (hperm.mem_iff.mp hentry)
    · exact pairwise_insertionSort_key Prod.fst honce
  · rintro ⟨hsame, hvalid⟩
    rw [sortKeys_environmentJson hvalid.sorted] at hsame
    obtain ⟨entries, rfl, hperm⟩ := exists_entries hnodup hsame
    refine ⟨entries.map entryField, ?_, ?_⟩
    · rw [environmentJson, fields?, Option.filter_some, if_pos]
      · rfl
      · simpa [hperm.length_eq] using hvalid.bounded
    · refine bind_eq_ok_iff.mpr ⟨entries, checkEntries_eq_ok_iff.mpr ⟨rfl, ?_⟩, ?_⟩
      · intro entry hentry
        exact hvalid.entries entry (hperm.mem_iff.mp hentry)
      · exact congrArg Except.ok (insertionSort_key_eq_of_perm Prod.fst hperm hvalid.sorted)

/-! ## Expected outputs -/

structure IsOutput (output : Output) : Prop where
  path : IsPath false output.path
  sha256 : IsText 64 output.sha256 ∧ isHex 64 output.sha256.toList = true

structure AreOutputs (outputs : List Output) : Prop where
  nonempty : outputs ≠ []
  bounded : outputs.length ≤ maxOutputs
  each : ∀ output ∈ outputs, IsOutput output
  sorted : outputs.Pairwise fun left right => left.path < right.path

theorem nodup_keys_toJson (output : Output) : output.toJson.keys.Nodup := by
  simp [Output.toJson, Output.fields, Json.keys]

theorem sortKeys_eq_output_iff {item : Json} (hnodup : item.keys.Nodup) {output : Output} :
    item.sortKeys = output.toJson.sortKeys ↔
      (item.isObject = true ∧ ∀ key, key ∈ item.keys ↔ key ∈ ["path", "sha256"]) ∧
        item.get "path" = .text output.path ∧ item.get "sha256" = .text output.sha256 := by
  rw [Output.toJson, Json.sortKeys_eq_object_iff hnodup (nodup_keys_toJson output)]
  simp only [Output.fields, List.forall_mem_cons, List.map_cons, List.map_nil, Json.sortKeys,
    Json.sortKeys_eq_text_iff, List.not_mem_nil, false_implies, implies_true, and_true, and_assoc]

theorem checkOutputs_eq_ok_iff {seenPaths : List String} {items : List Json}
    (honce : ∀ item ∈ items, item.keys.Nodup) {outputs : List Output} :
    checkOutputs seenPaths items = .ok outputs ↔
      items.map Json.sortKeys = outputs.map (fun output => output.toJson.sortKeys) ∧
        (∀ output ∈ outputs, IsOutput output ∧ output.path ∉ seenPaths) ∧
          (outputs.map Output.path).Nodup := by
  induction items generalizing seenPaths outputs with
  | nil => cases outputs <;> simp [checkOutputs, pure, Except.pure]
  | cons item rest ih =>
      rw [List.forall_mem_cons] at honce
      simp only [checkOutputs, checkObject_bind_eq_ok_iff, checkPath_bind_eq_ok_iff,
        raiseUnless_bind_eq_ok_iff, checkText_bind_eq_ok_iff]
      constructor
      · rintro ⟨hobject, path, hpath, hfresh, digest, hdigest, hhex, hrest⟩
        obtain ⟨others, hothers, hanswer⟩ := bind_eq_ok hrest
        obtain rfl := Except.ok.inj hanswer
        obtain ⟨hsame, hvalid, hnodup⟩ := (ih honce.2).mp hothers
        have hitem : item.sortKeys = (⟨path, digest⟩ : Output).toJson.sortKeys :=
          (sortKeys_eq_output_iff honce.1).mpr ⟨hobject, hpath.1, hdigest.1⟩
        rw [List.map_cons, List.map_cons, List.map_cons, List.nodup_cons, List.forall_mem_cons,
          hitem, hsame]
        refine ⟨rfl, ⟨⟨⟨hpath.2, hdigest.2, hhex⟩, hfresh⟩, ?_⟩, ?_, hnodup⟩
        · intro output houtput
          exact ⟨(hvalid output houtput).1,
            fun hmem => (hvalid output houtput).2 (List.mem_cons_of_mem _ hmem)⟩
        · intro hmem
          obtain ⟨output, houtput, hequal⟩ := List.mem_map.mp hmem
          exact (hvalid output houtput).2 (hequal ▸ List.mem_cons_self)
      · rintro ⟨hsame, hvalid, hnodup⟩
        cases outputs with
        | nil => cases hsame
        | cons output others =>
            rw [List.map_cons, List.map_cons, List.cons.injEq] at hsame
            rw [List.forall_mem_cons] at hvalid
            rw [List.map_cons, List.nodup_cons] at hnodup
            obtain ⟨hobject, hpath, hdigest⟩ := (sortKeys_eq_output_iff honce.1).mp hsame.1
            refine ⟨hobject, output.path, ⟨hpath, hvalid.1.1.path⟩, hvalid.1.2, output.sha256,
              ⟨hdigest, hvalid.1.1.sha256.1⟩, hvalid.1.1.sha256.2, ?_⟩
            refine bind_eq_ok_iff.mpr ⟨others, (ih honce.2).mpr ⟨hsame.2, ?_, hnodup.2⟩, rfl⟩
            intro other hother
            refine ⟨(hvalid.2 other hother).1, ?_⟩
            rw [List.mem_cons, not_or]
            refine ⟨?_, (hvalid.2 other hother).2⟩
            intro hequal
            exact hnodup.1 (hequal ▸ List.mem_map_of_mem hother)

/-- The value lists outputs, in any order. -/
def Lists (value : Json) (outputs : List Output) : Prop :=
  ∃ items, value = .array items ∧
    (items.map Json.sortKeys).Perm (outputs.map fun output => output.toJson.sortKeys)

theorem checkExpectedOutputs_eq_ok_iff {value : Json} (honce : value.KeysOnce)
    {outputs : List Output} :
    checkExpectedOutputs value = .ok outputs ↔ Lists value outputs ∧ AreOutputs outputs := by
  rw [checkExpectedOutputs, orRaise_bind_eq_ok_iff]
  constructor
  · rintro ⟨items, hitems, hrest⟩
    obtain ⟨hvalue, hbounds⟩ := Option.filter_eq_some_iff.mp hitems
    obtain rfl := Json.array?_eq_some_iff.mp hvalue
    obtain ⟨listed, hlisted, hanswer⟩ := bind_eq_ok hrest
    obtain rfl := Except.ok.inj hanswer
    have hitemsOnce : ∀ item ∈ items, item.keys.Nodup :=
      fun item hitem => (honce.items item hitem).nodup
    obtain ⟨hsame, hvalid, hnodup⟩ := (checkOutputs_eq_ok_iff hitemsOnce).mp hlisted
    have hperm := List.perm_insertionSort (fun left right : Output => left.path ≤ right.path) listed
    have hlength : items.length = listed.length := by
      rw [← List.length_map Json.sortKeys, hsame, List.length_map]
    simp only [ne_eq, decide_eq_true_eq, hlength] at hbounds
    refine ⟨⟨items, rfl, ?_⟩, ?_, ?_, ?_, ?_⟩
    · rw [hsame]
      exact (hperm.map fun output : Output => output.toJson.sortKeys).symm
    · intro hnil
      have hempty := hperm.length_eq
      rw [hnil, List.length_nil] at hempty
      exact hbounds.1 (List.length_eq_zero_iff.mp (hlength.trans hempty.symm))
    · rw [hperm.length_eq]
      exact hbounds.2
    · intro output houtput
      exact (hvalid output (hperm.mem_iff.mp houtput)).1
    · exact pairwise_insertionSort_key Output.path hnodup
  · rintro ⟨⟨items, rfl, hperm⟩, hvalid⟩
    have hcomposed : Relation.Comp
        (fun left right => left = right.map fun output : Output => output.toJson.sortKeys)
        List.Perm (items.map Json.sortKeys) outputs := by
      rw [List.eq_map_comp_perm]
      exact hperm
    obtain ⟨listed, hsame, hlisted⟩ := hcomposed
    have hlength : items.length = outputs.length := by
      rw [← List.length_map Json.sortKeys, hsame, List.length_map, hlisted.length_eq]
    have hpaths : (outputs.map Output.path).Nodup := (List.pairwise_map.mpr hvalid.sorted).nodup
    refine ⟨items, ?_, ?_⟩
    · rw [Json.array?, Option.filter_some, if_pos]
      simp only [decide_eq_true_eq, hlength]
      refine ⟨?_, hvalid.bounded⟩
      rintro rfl
      exact hvalid.nonempty (List.length_eq_zero_iff.mp hlength.symm)
    · refine bind_eq_ok_iff.mpr ⟨listed, (checkOutputs_eq_ok_iff ?_).mpr ⟨hsame, ?_, ?_⟩, ?_⟩
      · exact fun item hitem => (honce.items item hitem).nodup
      · intro output houtput
        exact ⟨hvalid.each output (hlisted.mem_iff.mp houtput), List.not_mem_nil⟩
      · exact (hlisted.map Output.path).nodup_iff.mpr hpaths
      · exact congrArg Except.ok (insertionSort_key_eq_of_perm Output.path hlisted hvalid.sorted)

/-! ## Contracts -/

structure Contract.IsValid (contract : Contract) : Prop where
  contractId : IsText maxTextBytes contract.contractId
  caseId : IsText maxTextBytes contract.caseId
  hypothesisId : IsText maxTextBytes contract.hypothesisId
  target : contract.target.IsValid
  toolchain : contract.toolchain.IsValid
  command : IsCommand contract.command
  workingDirectory : IsPath true contract.workingDirectory
  environment : IsEnvironment contract.environment
  limits : contract.limits.IsValid
  expectedExitCode : 0 ≤ contract.expectedExitCode ∧ contract.expectedExitCode ≤ 255
  expectedOutputs : AreOutputs contract.expectedOutputs

/-- Two dictionaries are the same but for the order of keys, at any depth, and the order of
the expected outputs. -/
structure Reordered (left right : Json) : Prop where
  isObject : left.isObject = true ∧ right.isObject = true
  keys : ∀ key, key ∈ left.keys ↔ key ∈ right.keys
  others : ∀ key, key ≠ "expected_outputs" → (left.get key).sortKeys = (right.get key).sortKeys
  outputs : ∃ items listed, left.get "expected_outputs" = .array items ∧
    right.get "expected_outputs" = .array listed ∧
      (items.map Json.sortKeys).Perm (listed.map Json.sortKeys)

namespace Reordered

variable {left middle right : Json}

theorem symm (hreordered : Reordered left right) : Reordered right left where
  isObject := hreordered.isObject.symm
  keys key := (hreordered.keys key).symm
  others key hkey := (hreordered.others key hkey).symm
  outputs := by
    obtain ⟨items, listed, hitems, hlisted, hperm⟩ := hreordered.outputs
    exact ⟨listed, items, hlisted, hitems, hperm.symm⟩

theorem trans (hfirst : Reordered left middle) (hsecond : Reordered middle right) :
    Reordered left right where
  isObject := ⟨hfirst.isObject.1, hsecond.isObject.2⟩
  keys key := (hfirst.keys key).trans (hsecond.keys key)
  others key hkey := (hfirst.others key hkey).trans (hsecond.others key hkey)
  outputs := by
    obtain ⟨items, listed, hitems, hlisted, hperm⟩ := hfirst.outputs
    obtain ⟨others, last, hothers, hlast, hpermOther⟩ := hsecond.outputs
    obtain rfl := Json.array.inj (hlisted.symm.trans hothers)
    exact ⟨items, last, hitems, hlast, hperm.trans hpermOther⟩

end Reordered

theorem reordered_toJson_iff {payload : Json} {contract : Contract} :
    Reordered payload contract.toJson ↔
      (payload.isObject = true ∧ ∀ key, key ∈ payload.keys ↔ key ∈ contractFields) ∧
      (∀ field ∈ contract.fields, field.1 ≠ "expected_outputs" →
        (payload.get field.1).sortKeys = field.2.sortKeys) ∧
          Lists (payload.get "expected_outputs") contract.expectedOutputs := by
  have hget : ∀ field ∈ contract.fields, contract.toJson.get field.1 = field.2 := by
    simp only [Contract.fields, List.forall_mem_cons, List.not_mem_nil, false_implies,
      implies_true, and_true]
    exact ⟨rfl, rfl, rfl, rfl, rfl, rfl, rfl, rfl, rfl, rfl, rfl, rfl, rfl⟩
  constructor
  · intro hreordered
    refine ⟨⟨hreordered.isObject.1, hreordered.keys⟩, ?_, ?_⟩
    · intro field hfield hother
      rw [hreordered.others field.1 hother, hget field hfield]
    · obtain ⟨items, listed, hitems, hlisted, hperm⟩ := hreordered.outputs
      obtain rfl : contract.expectedOutputs.map Output.toJson = listed := Json.array.inj hlisted
      refine ⟨items, hitems, ?_⟩
      rw [List.map_map] at hperm
      exact hperm
  · rintro ⟨⟨hobject, hkeys⟩, hothers, items, hitems, hperm⟩
    refine ⟨⟨hobject, rfl⟩, hkeys, ?_, items, _, hitems, rfl, ?_⟩
    · intro key hkey
      by_cases hlisted : key ∈ contractFields
      · obtain ⟨field, hfield, rfl⟩ := List.mem_map.mp (show key ∈ contract.fields.map Prod.fst
          from hlisted)
        rw [hothers field hfield hkey, hget field hfield]
      · have hmissing : key ∉ payload.keys := fun hmem => hlisted ((hkeys key).mp hmem)
        have hmissingHere : key ∉ contract.toJson.keys := hlisted
        rw [Json.get, Json.get, Json.get?_eq_none hmissing, Json.get?_eq_none hmissingHere]
    · rw [List.map_map]
      exact hperm

/-- The validator accepts the dictionaries that are a valid contract, up to the order of keys
and outputs, and answers it. -/
theorem validateReproductionContract_eq_ok_iff {payload : Json} (honce : payload.KeysOnce)
    {contract : Contract} :
    validateReproductionContract payload = .ok contract ↔
      Reordered payload contract.toJson ∧ contract.IsValid := by
  rw [reordered_toJson_iff]
  simp only [validateReproductionContract, checkObject_bind_eq_ok_iff, raiseUnless_bind_eq_ok_iff,
    checkText_bind_eq_ok_iff, checkPath_bind_eq_ok_iff, checkInt_bind_eq_ok_iff,
    @bind_eq_ok_iff String Target Contract (checkTarget _),
    @bind_eq_ok_iff String Toolchain Contract (checkToolchain _),
    @bind_eq_ok_iff String (List String) Contract (checkCommand _),
    @bind_eq_ok_iff String (List (String × String)) Contract (checkEnvironment _),
    @bind_eq_ok_iff String Limits Contract (checkLimits _),
    @bind_eq_ok_iff String (List Output) Contract (checkExpectedOutputs _),
    checkTarget_eq_ok_iff (honce.get "target").nodup,
    checkToolchain_eq_ok_iff (honce.get "toolchain").nodup, checkCommand_eq_ok_iff,
    checkEnvironment_eq_ok_iff (honce.get "environment").nodup,
    checkLimits_eq_ok_iff (honce.get "limits").nodup,
    checkExpectedOutputs_eq_ok_iff (honce.get "expected_outputs")]
  simp only [Contract.fields, List.forall_mem_cons, List.not_mem_nil, false_implies, implies_true,
    and_true]
  constructor
  · rintro ⟨hobject, hversion, contractId, hcontractId, caseId, hcaseId, hypothesisId, hhypothesisId,
      target, htarget, toolchain, htoolchain, command, hcommand, directory, hdirectory, environment,
      henvironment, hnetwork, limits, hlimits, exitCode, hexitCode, outputs, houtputs, hanswer⟩
    obtain rfl := Except.ok.inj hanswer
    refine ⟨⟨hobject, ⟨fun _ => ?_, fun _ => ?_, fun _ => ?_, fun _ => ?_, fun _ => htarget.1,
      fun _ => htoolchain.1, fun _ => hcommand.1, fun _ => ?_, fun _ => henvironment.1,
      fun _ => ?_, fun _ => hlimits.1, fun _ => ?_, fun hother => absurd rfl hother⟩, houtputs.1⟩,
      hcontractId.2, hcaseId.2, hhypothesisId.2, htarget.2, htoolchain.2, hcommand.2, hdirectory.2,
      henvironment.2, hlimits.2, hexitCode.2, houtputs.2⟩
    · rw [hversion]
    · rw [hcontractId.1]
    · rw [hcaseId.1]
    · rw [hhypothesisId.1]
    · rw [hdirectory.1]
    · rw [hnetwork]
    · rw [hexitCode.1]
  · rintro ⟨⟨hobject, ⟨hversion, hcontractId, hcaseId, hhypothesisId, htarget, htoolchain, hcommand,
      hdirectory, henvironment, hnetwork, hlimits, hexitCode, -⟩, houtputs⟩, hvalid⟩
    have htext {key content : String} (hkey : key ≠ "expected_outputs")
        (hsame : key ≠ "expected_outputs" →
          (payload.get key).sortKeys = (Json.text content).sortKeys) :
        payload.get key = .text content := Json.sortKeys_eq_text_iff.mp (hsame hkey)
    exact ⟨hobject, htext (by decide) hversion, _, ⟨htext (by decide) hcontractId,
      hvalid.contractId⟩, _, ⟨htext (by decide) hcaseId, hvalid.caseId⟩, _,
      ⟨htext (by decide) hhypothesisId, hvalid.hypothesisId⟩, _,
      ⟨htarget (by decide), hvalid.target⟩, _, ⟨htoolchain (by decide), hvalid.toolchain⟩, _,
      ⟨hcommand (by decide), hvalid.command⟩, _,
      ⟨htext (by decide) hdirectory, hvalid.workingDirectory⟩, _,
      ⟨henvironment (by decide), hvalid.environment⟩, htext (by decide) hnetwork, _,
      ⟨hlimits (by decide), hvalid.limits⟩, _,
      ⟨Json.sortKeys_eq_int_iff.mp (hexitCode (by decide)), hvalid.expectedExitCode⟩, _,
      ⟨houtputs, hvalid.expectedOutputs⟩, rfl⟩

/-! ## Round trips -/

/-- What the validator answers is a dictionary of its own. -/
theorem reordered_toJson (contract : Contract) : Reordered contract.toJson contract.toJson := by
  refine ⟨⟨rfl, rfl⟩, fun _ => Iff.rfl, fun _ _ => rfl, ?_⟩
  exact ⟨_, _, rfl, rfl, List.Perm.refl _⟩

theorem keysOnce_toJson {contract : Contract} (hvalid : contract.IsValid) :
    contract.toJson.KeysOnce := by
  have henvironment : (environmentJson contract.environment).KeysOnce := by
    rw [← sortKeys_environmentJson hvalid.environment.sorted]
    exact Json.keysOnce_of_isCanonical (Json.isCanonical_sortKeys _)
  have houtputs : ∀ output ∈ contract.expectedOutputs, output.toJson.KeysOnce := by
    intro output _
    exact ⟨nodup_keys_toJson output, trivial, trivial, trivial⟩
  have hcommand : ∀ item ∈ contract.command.map Json.text, item.KeysOnce := by
    rw [List.forall_mem_map]
    exact fun _ _ => trivial
  refine ⟨?_, Json.fieldsKeysOnce_iff.mpr ?_⟩
  · change contractFields.Nodup
    decide
  · simp only [Contract.fields, List.forall_mem_cons, List.not_mem_nil, false_implies,
      implies_true, and_true]
    refine ⟨trivial, trivial, trivial, trivial, ⟨?_, ?_⟩, ⟨?_, ?_⟩,
      Json.itemsKeysOnce_iff.mpr hcommand, trivial, henvironment, trivial, ⟨?_, ?_⟩, trivial,
      Json.itemsKeysOnce_iff.mpr (List.forall_mem_map.mpr houtputs)⟩
    · simp [Target.fields]
    · exact ⟨trivial, trivial, trivial, trivial, trivial⟩
    · simp [Toolchain.fields]
    · exact ⟨trivial, trivial, trivial, trivial, trivial⟩
    · simp [Limits.fields]
    · exact ⟨trivial, trivial, trivial, trivial, trivial, trivial⟩

section Accepted

variable {payload : Json} {contract : Contract}

theorem validate_toJson (hvalid : contract.IsValid) :
    validateReproductionContract contract.toJson = .ok contract :=
  (validateReproductionContract_eq_ok_iff (keysOnce_toJson hvalid)).mpr
    ⟨reordered_toJson contract, hvalid⟩

/-- Neither the order of keys nor that of outputs counts. -/
theorem validate_of_reordered (honce : payload.KeysOnce)
    (haccepted : validateReproductionContract payload = .ok contract) {other : Json}
    (hother : other.KeysOnce) (hreordered : Reordered other payload) :
    validateReproductionContract other = .ok contract := by
  obtain ⟨hsame, hvalid⟩ := (validateReproductionContract_eq_ok_iff honce).mp haccepted
  exact (validateReproductionContract_eq_ok_iff hother).mpr ⟨hreordered.trans hsame, hvalid⟩

theorem canonicalContractBytes_eq (haccepted : validateReproductionContract payload =
      .ok contract) :
    canonicalContractBytes payload = .ok contract.toJson.sortKeys.canonicalBytes := by
  rw [canonicalContractBytes, haccepted]
  rfl

/-- A contract has no floats. -/
theorem exact_toJson (contract : Contract) : contract.toJson.Exact := by
  have htexts (texts : List String) : (Json.array (texts.map .text)).Exact :=
    Json.exactItems_iff.mpr (List.forall_mem_map.mpr fun _ _ => trivial)
  have henvironment : (environmentJson contract.environment).Exact := by
    rw [environmentJson, Json.Exact, Json.exactFields_iff, List.forall_mem_map,
      List.forall_mem_map]
    exact fun _ _ => trivial
  have houtputs : (Json.array (contract.expectedOutputs.map Output.toJson)).Exact :=
    Json.exactItems_iff.mpr (List.forall_mem_map.mpr fun _ _ => ⟨trivial, trivial, trivial⟩)
  exact ⟨trivial, trivial, trivial, trivial, ⟨trivial, trivial, trivial, trivial, trivial⟩,
    ⟨trivial, trivial, trivial, trivial, trivial⟩, htexts contract.command, trivial, henvironment,
    trivial, ⟨trivial, trivial, trivial, trivial, trivial, trivial⟩, trivial, houtputs, trivial⟩

/-- The order of keys and outputs does not change the size. -/
theorem writtenSize_of_reordered {left right : Json} (hleft : left.KeysOnce)
    (hright : right.KeysOnce) (hreordered : Reordered left right) :
    left.writtenSize = right.writtenSize := by
  rw [Json.writtenSize_of_keys hreordered.isObject.1 hleft.nodup hright.nodup hreordered.keys,
    Json.writtenSize_of_keys hreordered.isObject.2 hright.nodup hright.nodup fun _ => Iff.rfl]
  congr 2
  refine List.map_congr_left fun key _ => ?_
  have hsize : (left.get key).writtenSize = (right.get key).writtenSize := by
    by_cases hkey : key = "expected_outputs"
    · obtain ⟨items, listed, hitems, hlisted, hperm⟩ := hreordered.outputs
      have hitemsOnce : (Json.array items).KeysOnce := hitems ▸ hleft.get "expected_outputs"
      have hlistedOnce : (Json.array listed).KeysOnce := hlisted ▸ hright.get "expected_outputs"
      rw [hkey, hitems, hlisted, ← Json.writtenSize_sortKeys _ hitemsOnce,
        ← Json.writtenSize_sortKeys _ hlistedOnce, Json.sortKeys, Json.sortKeys,
        Json.sortItems_eq_map, Json.sortItems_eq_map, Json.writtenSize, Json.writtenSize,
        Json.itemsSize_eq_sum, Json.itemsSize_eq_sum, hperm.length_eq,
        (hperm.map Json.writtenSize).sum_nat]
    · rw [← Json.writtenSize_sortKeys _ (hleft.get key),
        ← Json.writtenSize_sortKeys _ (hright.get key), hreordered.others key hkey]
  rw [Json.fieldSize, Json.fieldSize, hsize]

theorem length_canonicalBytes (honce : payload.KeysOnce)
    (haccepted : validateReproductionContract payload = .ok contract) :
    contract.toJson.sortKeys.canonicalBytes.length = payload.writtenSize := by
  obtain ⟨hsame, hvalid⟩ := (validateReproductionContract_eq_ok_iff honce).mp haccepted
  have htoJson := keysOnce_toJson hvalid
  rw [Json.canonicalBytes, Json.length_utf8_encode, Json.writtenSize_sortKeys _ htoJson,
    writtenSize_of_reordered honce htoJson hsame]

/-- The sorted dictionary is the contract in another order. -/
theorem reordered_sortKeys (hvalid : contract.IsValid) :
    Reordered contract.toJson.sortKeys contract.toJson := by
  have hnodup := (keysOnce_toJson hvalid).nodup
  have hget (key : String) :
      contract.toJson.sortKeys.get key = (contract.toJson.get key).sortKeys :=
    Json.get_sortKeys hnodup key
  have htwice (value : Json) : value.sortKeys.sortKeys = value.sortKeys :=
    Json.sortKeys_of_isCanonical (Json.isCanonical_sortKeys value)
  refine ⟨⟨?_, rfl⟩, fun key => Json.mem_keys_sortKeys, ?_, _, _, hget "expected_outputs", rfl, ?_⟩
  · rw [Json.isObject_sortKeys]
    rfl
  · intro key _
    rw [hget key, htwice]
  · rw [Json.sortItems_eq_map, List.map_map]
    refine List.Perm.of_eq (List.map_congr_left fun item _ => ?_)
    exact htwice item

theorem read_bytes {raw : Octets} {text : List Char} (hsize : raw.length ≤ maxContractBytes)
    (htext : decodeUtf8? raw = some text) : (Raw.bytes raw).read = .ok text := by
  rw [Raw.read, raiseUnless, if_pos hsize, htext]
  rfl

theorem loadReproductionContract_of_read {raw : Raw} {text : List Char} {read : Json}
    (hdecoded : raw.read = .ok text) (hread : Json.readAll text = some read)
    (hregular : read.irregularity? = none) :
    loadReproductionContract raw = validateReproductionContract read := by
  rw [loadReproductionContract, hdecoded]
  change (orRaise _ (Json.readAll text) >>= _) = _
  simp only [hread, orRaise, bind, Except.bind, hregular]

theorem loadReproductionContract_tooLarge {raw : Octets} (hsize : ¬raw.length ≤ maxContractBytes) :
    loadReproductionContract (.bytes raw) = .error "contract_size_limit_exceeded" := by
  rw [loadReproductionContract, Raw.read, raiseUnless, if_neg hsize]
  rfl

/-- The canonical bytes of a value are read back unless they exceed the limit. -/
theorem loadReproductionContract_canonicalBytes {value : Json} (hexact : value.Exact)
    (hvalidated : validateReproductionContract value.sortKeys = .ok contract) :
    loadReproductionContract (.bytes value.sortKeys.canonicalBytes) =
      if value.sortKeys.canonicalBytes.length ≤ maxContractBytes then .ok contract
      else .error "contract_size_limit_exceeded" := by
  have hsorted := Json.exact_sortKeys hexact
  split
  case isFalse hsize => exact loadReproductionContract_tooLarge hsize
  case isTrue hsize =>
    have hdecoded : decodeUtf8? value.sortKeys.canonicalBytes =
        some (Json.encode true value.sortKeys) := decodeUtf8?_utf8 _
    rw [← hvalidated]
    exact loadReproductionContract_of_read (read_bytes hsize hdecoded)
      (Json.readAll_encode true (Json.readable_of_exact hsorted))
      (Json.irregularity?_eq_none (Json.isCanonical_sortKeys value)
        (Json.isFinite_of_exact hsorted))

/-- The loader takes the canonical bytes of a contract within its limit. -/
theorem load_canonicalBytes (hvalid : contract.IsValid) :
    loadReproductionContract (.bytes contract.toJson.sortKeys.canonicalBytes) =
      if contract.toJson.sortKeys.canonicalBytes.length ≤ maxContractBytes then .ok contract
      else .error "contract_size_limit_exceeded" := by
  have honce := Json.keysOnce_of_isCanonical (Json.isCanonical_sortKeys contract.toJson)
  have hvalidated := (validateReproductionContract_eq_ok_iff honce).mpr
    ⟨reordered_sortKeys hvalid, hvalid⟩
  exact loadReproductionContract_canonicalBytes (exact_toJson contract) hvalidated

/-- Validation, serialization and loading agree on a contract. -/
structure RoundTrips (payload : Json) (contract : Contract) : Prop where
  idempotent : validateReproductionContract contract.toJson = .ok contract
  orderFree : ∀ other : Json, other.KeysOnce → Reordered other payload →
    canonicalContractBytes other = canonicalContractBytes payload
  loaded : ∃ bytes, canonicalContractBytes payload = .ok bytes ∧
    loadReproductionContract (.bytes bytes) = .ok contract

/-- Validation is idempotent and the canonical bytes depend on no order; they are loaded
exactly when what is written of the contract, escapes included, is within the limit. -/
theorem contract_roundTrips_iff (honce : payload.KeysOnce)
    (haccepted : validateReproductionContract payload = .ok contract) :
    (validateReproductionContract contract.toJson = .ok contract ∧
      ∀ other : Json, other.KeysOnce → Reordered other payload →
        canonicalContractBytes other = canonicalContractBytes payload) ∧
      (RoundTrips payload contract ↔ payload.writtenSize ≤ maxContractBytes) := by
  obtain ⟨-, hvalid⟩ := (validateReproductionContract_eq_ok_iff honce).mp haccepted
  have hidempotent := validate_toJson hvalid
  have horder (other : Json) (hother : other.KeysOnce) (hreordered : Reordered other payload) :
      canonicalContractBytes other = canonicalContractBytes payload := by
    rw [canonicalContractBytes_eq haccepted,
      canonicalContractBytes_eq (validate_of_reordered honce haccepted hother hreordered)]
  have hloaded := load_canonicalBytes hvalid
  rw [length_canonicalBytes honce haccepted] at hloaded
  refine ⟨⟨hidempotent, horder⟩, ?_, ?_⟩
  · rintro ⟨-, -, bytes, hbytes, hload⟩
    obtain rfl := Except.ok.inj ((canonicalContractBytes_eq haccepted).symm.trans hbytes)
    rw [hload] at hloaded
    by_contra hlarge
    rw [if_neg hlarge] at hloaded
    cases hloaded
  · intro hsize
    rw [if_pos hsize] at hloaded
    exact ⟨hidempotent, horder, _, canonicalContractBytes_eq haccepted, hloaded⟩

end Accepted

/-! ## A contract, and one whose escapes exceed the limit -/

namespace Sample

def digits : List Char := List.replicate 64 'a'

def digest : String := String.ofList digits

def digestMarks : List Char := ['s', 'h', 'a', '2', '5', '6', ':'] ++ digits

def imageDigest : String := String.ofList digestMarks

def imageRef : String := String.ofList (['i', 'm', 'a', 'g', 'e', '@'] ++ digestMarks)

def declared : Contract where
  contractId := "contract-1"
  caseId := "case-1"
  hypothesisId := "hypothesis-1"
  target :=
    { repository := "owner/repository"
      commitSha := "1234567890abcdef1234567890abcdef12345678"
      scopeReference := "https://example.org/scope"
      sourcePath := "src/Vault.sol" }
  toolchain :=
    { runtime := "python"
      version := "3.12"
      imageRef := imageRef
      imageDigest := imageDigest }
  command := ["run"]
  workingDirectory := "."
  environment := [("LANG", "C")]
  limits :=
    { timeoutSeconds := 60
      cpuCores := 1
      memoryMb := 512
      maxProcesses := 16
      maxOutputBytes := 65536 }
  expectedExitCode := 0
  expectedOutputs := [⟨"out/log.txt", digest⟩]

theorem isText_of {maxBytes : ℕ} {text : String}
    (hchecked : (isBlank text = false ∧ strip text = text) ∧
      (utf8 text.toList).length ≤ maxBytes ∧ '\x00' ∉ text.toList) : IsText maxBytes text :=
  ⟨hchecked.1.1, hchecked.1.2, hchecked.2.1, hchecked.2.2⟩

theorem isText_ofList {maxBytes : ℕ} {text : List Char}
    (hchecked : (text.all isSpace = false ∧
        ((text.dropWhile isSpace).reverse.dropWhile isSpace).reverse = text) ∧
      (utf8 text).length ≤ maxBytes ∧ '\x00' ∉ text) : IsText maxBytes (String.ofList text) := by
  have htext : (String.ofList text).toList = text := String.toList_ofList
  refine ⟨?_, ?_, ?_, ?_⟩
  · rw [isBlank, htext, hchecked.1.1]
  · rw [strip, htext, hchecked.1.2]
  · rw [htext]
    exact hchecked.2.1
  · rw [htext]
    exact hchecked.2.2

theorem isCommand_run : IsCommand ["run"] where
  nonempty := List.cons_ne_nil _ _
  bounded := by decide
  args := List.forall_mem_singleton.mpr
    ⟨⟨by decide +kernel, by decide⟩, fun _ => by decide, by decide⟩

theorem isHex_digest : isHex 64 digest.toList = true := by
  rw [digest, String.toList_ofList]
  decide +kernel

theorem isImageDigest_imageDigest : isImageDigest imageDigest.toList = true := by
  rw [imageDigest, String.toList_ofList]
  decide +kernel

theorem isImageRef_imageRef : isImageRef imageDigest.toList imageRef.toList = true := by
  rw [imageDigest, imageRef, String.toList_ofList, String.toList_ofList]
  decide +kernel

theorem isValid_declared : declared.IsValid where
  contractId := isText_of (by decide +kernel)
  caseId := isText_of (by decide +kernel)
  hypothesisId := isText_of (by decide +kernel)
  target :=
    { repository := ⟨isText_of (by decide +kernel), by decide +kernel⟩
      commitSha := ⟨isText_of (by decide +kernel), by decide +kernel⟩
      scopeReference := ⟨isText_of (by decide +kernel), by decide +kernel⟩
      sourcePath := ⟨isText_of (by decide +kernel), by decide +kernel⟩ }
  toolchain :=
    { runtime := isText_of (by decide +kernel)
      version := isText_of (by decide +kernel)
      imageDigest := ⟨isText_ofList (by decide +kernel), isImageDigest_imageDigest⟩
      imageRef := ⟨isText_ofList (by decide +kernel), isImageRef_imageRef⟩ }
  command := isCommand_run
  workingDirectory := ⟨isText_of (by decide +kernel), by decide +kernel⟩
  environment :=
    { bounded := by decide
      entries := List.forall_mem_singleton.mpr
        ⟨by decide +kernel, by decide +kernel, ⟨by decide +kernel, by decide⟩, by decide⟩
      sorted := List.pairwise_singleton _ _ }
  limits :=
    { timeoutSeconds := by decide
      cpuCores := by decide
      memoryMb := by decide
      maxProcesses := by decide
      maxOutputBytes := by decide }
  expectedExitCode := by decide
  expectedOutputs :=
    { nonempty := List.cons_ne_nil _ _
      bounded := by decide
      each := List.forall_mem_singleton.mpr
        ⟨⟨isText_of (by decide +kernel), by decide +kernel⟩, isText_ofList (by decide +kernel),
          isHex_digest⟩
      sorted := List.pairwise_singleton _ _ }

/-- An argument of control characters, each of which is written as an escape. -/
def controls : String := String.ofList (List.replicate maxTextBytes '\x01')

def longCommand : List String := "run" :: List.replicate 127 controls

theorem isCommand_longCommand : IsCommand longCommand where
  nonempty := List.cons_ne_nil _ _
  bounded := by
    rw [longCommand, List.length_cons, List.length_replicate, maxCommandArgs]
  args := by
    rw [longCommand, List.zipIdx_cons, List.forall_mem_cons]
    refine ⟨isCommand_run.args ("run", 0) List.mem_cons_self, ?_⟩
    intro arg harg
    have hindex := List.le_snd_of_mem_zipIdx harg
    have htext := (List.mem_replicate.mp (List.fst_mem_of_mem_zipIdx harg)).2
    rw [htext]
    have hmarks : ∀ mark ∈ controls.toList, mark = '\x01' := by
      rw [controls, String.toList_ofList]
      exact fun mark hmark => (List.mem_replicate.mp hmark).2
    refine ⟨⟨?_, ?_⟩, fun hfirst => by omega, ?_⟩
    · rw [length_utf8_of_ascii fun mark hmark => (hmarks mark hmark) ▸ by decide, controls,
        String.toList_ofList, List.length_replicate]
    · intro hnul
      exact absurd (hmarks _ hnul) (by decide)
    · rw [isSingleLine, Bool.and_eq_true, decide_eq_true_eq, decide_eq_true_eq]
      exact ⟨fun hmark => absurd (hmarks _ hmark) (by decide),
        fun hmark => absurd (hmarks _ hmark) (by decide)⟩

/-- The contract with the long command. -/
def escaped : Contract := { declared with command := longCommand }

theorem isValid_escaped : escaped.IsValid :=
  { isValid_declared with command := isCommand_longCommand }

theorem textSize_controls : Json.textSize controls = 24578 := by
  have hsize : Json.charSize '\x01' = 6 := by decide
  rw [Json.textSize, controls, String.toList_ofList, List.map_replicate, hsize,
    List.sum_replicate_nat, maxTextBytes]

theorem writtenSize_longCommand_ge :
    127 * 24578 ≤ (Json.array (longCommand.map .text)).writtenSize := by
  have hitem : (Json.text controls).writtenSize = 24578 := textSize_controls
  have hlisted : Json.itemsSize (List.replicate 127 (Json.text controls)) = 127 * 24578 := by
    rw [Json.itemsSize_eq_sum, List.map_replicate, hitem, List.sum_replicate_nat]
  rw [longCommand, List.map_cons, List.map_replicate, Json.writtenSize, Json.itemsSize, hlisted]
  exact (Nat.le_add_left _ _).trans (Nat.le_add_left _ _)

/-- A value takes at most what the dictionary does that holds it. -/
theorem writtenSize_get_le {fields : List (String × Json)} {field : String × Json}
    (hfield : field ∈ fields) : field.2.writtenSize ≤ (Json.object fields).writtenSize := by
  have hsum : Json.fieldSize field ≤ (fields.map Json.fieldSize).sum :=
    List.le_sum_of_mem (List.mem_map_of_mem hfield)
  rw [Json.writtenSize, Json.fieldsSize_eq_sum]
  rw [Json.fieldSize] at hsum
  omega

theorem command_mem : ("command", Json.array (longCommand.map .text)) ∈ escaped.fields :=
  .tail _ (.tail _ (.tail _ (.tail _ (.tail _ (.tail _ (.head _))))))

theorem maxContractBytes_lt_writtenSize : maxContractBytes < escaped.toJson.writtenSize := by
  have hlimit : maxContractBytes < 127 * 24578 := by decide
  have hcommand : (Json.array (longCommand.map .text)).writtenSize ≤ escaped.toJson.writtenSize := by
    have hget := writtenSize_get_le command_mem
    rw [Contract.toJson]
    exact hget
  exact lt_of_lt_of_le (lt_of_lt_of_le hlimit writtenSize_longCommand_ge) hcommand

end Sample

open Sample in
theorem roundTrips_declared_iff :
    RoundTrips declared.toJson declared ↔ declared.toJson.writtenSize ≤ maxContractBytes :=
  (contract_roundTrips_iff (keysOnce_toJson isValid_declared) (validate_toJson isValid_declared)).2

open Sample in
/-- A contract whose texts are within their limits may be written beyond the loader's. -/
theorem not_roundTrips_escaped :
    ¬∀ (payload : Json) (contract : Contract), payload.KeysOnce →
      validateReproductionContract payload = .ok contract → RoundTrips payload contract := by
  intro hall
  have honce := keysOnce_toJson isValid_escaped
  have haccepted := validate_toJson isValid_escaped
  have hloaded := (hall escaped.toJson escaped honce haccepted).loaded
  obtain ⟨bytes, hbytes, hload⟩ := hloaded
  obtain rfl := Except.ok.inj ((canonicalContractBytes_eq haccepted).symm.trans hbytes)
  rw [load_canonicalBytes isValid_escaped, length_canonicalBytes honce haccepted,
    if_neg (not_le.mpr maxContractBytes_lt_writtenSize)] at hload
  cases hload

end AegisForge.Shared.ReproductionContract
