import Mathlib.Data.List.Dedup
import Mathlib.Data.String.Basic
import AegisForge.Core.CycleSearch
import AegisForge.Core.Grouping
import AegisForge.Core.Json
import AegisForge.Core.Text
import AegisForge.Core.Worklist

/-!
# The lineage of sources

The records of a dossier say from which other records each of them is derived.  The
validator reads these declarations as a graph.  It searches the graph for cycles and
lists, for each source, the known sources that it is derived from in any number of
steps, unless an id on the way is that of several records.
-/

namespace AegisForge.Agents.SourceLineage

open AegisForge.Core AegisForge.Core.DepthFirst AegisForge.Core.Worklist

/-- A record as far as the lineage reads it. -/
structure SourceRecord where
  sourceId : Json
  derivedFromSourceIds : List String := []

/-! ## Ids -/

variable (str : Json → String)

/-- `str(source.get("source_id") or "").strip()`. -/
def idOf (source : SourceRecord) : String :=
  strip (if source.sourceId.isTruthy then str source.sourceId else "")

variable (sources : List SourceRecord)

/-- The ids of the records that have one, a repeated id as often as it stands. -/
def allIds : List String := (sources.map (idOf str)).filter (· ≠ "")

/-- `set(source_id_counts)`. -/
def sourceIds : List String := (allIds str sources).dedup

def duplicateSourceIds : List String :=
  sorted ((sourceIds str sources).filter fun id => 1 < (allIds str sources).count id)

def missingSourceIdCount : ℕ := (sources.map (idOf str)).count ""

/-! ## Declarations -/

/-- `sorted({origin.strip() for origin in derived_from if origin.strip()})`. -/
def normalizedOrigins (source : SourceRecord) : List String :=
  sorted ((source.derivedFromSourceIds.map strip).filter (· ≠ "")).dedup

/-- Whether the record's references are reported as invalid. -/
def isInvalid (source : SourceRecord) : Bool :=
  source.derivedFromSourceIds.any (fun origin => strip origin = "") ||
    (normalizedOrigins source).length ≠ source.derivedFromSourceIds.length ||
    (normalizedOrigins source).any fun origin => origin ∉ sourceIds str sources

def invalidReferences : List String :=
  sorted (((sources.filter (isInvalid str sources)).map fun source =>
    if idOf str source = "" then "<missing-source-id>" else idOf str source).dedup)

def selfReferences : List String :=
  sorted (((sources.filter fun source =>
    idOf str source ≠ "" ∧ idOf str source ∈ normalizedOrigins source).map (idOf str)).dedup)

/-- The origins that are declared for each id; a later record replaces an earlier one. -/
def declaredDerivations : List (String × List String) :=
  sources.foldl (fun declared source =>
    if idOf str source ≠ "" ∧ normalizedOrigins source ≠ [] then
      Grouping.update (idOf str source) (fun _ => normalizedOrigins source) declared
    else declared) []

/-- `declared_derivations.get(source_id, [])`. -/
def originsOf (id : String) : List String := ((declaredDerivations str sources).lookup id).getD []

/-- `sorted(declared_derivations)`. -/
def declaredIds : List String := sorted ((declaredDerivations str sources).map Prod.fst)

/-! ## The report -/

/-- What the report says about the lineage. -/
structure Lineage where
  missingSourceIdCount : ℕ
  duplicateSourceIds : List String
  sourceDerivationDependencies : List (String × List String)
  sourceDerivationAncestors : List (String × List String)
  invalidSourceDerivationReferences : List String
  selfReferentialSourceDerivations : List String
  sourceDerivationCycles : List (List String)
  deriving DecidableEq

/-- The entry of one id among the ancestors, if there is one. -/
def ancestorsOf (id : String) : Option (String × List String) :=
  if id ∈ duplicateSourceIds str sources then none
  else
    let (visited, ambiguousPath) := searchFrom (sourceIds str sources)
      (duplicateSourceIds str sources) (originsOf str sources) id
    if visited ≠ [] ∧ ambiguousPath = false then some (id, sorted visited) else none

def sourceDerivationAncestors : List (String × List String) :=
  (sorted (sourceIds str sources)).filterMap (ancestorsOf str sources)

/-- The analysis; it would not end where the search for cycles does not. -/
def sourceLineage : Option Lineage := do
  let visited ← CycleSearch.visitAll (declaredIds str sources) (originsOf str sources)
  return {
    missingSourceIdCount := missingSourceIdCount str sources
    duplicateSourceIds := duplicateSourceIds str sources
    sourceDerivationDependencies :=
      (declaredIds str sources).map fun id => (id, originsOf str sources id)
    sourceDerivationAncestors := sourceDerivationAncestors str sources
    invalidSourceDerivationReferences := invalidReferences str sources
    selfReferentialSourceDerivations := selfReferences str sources
    sourceDerivationCycles := visited.cycles }

/-! ## Known ids -/

variable {str sources} {id other : String} {ancestors : List String}

theorem mem_declaredIds :
    id ∈ declaredIds str sources ↔ id ∈ (declaredDerivations str sources).map Prod.fst := by
  rw [declaredIds, mem_sorted]

theorem originsOf_of_not_mem_declaredIds (hid : id ∉ declaredIds str sources) :
    originsOf str sources id = [] := by
  rw [mem_declaredIds] at hid
  rw [originsOf, List.lookup_eq_none_iff.mpr, Option.getD_none]
  intro entry hentry
  rw [bne_iff_ne]
  rintro rfl
  exact hid (List.mem_map_of_mem hentry)

/-- Only records with an id declare origins. -/
theorem mem_allIds_of_mem_keys {id : String}
    (hid : id ∈ (declaredDerivations str sources).map Prod.fst) : id ∈ allIds str sources := by
  induction sources using List.reverseRecOn with
  | nil => cases hid
  | append_singleton sources source ih =>
      have hids : allIds str (sources ++ [source]) =
          allIds str sources ++ [idOf str source].filter (· ≠ "") := by
        rw [allIds, allIds, List.map_append, List.filter_append, List.map_singleton]
      rw [declaredDerivations, List.foldl_append, List.foldl_cons, List.foldl_nil] at hid
      rw [declaredDerivations] at ih
      rw [hids]
      split at hid
      case isFalse => exact List.mem_append_left _ (ih hid)
      case isTrue hdeclares =>
        rw [Grouping.keys_update] at hid
        split at hid
        case isTrue => exact List.mem_append_left _ (ih hid)
        case isFalse =>
          rcases List.mem_append.mp hid with hearlier | hlast
          · exact List.mem_append_left _ (ih hearlier)
          · obtain rfl := List.mem_singleton.mp hlast
            exact List.mem_append_right _
              (List.mem_filter.mpr ⟨List.mem_singleton_self _, decide_eq_true hdeclares.1⟩)

theorem originsOf_of_not_mem_sourceIds (hid : id ∉ sourceIds str sources) :
    originsOf str sources id = [] := by
  refine originsOf_of_not_mem_declaredIds fun hdeclared => hid ?_
  rw [sourceIds, List.mem_dedup]
  exact mem_allIds_of_mem_keys (mem_declaredIds.mp hdeclared)

/-! ## Ancestors -/

theorem pairwise_sorted {texts : List String} (hnodup : texts.Nodup) :
    (sorted texts).Pairwise (· < ·) := by
  have htotal : Std.Total fun left right : String => ¬right < left :=
    ⟨fun left right => (le_total left right).imp not_lt.mpr not_lt.mpr⟩
  have htrans : IsTrans String fun left right => ¬right < left :=
    ⟨fun _ _ _ hfirst hsecond => not_lt.mpr ((not_lt.mp hfirst).trans (not_lt.mp hsecond))⟩
  have hordered := List.pairwise_insertionSort (fun left right : String => ¬right < left) texts
  have hdistinct := (List.perm_insertionSort (fun left right : String => ¬right < left)
    texts).nodup_iff.mpr hnodup
  exact (hordered.and hdistinct).imp fun ⟨hle, hne⟩ => (not_lt.mp hle).lt_of_ne hne

/-- The id is that of one record, and no id of several records can be reached from it. -/
def IsUnambiguous (str : Json → String) (sources : List SourceRecord) (id : String) : Prop :=
  id ∈ sourceIds str sources ∧ id ∉ duplicateSourceIds str sources ∧
    ∀ other ∈ duplicateSourceIds str sources, ¬Reaches (originsOf str sources) id other

/-- Another known id that can be reached. -/
def IsAncestor (str : Json → String) (sources : List SourceRecord) (id other : String) : Prop :=
  other ∈ sourceIds str sources ∧ other ≠ id ∧ Reaches (originsOf str sources) id other

/-- What the search for one id publishes. -/
theorem ancestorsOf_eq_some_iff (hid : id ∈ sourceIds str sources) :
    ancestorsOf str sources id = some (other, ancestors) ↔
      other = id ∧ IsUnambiguous str sources id ∧ (∃ other, IsAncestor str sources id other) ∧
        ancestors.Pairwise (· < ·) ∧ ∀ other, other ∈ ancestors ↔ IsAncestor str sources id other := by
  have houtside : ∀ other, other ∉ sourceIds str sources → originsOf str sources other = [] :=
    fun _ => originsOf_of_not_mem_sourceIds
  rw [ancestorsOf]
  split
  case isTrue hduplicate =>
    exact iff_of_false (by simp) fun h => h.2.1.2.1 hduplicate
  case isFalse hsingle =>
    dsimp only
    have hmet := searchFrom_met_iff houtside hsingle
    by_cases hfree : ∀ other ∈ duplicateSourceIds str sources,
        ¬Reaches (originsOf str sources) id other
    case neg =>
      rw [if_neg]
      · exact iff_of_false (by simp) fun h => hfree h.2.1.2.2
      · rintro ⟨-, hunmet⟩
        push Not at hfree
        rw [hmet.mpr hfree] at hunmet
        cases hunmet
    case pos =>
      have hvisited : ∀ other, other ∈ (searchFrom (sourceIds str sources)
          (duplicateSourceIds str sources) (originsOf str sources) id).1 ↔
          IsAncestor str sources id other :=
        fun other => mem_searchFrom_iff houtside hsingle hfree
      have hunmet : (searchFrom (sourceIds str sources) (duplicateSourceIds str sources)
          (originsOf str sources) id).2 = false := by
        rw [← Bool.not_eq_true, hmet]
        rintro ⟨other, hother, hreaches⟩
        exact hfree other hother hreaches
      have hsorted := pairwise_sorted (nodup_searchFrom (sourceIds str sources)
        (duplicateSourceIds str sources) (originsOf str sources) id)
      have hnonempty : (searchFrom (sourceIds str sources) (duplicateSourceIds str sources)
          (originsOf str sources) id).1 ≠ [] ↔ ∃ other, IsAncestor str sources id other := by
        rw [← exists_congr hvisited]
        exact ⟨List.exists_mem_of_ne_nil _, fun ⟨other, hother⟩ => List.ne_nil_of_mem hother⟩
      simp only [hunmet, and_true]
      split
      case isFalse hempty =>
        exact iff_of_false (by simp) fun h => hempty (hnonempty.mpr h.2.2.1)
      case isTrue hsome =>
        simp only [Option.some.injEq, Prod.mk.injEq, eq_comm (a := id)]
        refine and_congr_right fun _ => ⟨?_, ?_⟩
        · rintro rfl
          exact ⟨⟨hid, hsingle, hfree⟩, hnonempty.mp hsome, hsorted, fun other => by
            rw [mem_sorted, hvisited]⟩
        · rintro ⟨-, -, hpairwise, hmem⟩
          refine List.Perm.eq_of_pairwise ?_ hsorted hpairwise ?_
          · exact fun left right _ _ hfirst hsecond => absurd hsecond hfirst.not_gt
          · exact (List.perm_ext_iff_of_nodup (hsorted.imp ne_of_lt) (hpairwise.imp ne_of_lt)).mpr
              fun other => by rw [mem_sorted, hvisited, hmem]

/-- The analysis ends, it reports a cycle exactly if the declarations have one, and it lists
for each unambiguous id with other known ids behind it all of these. -/
theorem sourceLineage_exact (str : Json → String) (sources : List SourceRecord) :
    ∃ lineage, sourceLineage str sources = some lineage ∧
      (lineage.sourceDerivationCycles ≠ [] ↔ Cyclic (originsOf str sources)) ∧
      ∀ id ancestors, (id, ancestors) ∈ lineage.sourceDerivationAncestors ↔
        IsUnambiguous str sources id ∧ (∃ other, IsAncestor str sources id other) ∧
          ancestors.Pairwise (· < ·) ∧
          ∀ other, other ∈ ancestors ↔ IsAncestor str sources id other := by
  have hsearch : ∃ visited, CycleSearch.visitAll (declaredIds str sources)
      (originsOf str sources) = some visited ∧
      (visited.cycles ≠ [] ↔ Cyclic (originsOf str sources)) :=
    CycleSearch.exists_visitAll fun _ => originsOf_of_not_mem_declaredIds
  obtain ⟨visited, hvisited, hcycles⟩ := hsearch
  refine ⟨_, by rw [sourceLineage, hvisited]; rfl, hcycles, fun id ancestors => ?_⟩
  dsimp only
  rw [sourceDerivationAncestors, List.mem_filterMap]
  constructor
  · rintro ⟨source, hsource, hentry⟩
    obtain ⟨rfl, hrest⟩ := (ancestorsOf_eq_some_iff (mem_sorted.mp hsource)).mp hentry
    exact hrest
  · intro hrest
    have hid := hrest.1.1
    exact ⟨id, mem_sorted.mpr hid, (ancestorsOf_eq_some_iff hid).mpr ⟨rfl, hrest⟩⟩

end AegisForge.Agents.SourceLineage
