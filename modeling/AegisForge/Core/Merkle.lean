import Mathlib.Data.Set.Function

/-!
# Merkle trees that duplicate the last node

A level of odd width is completed by its last node.  The root alone does not fix
the leaves of such a tree, but a root together with a width does: a climb to the
root starts at a leaf of the tree and meets its siblings.
-/

namespace AegisForge.Core.Merkle

variable {D : Type*}

/-! ## Trees -/

/-- The level with its last node once more if its width is odd. -/
def padLast (level : List D) : List D :=
  if level.length % 2 = 1 then level ++ level.getLast?.toList else level

def neighbours : List D → List (D × D)
  | left :: right :: rest => (left, right) :: neighbours rest
  | _ => []

/-- The pairs of nodes with a common parent. -/
def levelPairs (level : List D) : List (D × D) := neighbours (padLast level)

def levelUp (parent : D → D → D) (level : List D) : List D :=
  (levelPairs level).map fun pair => parent pair.1 pair.2

@[simp]
theorem levelPairs_nil : levelPairs ([] : List D) = [] := rfl

@[simp]
theorem levelPairs_singleton (node : D) : levelPairs [node] = [(node, node)] := rfl

@[simp]
theorem levelPairs_cons_cons (left right : D) (rest : List D) :
    levelPairs (left :: right :: rest) = (left, right) :: levelPairs rest := by
  have hparity : (left :: right :: rest).length % 2 = rest.length % 2 := by
    simp only [List.length_cons]
    omega
  rw [levelPairs, levelPairs, padLast, padLast, hparity]
  split
  case isTrue hodd =>
    cases rest with
    | nil => cases hodd
    | cons node others => simp [neighbours]
  case isFalse => rfl

/-- The pair at a position: a last node without neighbour is its own. -/
theorem getElem?_levelPairs (level : List D) (position : ℕ) :
    (levelPairs level)[position]? =
      level[2 * position]?.map fun left => (left, level[2 * position + 1]?.getD left) := by
  match level, position with
  | [], _ => simp
  | [node], 0 => rfl
  | [node], position + 1 =>
      rw [List.getElem?_eq_none (by simp), List.getElem?_eq_none (by simp)]
      rfl
  | left :: right :: rest, 0 => simp
  | left :: right :: rest, position + 1 =>
      rw [levelPairs_cons_cons, List.getElem?_cons_succ, getElem?_levelPairs rest position,
        show 2 * (position + 1) = 2 * position + 1 + 1 by omega, List.getElem?_cons_succ,
        List.getElem?_cons_succ, List.getElem?_cons_succ, List.getElem?_cons_succ]

@[simp]
theorem length_levelPairs (level : List D) :
    (levelPairs level).length = (level.length + 1) / 2 := by
  match level with
  | [] => simp
  | [node] => simp
  | left :: right :: rest =>
      rw [levelPairs_cons_cons, List.length_cons, length_levelPairs rest]
      simp only [List.length_cons]
      omega

variable (parent : D → D → D)

@[simp]
theorem length_levelUp (level : List D) :
    (levelUp parent level).length = (level.length + 1) / 2 := by
  rw [levelUp, List.length_map, length_levelPairs]

theorem length_levelUp_lt {level : List D} (hlong : 1 < level.length) :
    (levelUp parent level).length < level.length := by
  rw [length_levelUp]
  omega

/-- The root, or none of an empty level. -/
def root (level : List D) : Option D :=
  if 1 < level.length then root (levelUp parent level) else level.head?
termination_by level.length
decreasing_by exact length_levelUp_lt parent ‹_›

/-- All pairs of nodes whose parents make up the tree. -/
def treePairs (level : List D) : List (D × D) :=
  if 1 < level.length then levelPairs level ++ treePairs (levelUp parent level) else []
termination_by level.length
decreasing_by exact length_levelUp_lt parent ‹_›

/-- What holds of a level when it holds of the level above it. -/
theorem level_induction {motive : List D → Prop}
    (top : ∀ level, level.length ≤ 1 → motive level)
    (up : ∀ level, 1 < level.length → motive (levelUp parent level) → motive level)
    (level : List D) : motive level := by
  by_cases hlong : 1 < level.length
  · exact up level hlong (level_induction top up (levelUp parent level))
  · exact top level (by omega)
termination_by level.length
decreasing_by exact length_levelUp_lt parent hlong

variable {parent}

theorem root_of_length_le_one {level : List D} (hshort : level.length ≤ 1) :
    root parent level = level.head? := by
  rw [root, if_neg (by omega)]

theorem root_levelUp {level : List D} (hlong : 1 < level.length) :
    root parent (levelUp parent level) = root parent level := by
  rw [root.eq_1 parent level, if_pos hlong]

theorem treePairs_of_one_lt {level : List D} (hlong : 1 < level.length) :
    treePairs parent level = levelPairs level ++ treePairs parent (levelUp parent level) := by
  rw [treePairs, if_pos hlong]

variable (parent) in
theorem isSome_root {level : List D} (hne : level ≠ []) : (root parent level).isSome = true := by
  induction level using level_induction parent with
  | top level hshort =>
      rw [root_of_length_le_one hshort]
      simpa using hne
  | up level hlong ih =>
      rw [← root_levelUp hlong]
      apply ih
      rw [← List.length_pos_iff, length_levelUp]
      omega

/-- A root is a leaf or a parent. -/
theorem root_mem {level : List D} {top : D} (htop : root parent level = some top) :
    top ∈ level ∨ ∃ pair ∈ treePairs parent level, top = parent pair.1 pair.2 := by
  induction level using level_induction parent with
  | top level hshort =>
      rw [root_of_length_le_one hshort] at htop
      exact Or.inl (List.mem_of_head? htop)
  | up level hlong ih =>
      rw [treePairs_of_one_lt hlong]
      rcases ih ((root_levelUp hlong).trans htop) with hup | ⟨pair, hpair, hparent⟩
      · obtain ⟨pair, hpair, hparent⟩ := List.mem_map.mp hup
        exact Or.inr ⟨pair, List.mem_append_left _ hpair, hparent.symm⟩
      · exact Or.inr ⟨pair, List.mem_append_right _ hpair, hparent⟩

/-! ## Paths -/

/-- The node beside a position, which may be the node itself. -/
def siblingOf (level : List D) (index : ℕ) : Option D :=
  level[if index % 2 = 1 then index - 1 else min (index + 1) (level.length - 1)]?

/-- A node and its sibling in the order of the level. -/
def ordered (index : ℕ) (current sibling : D) : D × D :=
  if index % 2 = 0 then (current, sibling) else (sibling, current)

/-- The siblings on the way from a position to the root. -/
def path (parent : D → D → D) (level : List D) (index : ℕ) : List D :=
  if 1 < level.length then
    (siblingOf level index).toList ++ path parent (levelUp parent level) (index / 2)
  else []
termination_by level.length
decreasing_by exact length_levelUp_lt parent ‹_›

/-- Why a climb stops. -/
inductive Refusal
  | siblingMissing
  | duplicateMismatch
  | extraSiblings
  deriving DecidableEq, Repr

/-- The climb along given siblings through levels of given widths. -/
def climb [DecidableEq D] (parent : D → D → D) (width index : ℕ) (current : D) :
    List D → Except Refusal D
  | [] => if 1 < width then .error .siblingMissing else .ok current
  | sibling :: rest =>
      if 1 < width then
        if index % 2 = 0 then
          if width ≤ index + 1 ∧ sibling ≠ current then .error .duplicateMismatch
          else climb parent ((width + 1) / 2) (index / 2) (parent current sibling) rest
        else climb parent ((width + 1) / 2) (index / 2) (parent sibling current) rest
      else .error .extraSiblings

/-- The pairs of nodes whose parents a climb computes. -/
def climbPairs (parent : D → D → D) (width index : ℕ) (current : D) :
    List D → List (D × D)
  | [] => []
  | sibling :: rest =>
      let pair := ordered index current sibling
      pair :: climbPairs parent ((width + 1) / 2) (index / 2) (parent pair.1 pair.2) rest

/-- Whether the node at a position becomes its own sibling on the way to the root. -/
def meetsItself (index width : ℕ) : Bool :=
  if 1 < width then
    (index % 2 = 0 && width ≤ index + 1) || meetsItself (index / 2) ((width + 1) / 2)
  else false
termination_by width
decreasing_by omega

theorem path_of_length_le_one {level : List D} (hshort : level.length ≤ 1) (index : ℕ) :
    path parent level index = [] := by
  rw [path, if_neg (by omega)]

theorem path_of_one_lt {level : List D} (hlong : 1 < level.length) (index : ℕ) :
    path parent level index =
      (siblingOf level index).toList ++ path parent (levelUp parent level) (index / 2) := by
  rw [path, if_pos hlong]

theorem meetsItself_of_one_lt {index width : ℕ} (hlong : 1 < width) :
    meetsItself index width =
      ((index % 2 = 0 && width ≤ index + 1) || meetsItself (index / 2) ((width + 1) / 2)) := by
  rw [meetsItself, if_pos hlong]

theorem meetsItself_of_le_one {index width : ℕ} (hshort : width ≤ 1) :
    meetsItself index width = false := by
  rw [meetsItself, if_neg (by omega)]

theorem isSome_siblingOf {level : List D} {index : ℕ} (hindex : index < level.length) :
    (siblingOf level index).isSome = true := by
  rw [siblingOf, isSome_getElem?]
  split <;> omega

/-- The pair above a position is the node there with its sibling. -/
theorem getElem?_levelPairs_half {level : List D} {index : ℕ} (hindex : index < level.length)
    {current sibling : D} :
    (levelPairs level)[index / 2]? = some (ordered index current sibling) ↔
      level[index]? = some current ∧ siblingOf level index = some sibling := by
  rw [getElem?_levelPairs, siblingOf, ordered]
  rcases Nat.mod_two_eq_zero_or_one index with heven | hodd
  · rw [if_pos heven, if_neg (by omega), show 2 * (index / 2) = index by omega,
      List.getElem?_eq_getElem hindex]
    simp only [Option.map_some, Option.some.injEq, Prod.mk.injEq]
    apply and_congr_right
    rintro rfl
    by_cases hnext : index + 1 < level.length
    · rw [Nat.min_eq_left (by omega), List.getElem?_eq_getElem hnext]
      simp
    · rw [Nat.min_eq_right (by omega), List.getElem?_eq_none (by omega),
        show level.length - 1 = index by omega, List.getElem?_eq_getElem hindex]
      simp
  · rw [if_neg (by omega), if_pos hodd, show 2 * (index / 2) = index - 1 by omega,
      show index - 1 + 1 = index by omega, List.getElem?_eq_getElem hindex,
      List.getElem?_eq_getElem (show index - 1 < level.length by omega)]
    simp [and_comm]

variable (parent) in
theorem getElem?_levelUp_half {level : List D} {index : ℕ} (hindex : index < level.length)
    {current sibling : D} (hcurrent : level[index]? = some current)
    (hsibling : siblingOf level index = some sibling) :
    (levelUp parent level)[index / 2]? =
      some (parent (ordered index current sibling).1 (ordered index current sibling).2) := by
  rw [levelUp, List.getElem?_map,
    (getElem?_levelPairs_half hindex).mpr ⟨hcurrent, hsibling⟩]
  rfl

theorem siblingOf_eq_getElem? {level : List D} {index node : ℕ} (hnode : node < level.length)
    (hne : node ≠ index) (hhalf : node / 2 = index / 2) :
    siblingOf level index = level[node]? := by
  rw [siblingOf]
  congr 1
  split <;> omega

/-- A last node without neighbour is its own sibling. -/
theorem siblingOf_last {level : List D} {index : ℕ} (heven : index % 2 = 0)
    (hlast : level.length = index + 1) : siblingOf level index = level[index]? := by
  rw [siblingOf, if_neg (by omega), Nat.min_eq_right (by omega), hlast, Nat.add_sub_cancel]

section Climbs

variable [DecidableEq D]

/-- The first step of a climb. -/
theorem climb_cons {width index : ℕ} (hlong : 1 < width) {current sibling : D}
    {rest : List D}
    (hduplicate : index % 2 = 0 → width ≤ index + 1 → sibling = current) :
    climb parent width index current (sibling :: rest) =
      climb parent ((width + 1) / 2) (index / 2)
        (parent (ordered index current sibling).1 (ordered index current sibling).2) rest := by
  rw [climb, if_pos hlong, ordered]
  split
  case isTrue heven =>
    rw [if_neg]
    rintro ⟨hlast, hother⟩
    exact hother (hduplicate heven hlast)
  case isFalse => rfl

/-- A climb that gets to the top has used its siblings up. -/
theorem climb_eq_ok {width index : ℕ} {current top : D} {siblings : List D}
    (hclimb : climb parent width index current siblings = .ok top) :
    (width ≤ 1 ∧ siblings = [] ∧ current = top) ∨
      (1 < width ∧ ∃ sibling rest, siblings = sibling :: rest ∧
        (index % 2 = 0 → width ≤ index + 1 → sibling = current)) := by
  cases siblings with
  | nil =>
      rw [climb] at hclimb
      split at hclimb
      case isTrue => cases hclimb
      case isFalse hshort => exact Or.inl ⟨by omega, rfl, Except.ok.inj hclimb⟩
  | cons sibling rest =>
      rw [climb] at hclimb
      split at hclimb
      case isTrue hlong =>
        refine Or.inr ⟨hlong, sibling, rest, rfl, ?_⟩
        intro heven hlast
        rw [if_pos heven] at hclimb
        by_contra hother
        rw [if_pos ⟨hlast, hother⟩] at hclimb
        cases hclimb
      case isFalse => cases hclimb

/-- The climb from a leaf along its own path gets to the root. -/
theorem climb_path {level : List D} {index : ℕ} {current top : D}
    (hcurrent : level[index]? = some current) (htop : root parent level = some top) :
    climb parent level.length index current (path parent level index) = .ok top := by
  induction level using level_induction parent generalizing index current with
  | top level hshort =>
      rw [root_of_length_le_one hshort, List.head?_eq_getElem?] at htop
      obtain ⟨hindex, -⟩ := List.getElem?_eq_some_iff.mp hcurrent
      obtain rfl : index = 0 := by omega
      obtain rfl := Option.some.inj (hcurrent.symm.trans htop)
      rw [path_of_length_le_one hshort, climb, if_neg (by omega)]
  | up level hlong ih =>
      obtain ⟨hindex, -⟩ := List.getElem?_eq_some_iff.mp hcurrent
      obtain ⟨sibling, hsibling⟩ := Option.isSome_iff_exists.mp (isSome_siblingOf hindex)
      have hduplicate : index % 2 = 0 → level.length ≤ index + 1 → sibling = current := by
        intro heven hlast
        rw [siblingOf_last heven (by omega), hcurrent] at hsibling
        exact (Option.some.inj hsibling).symm
      have hup := getElem?_levelUp_half parent hindex hcurrent hsibling
      rw [path_of_one_lt hlong, hsibling, Option.toList_some, List.singleton_append,
        climb_cons hlong hduplicate, ← length_levelUp parent level]
      exact ih hup ((root_levelUp hlong).trans htop)

/-- A climb to the root starts at a leaf and meets the siblings of its path. -/
theorem climb_sound {level : List D} {index : ℕ} {current top : D} {siblings : List D}
    (hindex : index < level.length) (htop : root parent level = some top)
    (hclimb : climb parent level.length index current siblings = .ok top)
    (hinjective : Set.InjOn (fun pair => parent pair.1 pair.2)
      {pair | pair ∈ treePairs parent level ++
        climbPairs parent level.length index current siblings}) :
    level[index]? = some current ∧ path parent level index = siblings := by
  induction level using level_induction parent
    generalizing index current siblings with
  | top level hshort =>
      rw [root_of_length_le_one hshort, List.head?_eq_getElem?] at htop
      obtain rfl : index = 0 := by omega
      rcases climb_eq_ok hclimb with ⟨-, rfl, rfl⟩ | ⟨hlong, -⟩
      · exact ⟨htop, path_of_length_le_one hshort 0⟩
      · omega
  | up level hlong ih =>
      rcases climb_eq_ok hclimb with ⟨hshort, -⟩ | ⟨-, sibling, rest, rfl, hduplicate⟩
      · omega
      rw [climb_cons hlong hduplicate, ← length_levelUp parent level] at hclimb
      rw [treePairs_of_one_lt hlong, climbPairs, ← length_levelUp parent level] at hinjective
      obtain ⟨hup, hpath⟩ := ih (by rw [length_levelUp]; omega) ((root_levelUp hlong).trans htop)
        hclimb (hinjective.mono fun pair hpair => by
          simp only [Set.mem_ofPred_eq, List.mem_append, List.mem_cons] at hpair ⊢
          tauto)
      rw [levelUp, List.getElem?_map, Option.map_eq_some_iff] at hup
      obtain ⟨pair, hpair, hparent⟩ := hup
      have hsame : pair = ordered index current sibling := by
        apply hinjective _ _ hparent
        · have hmem := List.mem_of_getElem? hpair
          simp [hmem]
        · simp
      rw [hsame, getElem?_levelPairs_half hindex] at hpair
      refine ⟨hpair.1, ?_⟩
      rw [path_of_one_lt hlong, hpair.2, hpath, Option.toList_some, List.singleton_append]

end Climbs

/-! ## What a root fixes -/

/-- The pair above a position fixes the node there. -/
theorem getElem?_eq_of_levelPairs {left right : List D} (hlength : left.length = right.length)
    {index : ℕ} (hindex : index < left.length)
    (hpair : (levelPairs left)[index / 2]? = (levelPairs right)[index / 2]?) :
    left[index]? = right[index]? := by
  obtain ⟨sibling, hsibling⟩ := Option.isSome_iff_exists.mp (isSome_siblingOf hindex)
  have hleft := (getElem?_levelPairs_half hindex).mpr
    ⟨List.getElem?_eq_getElem hindex, hsibling⟩
  rw [hpair, getElem?_levelPairs_half (hlength ▸ hindex)] at hleft
  rw [hleft.1, List.getElem?_eq_getElem hindex]

/-- Pairs that are hashed injectively are fixed by their parent. -/
theorem levelPairs_eq_of_levelUp {left right : List D} {position : ℕ}
    (hup : (levelUp parent left)[position]? = (levelUp parent right)[position]?)
    (hinjective : Set.InjOn (fun pair => parent pair.1 pair.2)
      {pair | pair ∈ levelPairs left ++ levelPairs right}) :
    (levelPairs left)[position]? = (levelPairs right)[position]? := by
  simp only [levelUp, List.getElem?_map] at hup
  rcases hleft : (levelPairs left)[position]? with _ | leftPair
  · rw [hleft, Option.map_none, eq_comm, Option.map_eq_none_iff] at hup
    rw [hup]
  · rw [hleft, Option.map_some, eq_comm, Option.map_eq_some_iff] at hup
    obtain ⟨rightPair, hright, hparent⟩ := hup
    rw [hright]
    congr 1
    apply hinjective _ _ hparent.symm
    · simp [List.mem_of_getElem? hleft]
    · simp [List.mem_of_getElem? hright]

/-- A node is fixed by its parent. -/
theorem getElem?_eq_of_levelUp {left right : List D} (hlength : left.length = right.length)
    {index : ℕ} (hindex : index < left.length)
    (hup : (levelUp parent left)[index / 2]? = (levelUp parent right)[index / 2]?)
    (hinjective : Set.InjOn (fun pair => parent pair.1 pair.2)
      {pair | pair ∈ levelPairs left ++ levelPairs right}) : left[index]? = right[index]? :=
  getElem?_eq_of_levelPairs hlength hindex (levelPairs_eq_of_levelUp hup hinjective)

/-- The root of a level of known width fixes the level. -/
theorem eq_of_root_eq {left right : List D} (hlength : left.length = right.length)
    (hroot : root parent left = root parent right)
    (hinjective : Set.InjOn (fun pair => parent pair.1 pair.2)
      {pair | pair ∈ treePairs parent left ++ treePairs parent right}) : left = right := by
  induction left using level_induction parent generalizing right with
  | top level hshort =>
      rw [root_of_length_le_one hshort, root_of_length_le_one (by omega)] at hroot
      match level, right with
      | [], [] => rfl
      | [node], [other] => exact congrArg (fun node => [node]) (Option.some.inj hroot)
  | up level hlong ih =>
      have hlongRight : 1 < right.length := hlength ▸ hlong
      rw [treePairs_of_one_lt hlong, treePairs_of_one_lt hlongRight] at hinjective
      have hup := @ih (levelUp parent right)
        (by rw [length_levelUp, length_levelUp, hlength])
        (by rw [root_levelUp hlong, root_levelUp hlongRight, hroot])
        (hinjective.mono fun pair hpair => by
          simp only [Set.mem_ofPred_eq, List.mem_append] at hpair ⊢
          tauto)
      apply List.ext_getElem?
      intro index
      by_cases hindex : index < level.length
      · apply getElem?_eq_of_levelUp hlength hindex (by rw [hup])
        apply hinjective.mono
        intro pair hpair
        simp only [Set.mem_ofPred_eq, List.mem_append] at hpair ⊢
        tauto
      · rw [List.getElem?_eq_none (by omega), List.getElem?_eq_none (by omega)]

/-- A node is reached from another one by always taking the right child. -/
inductive RightSpine (parent : D → D → D) (used : Set (D × D)) : D → D → Prop
  | here (node : D) : RightSpine parent used node node
  | right {pair : D × D} {last : D} (hused : pair ∈ used)
      (hspine : RightSpine parent used pair.2 last) :
      RightSpine parent used (parent pair.1 pair.2) last

theorem RightSpine.snoc {used : Set (D × D)} {top : D} {pair : D × D} (hused : pair ∈ used)
    {node : D} (hnode : node = parent pair.1 pair.2)
    (hspine : RightSpine parent used top node) : RightSpine parent used top pair.2 := by
  induction hspine with
  | here node => rw [hnode]; exact .right hused (.here pair.2)
  | right husedTop _ ih => exact .right husedTop (ih hnode)

/-- Nodes that are parents of nothing and have the same ancestor on the spine
are the same. -/
theorem RightSpine.unique {used : Set (D × D)} {top left right : D}
    (hinjective : Set.InjOn (fun pair => parent pair.1 pair.2) used)
    (hleftLeaf : ∀ pair ∈ used, left ≠ parent pair.1 pair.2)
    (hrightLeaf : ∀ pair ∈ used, right ≠ parent pair.1 pair.2)
    (hleft : RightSpine parent used top left) (hright : RightSpine parent used top right) :
    left = right := by
  induction hleft with
  | here node =>
      cases hright with
      | here => rfl
      | right hused => exact absurd rfl (hleftLeaf _ hused)
  | @right pair last hused _ ih =>
      generalize htop : parent pair.1 pair.2 = top at hright
      cases hright with
      | here => exact absurd htop.symm (hrightLeaf _ hused)
      | right hother hspine =>
          obtain rfl := hinjective hused hother htop
          exact ih hleftLeaf hspine

theorem getLast?_levelPairs {level : List D} {last : D} (hlast : level.getLast? = some last) :
    ∃ first, (levelPairs level).getLast? = some (first, last) := by
  match level with
  | [node] =>
      obtain rfl := Option.some.inj hlast
      exact ⟨node, rfl⟩
  | [first, node] => exact ⟨first, by simpa using hlast⟩
  | left :: right :: node :: rest =>
      rw [List.getLast?_cons_cons, List.getLast?_cons_cons] at hlast
      obtain ⟨first, hpair⟩ := getLast?_levelPairs hlast
      refine ⟨first, ?_⟩
      rw [levelPairs_cons_cons, List.getLast?_cons, hpair]
      rfl

/-- The last leaf is reached from the root by always taking the right child. -/
theorem rightSpine_root {level : List D} {top last : D} (htop : root parent level = some top)
    (hlast : level.getLast? = some last) {used : Set (D × D)}
    (hused : ∀ pair ∈ treePairs parent level, pair ∈ used) :
    RightSpine parent used top last := by
  induction level using level_induction parent generalizing last with
  | top level hshort =>
      rw [root_of_length_le_one hshort] at htop
      match level with
      | [node] =>
          obtain rfl := Option.some.inj htop
          obtain rfl := Option.some.inj hlast
          exact .here node
  | up level hlong ih =>
      obtain ⟨first, hpair⟩ := getLast?_levelPairs hlast
      rw [treePairs_of_one_lt hlong] at hused
      have hup : (levelUp parent level).getLast? = some (parent first last) := by
        rw [levelUp, List.getLast?_map, hpair]
        rfl
      have hspine := ih ((root_levelUp hlong).trans htop) hup
        fun pair hpair => hused pair (List.mem_append_right _ hpair)
      have hmem := hused _ (List.mem_append_left _ (List.mem_of_getLast? hpair))
      exact hspine.snoc hmem rfl

/-- Levels of any widths with one root end with the same leaf. -/
theorem getLast_eq_of_root_eq {left right : List D} {leftLast rightLast : D}
    (hleftLast : left.getLast? = some leftLast) (hrightLast : right.getLast? = some rightLast)
    (hroot : root parent left = root parent right)
    (hinjective : Set.InjOn (fun pair => parent pair.1 pair.2)
      {pair | pair ∈ treePairs parent left ++ treePairs parent right})
    (hdisjoint : ∀ pair ∈ treePairs parent left ++ treePairs parent right,
      leftLast ≠ parent pair.1 pair.2 ∧ rightLast ≠ parent pair.1 pair.2) :
    leftLast = rightLast := by
  have hne : left ≠ [] := by
    rintro rfl
    cases hleftLast
  obtain ⟨top, htop⟩ := Option.isSome_iff_exists.mp (isSome_root parent hne)
  apply RightSpine.unique hinjective
    (fun pair hpair => (hdisjoint pair hpair).1) (fun pair hpair => (hdisjoint pair hpair).2)
  · exact rightSpine_root htop hleftLast fun pair hpair => List.mem_append_left _ hpair
  · exact rightSpine_root (hroot.symm.trans htop) hrightLast
      fun pair hpair => List.mem_append_right _ hpair

/-! ## The leaves of two trees -/

/-- A node is reached from another one by taking children. -/
inductive Beneath (parent : D → D → D) (used : Set (D × D)) : D → D → Prop
  | here (node : D) : Beneath parent used node node
  | left {pair : D × D} {node : D} (hused : pair ∈ used)
      (hbeneath : Beneath parent used pair.1 node) :
      Beneath parent used (parent pair.1 pair.2) node
  | right {pair : D × D} {node : D} (hused : pair ∈ used)
      (hbeneath : Beneath parent used pair.2 node) :
      Beneath parent used (parent pair.1 pair.2) node

theorem Beneath.trans {used : Set (D × D)} {top middle bottom : D}
    (hupper : Beneath parent used top middle) (hlower : Beneath parent used middle bottom) :
    Beneath parent used top bottom := by
  induction hupper with
  | here node => exact hlower
  | left hused _ ih => exact .left hused (ih hlower)
  | right hused _ ih => exact .right hused (ih hlower)

theorem mem_of_mem_levelPairs {level : List D} {pair : D × D} (hpair : pair ∈ levelPairs level) :
    pair.1 ∈ level ∧ pair.2 ∈ level := by
  match level with
  | [] => cases hpair
  | [node] =>
      obtain rfl := List.mem_singleton.mp hpair
      simp
  | left :: right :: rest =>
      rw [levelPairs_cons_cons] at hpair
      rcases List.mem_cons.mp hpair with rfl | hrest
      · simp
      · obtain ⟨hfirst, hsecond⟩ := mem_of_mem_levelPairs hrest
        simp [hfirst, hsecond]

theorem exists_mem_levelPairs {level : List D} {node : D} (hnode : node ∈ level) :
    ∃ pair ∈ levelPairs level, pair.1 = node ∨ pair.2 = node := by
  match level with
  | [] => cases hnode
  | [other] => exact ⟨(other, other), by simp, Or.inl (List.mem_singleton.mp hnode).symm⟩
  | left :: right :: rest =>
      rw [levelPairs_cons_cons]
      rcases List.mem_cons.mp hnode with rfl | htail
      · exact ⟨_, List.mem_cons_self .., Or.inl rfl⟩
      · rcases List.mem_cons.mp htail with rfl | hrest
        · exact ⟨_, List.mem_cons_self .., Or.inr rfl⟩
        · obtain ⟨pair, hpair, hsame⟩ := exists_mem_levelPairs hrest
          exact ⟨pair, List.mem_cons_of_mem _ hpair, hsame⟩

/-- Every leaf is reached from the root. -/
theorem beneath_root {level : List D} {top : D} (htop : root parent level = some top)
    {used : Set (D × D)} (hused : ∀ pair ∈ treePairs parent level, pair ∈ used) {leaf : D}
    (hleaf : leaf ∈ level) : Beneath parent used top leaf := by
  induction level using level_induction parent generalizing leaf with
  | top level hshort =>
      rw [root_of_length_le_one hshort] at htop
      match level with
      | [node] =>
          obtain rfl := Option.some.inj htop
          obtain rfl := List.mem_singleton.mp hleaf
          exact .here leaf
  | up level hlong ih =>
      rw [treePairs_of_one_lt hlong] at hused
      obtain ⟨pair, hpair, hchild⟩ := exists_mem_levelPairs hleaf
      have hup : parent pair.1 pair.2 ∈ levelUp parent level :=
        List.mem_map.mpr ⟨pair, hpair, rfl⟩
      have hparent := ih ((root_levelUp hlong).trans htop)
        (fun other hother => hused other (List.mem_append_right _ hother)) hup
      have hmem := hused pair (List.mem_append_left _ hpair)
      apply hparent.trans
      rcases hchild with rfl | rfl
      · exact .left hmem (.here _)
      · exact .right hmem (.here _)

/-- The nodes of a tree are its leaves and its parents. -/
def IsNode (parent : D → D → D) (level : List D) (node : D) : Prop :=
  node ∈ level ∨ ∃ pair ∈ treePairs parent level, node = parent pair.1 pair.2

theorem isNode_of_levelUp {level : List D} (hlong : 1 < level.length) {node : D}
    (hnode : IsNode parent (levelUp parent level) node) : IsNode parent level node := by
  rw [IsNode, treePairs_of_one_lt hlong]
  right
  rcases hnode with hmem | ⟨pair, hpair, hsame⟩
  · obtain ⟨pair, hpair, hsame⟩ := List.mem_map.mp hmem
    exact ⟨pair, List.mem_append_left _ hpair, hsame.symm⟩
  · exact ⟨pair, List.mem_append_right _ hpair, hsame⟩

theorem isNode_of_mem_treePairs {level : List D} {pair : D × D}
    (hpair : pair ∈ treePairs parent level) :
    IsNode parent level pair.1 ∧ IsNode parent level pair.2 := by
  induction level using level_induction parent with
  | top level hshort =>
      rw [treePairs, if_neg (by omega)] at hpair
      cases hpair
  | up level hlong ih =>
      rw [treePairs_of_one_lt hlong] at hpair
      rcases List.mem_append.mp hpair with hleaves | habove
      · exact (mem_of_mem_levelPairs hleaves).imp Or.inl Or.inl
      · exact (ih habove).imp (isNode_of_levelUp hlong) (isNode_of_levelUp hlong)

/-- What is reached from a node of a tree without being a parent is a leaf of it. -/
theorem mem_of_beneath {level : List D} {used : Set (D × D)} {top leaf : D}
    (hinjective : Set.InjOn (fun pair => parent pair.1 pair.2) used)
    (hused : ∀ pair ∈ treePairs parent level, pair ∈ used)
    (hleaves : ∀ other ∈ level, ∀ pair ∈ used, other ≠ parent pair.1 pair.2)
    (hleaf : ∀ pair ∈ used, leaf ≠ parent pair.1 pair.2)
    (hbeneath : Beneath parent used top leaf) (hnode : IsNode parent level top) :
    leaf ∈ level := by
  induction hbeneath with
  | here node =>
      rcases hnode with hmem | ⟨pair, hpair, hsame⟩
      · exact hmem
      · exact absurd hsame (hleaf pair (hused pair hpair))
  | left htop _ ih =>
      rcases hnode with hmem | ⟨pair, hpair, hsame⟩
      · exact absurd rfl (hleaves _ hmem _ htop)
      · obtain rfl := hinjective htop (hused pair hpair) hsame
        exact ih hleaf (isNode_of_mem_treePairs hpair).1
  | right htop _ ih =>
      rcases hnode with hmem | ⟨pair, hpair, hsame⟩
      · exact absurd rfl (hleaves _ hmem _ htop)
      · obtain rfl := hinjective htop (hused pair hpair) hsame
        exact ih hleaf (isNode_of_mem_treePairs hpair).2

/-- Trees of any widths with one root have the same leaves. -/
theorem mem_of_root_eq {left right : List D} (hroot : root parent left = root parent right)
    (hinjective : Set.InjOn (fun pair => parent pair.1 pair.2)
      {pair | pair ∈ treePairs parent left ++ treePairs parent right})
    (hdisjoint : ∀ leaf ∈ left ++ right, ∀ pair ∈ treePairs parent left ++ treePairs parent right,
      leaf ≠ parent pair.1 pair.2) {leaf : D} (hleaf : leaf ∈ left) : leaf ∈ right := by
  obtain ⟨top, htop⟩ :=
    Option.isSome_iff_exists.mp (isSome_root parent (List.ne_nil_of_mem hleaf))
  have hbeneath := beneath_root htop (fun pair hpair =>
    (show pair ∈ {pair | pair ∈ treePairs parent left ++ treePairs parent right} from
      List.mem_append_left _ hpair)) hleaf
  exact mem_of_beneath hinjective (fun pair hpair => List.mem_append_right _ hpair)
    (fun other hother => hdisjoint other (List.mem_append_right _ hother))
    (hdisjoint leaf (List.mem_append_left _ hleaf)) hbeneath
    (root_mem (hroot.symm.trans htop))

/-! ## Paths of two trees -/

theorem siblingOf_congr {left right : List D} {index : ℕ}
    (hlength : left.length = right.length) (hindex : index < left.length)
    (hitself : ¬(index % 2 = 0 ∧ left.length ≤ index + 1))
    (hothers : ∀ other, other ≠ index → left[other]? = right[other]?) :
    siblingOf left index = siblingOf right index := by
  rw [siblingOf, siblingOf, hlength]
  apply hothers
  split <;> omega

theorem levelPairs_congr {left right : List D} {index : ℕ}
    (hothers : ∀ other, other ≠ index → left[other]? = right[other]?) (position : ℕ)
    (hposition : position ≠ index / 2) :
    (levelPairs left)[position]? = (levelPairs right)[position]? := by
  rw [getElem?_levelPairs, getElem?_levelPairs, hothers (2 * position) (by omega),
    hothers (2 * position + 1) (by omega)]

/-- A node that never is its own sibling has no part in its path. -/
theorem path_congr {left right : List D} {index : ℕ} (hlength : left.length = right.length)
    (hindex : index < left.length) (hitself : meetsItself index left.length = false)
    (hothers : ∀ other, other ≠ index → left[other]? = right[other]?) :
    path parent left index = path parent right index := by
  induction left using level_induction parent generalizing right index with
  | top level hshort =>
      rw [path_of_length_le_one hshort, path_of_length_le_one (hlength ▸ hshort)]
  | up level hlong ih =>
      rw [meetsItself_of_one_lt hlong, Bool.or_eq_false_iff, ← length_levelUp parent level]
        at hitself
      have hsibling := siblingOf_congr hlength hindex (by simpa using hitself.1) hothers
      have hup := @ih (levelUp parent right) (index / 2)
        (by rw [length_levelUp, length_levelUp, hlength]) (by rw [length_levelUp]; omega)
        hitself.2 fun position hposition => by
          rw [levelUp, levelUp, List.getElem?_map, List.getElem?_map,
            levelPairs_congr hothers position hposition]
      have hlongRight : 1 < right.length := hlength ▸ hlong
      rw [path_of_one_lt hlong, path_of_one_lt hlongRight, hsibling, hup]

/-- A path fixes the leaves beside it, and its own leaf where that leaf has a
part in it. -/
theorem leaves_eq_of_path_eq {left right : List D} {index : ℕ}
    (hlength : left.length = right.length) (hindex : index < left.length)
    (hpath : path parent left index = path parent right index)
    (hinjective : Set.InjOn (fun pair => parent pair.1 pair.2)
      {pair | pair ∈ treePairs parent left ++ treePairs parent right}) :
    (∀ other, other ≠ index → left[other]? = right[other]?) ∧
      (meetsItself index left.length = true → left[index]? = right[index]?) := by
  induction left using level_induction parent generalizing right index with
  | top level hshort =>
      constructor
      · intro other hother
        rw [List.getElem?_eq_none (by omega), List.getElem?_eq_none (by omega)]
      · intro hitself
        rw [meetsItself_of_le_one hshort] at hitself
        cases hitself
  | up level hlong ih =>
      have hlongRight : 1 < right.length := hlength ▸ hlong
      have hindexRight : index < right.length := hlength ▸ hindex
      obtain ⟨sibling, hsibling⟩ := Option.isSome_iff_exists.mp (isSome_siblingOf hindex)
      obtain ⟨other, hother⟩ := Option.isSome_iff_exists.mp (isSome_siblingOf hindexRight)
      rw [path_of_one_lt hlong, path_of_one_lt hlongRight, hsibling, hother] at hpath
      obtain ⟨rfl, hpathUp⟩ := List.cons.inj hpath
      rw [treePairs_of_one_lt hlong, treePairs_of_one_lt hlongRight] at hinjective
      obtain ⟨hothers, hitself⟩ := @ih (levelUp parent right) (index / 2)
        (by rw [length_levelUp, length_levelUp, hlength]) (by rw [length_levelUp]; omega)
        hpathUp (hinjective.mono fun pair hpair => by
          simp only [Set.mem_ofPred_eq, List.mem_append] at hpair ⊢
          tauto)
      have hbelow : ∀ node, node < level.length →
          (levelUp parent level)[node / 2]? = (levelUp parent right)[node / 2]? →
            level[node]? = right[node]? := by
        intro node hnode hup
        apply getElem?_eq_of_levelUp hlength hnode hup
        apply hinjective.mono
        intro pair hpair
        simp only [Set.mem_ofPred_eq, List.mem_append] at hpair ⊢
        tauto
      rw [← hother] at hsibling
      constructor
      · intro node hnode
        by_cases hwidth : node < level.length
        · by_cases hhalf : node / 2 = index / 2
          · rwa [siblingOf_eq_getElem? hwidth hnode hhalf,
              siblingOf_eq_getElem? (hlength ▸ hwidth) hnode hhalf] at hsibling
          · exact hbelow node hwidth (hothers (node / 2) hhalf)
        · rw [List.getElem?_eq_none (by omega), List.getElem?_eq_none (by omega)]
      · intro hmeets
        rw [meetsItself_of_one_lt hlong, Bool.or_eq_true, ← length_levelUp parent level] at hmeets
        rcases hmeets with hlast | hup
        · simp only [Bool.and_eq_true, decide_eq_true_eq] at hlast
          rwa [siblingOf_last hlast.1 (by omega), siblingOf_last hlast.1 (by omega)] at hsibling
        · exact hbelow index hindex (hitself hup)

end AegisForge.Core.Merkle
