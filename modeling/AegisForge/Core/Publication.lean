import Mathlib.Logic.Function.Basic
import Mathlib.Data.List.Basic

/-!
# Publishing files

Files are created one after another, each only where nothing stands yet.  When one of
them fails, those that were created before it are removed, and what is there is what
was there before.
-/

namespace AegisForge.Core.Publication

universe u v w

/-- What stands at each path. -/
abbrev Files (Path : Type u) (Content : Type v) := Path → Option Content

/-- What a step answers, and the files after it. -/
abbrev Step (Path : Type u) (Content : Type v) (Error : Type w) :=
  Except Error PUnit.{1} × Files Path Content

variable {Path : Type u} {Content : Type v} {Error : Type w} [DecidableEq Path]

/-- `path.unlink(missing_ok=True)`. -/
def unlink (path : Path) (files : Files Path Content) : Files Path Content :=
  Function.update files path none

def unlinkAll (paths : List Path) (files : Files Path Content) : Files Path Content :=
  paths.foldl (fun files path => unlink path files) files

/-- A file is created where nothing stands, or nothing changes. -/
structure IsExclusive (create : Path → Content → Files Path Content → Step Path Content Error) :
    Prop where
  unchanged : ∀ {path content files error after},
    create path content files = (.error error, after) → after = files
  absent : ∀ {path content files after},
    create path content files = (.ok ⟨⟩, after) → files path = none
  created : ∀ {path content files after},
    create path content files = (.ok ⟨⟩, after) → after = Function.update files path (some content)

/-- The files are created in their order, with the paths of those that are there. -/
def publish (create : Path → Content → Files Path Content → Step Path Content Error) :
    List Path → List (Path × Content) → Files Path Content → Step Path Content Error
  | _, [], files => (.ok ⟨⟩, files)
  | written, (path, content) :: rest, files =>
      match create path content files with
      | (.ok _, after) => publish create (written ++ [path]) rest after
      | (.error error, after) => (.error error, unlinkAll written after)

theorem unlinkAll_apply (paths : List Path) (files : Files Path Content) (path : Path) :
    unlinkAll paths files path = if path ∈ paths then none else files path := by
  induction paths generalizing files with
  | nil => simp [unlinkAll]
  | cons first rest ih =>
      have hfirst : unlinkAll (first :: rest) files = unlinkAll rest (unlink first files) := rfl
      rw [hfirst, ih, unlink]
      by_cases hsame : path = first
      · simp [hsame]
      · simp [hsame]

/-- A file that was created is taken back with those before it. -/
theorem unlinkAll_update {written : List Path} {path : Path} {content : Option Content}
    {files : Files Path Content} (habsent : files path = none) :
    unlinkAll (written ++ [path]) (Function.update files path content) =
      unlinkAll written files := by
  funext other
  rw [unlinkAll_apply, unlinkAll_apply]
  by_cases hsame : other = path
  · simp [hsame, habsent]
  · simp [hsame]

section Publishing

variable {create : Path → Content → Files Path Content → Step Path Content Error}

/-- Files that were not all created are all taken back. -/
theorem publish_error (hcreate : IsExclusive create) {contents : List (Path × Content)}
    {written : List Path} {files after : Files Path Content} {error : Error}
    (hpublish : publish create written contents files = (.error error, after)) :
    after = unlinkAll written files := by
  induction contents generalizing written files with
  | nil => cases hpublish
  | cons first rest ih =>
      obtain ⟨path, content⟩ := first
      rw [publish] at hpublish
      split at hpublish
      case h_1 middle hfirst =>
        have hrest := ih hpublish
        rw [hcreate.created hfirst] at hrest
        rw [hrest, unlinkAll_update (hcreate.absent hfirst)]
      case h_2 hfirst =>
        obtain ⟨-, rfl⟩ := Prod.mk.inj hpublish
        rw [hcreate.unchanged hfirst]

/-- What is there when all the files were created. -/
structure IsPublished (contents : List (Path × Content)) (files after : Files Path Content) :
    Prop where
  absent : ∀ file ∈ contents, files file.1 = none
  created : ∀ file ∈ contents, after file.1 = some file.2
  unchanged : ∀ path ∉ contents.map Prod.fst, after path = files path

theorem publish_ok (hcreate : IsExclusive create) {contents : List (Path × Content)}
    {written : List Path} {files after : Files Path Content}
    (hpublish : publish create written contents files = (.ok ⟨⟩, after)) :
    IsPublished contents files after := by
  induction contents generalizing written files with
  | nil =>
      obtain ⟨-, rfl⟩ := Prod.mk.inj hpublish
      exact ⟨nofun, nofun, fun _ _ => rfl⟩
  | cons first rest ih =>
      obtain ⟨path, content⟩ := first
      rw [publish] at hpublish
      split at hpublish
      case h_2 => cases hpublish
      case h_1 middle hfirst =>
        have hrest := ih hpublish
        have habsent := hcreate.absent hfirst
        rw [hcreate.created hfirst] at hrest
        -- A path that is taken is not created again.
        have hfresh : ∀ file ∈ rest, file.1 ≠ path := by
          intro file hfile hsame
          have htaken := hrest.absent file hfile
          rw [hsame, Function.update_self] at htaken
          cases htaken
        have hkept : path ∉ rest.map Prod.fst := by
          intro hmem
          obtain ⟨file, hfile, hsame⟩ := List.mem_map.mp hmem
          exact hfresh file hfile hsame
        constructor
        case absent =>
          rw [List.forall_mem_cons]
          refine ⟨habsent, fun file hfile => ?_⟩
          have hother := hrest.absent file hfile
          rwa [Function.update_of_ne (hfresh file hfile)] at hother
        case created =>
          rw [List.forall_mem_cons]
          refine ⟨?_, hrest.created⟩
          rw [hrest.unchanged path hkept, Function.update_self]
        case unchanged =>
          intro other hother
          rw [List.map_cons, List.mem_cons, not_or] at hother
          rw [hrest.unchanged other hother.2, Function.update_of_ne hother.1]

end Publishing

end AegisForge.Core.Publication
