import Mathlib.Data.List.Induction

/-!
# Hash chains

Each link of a chain commits to its body and to the hash of the link before it.
Under a digest without collisions that never answers the start of a chain, the
head determines the whole chain.
-/

namespace AegisForge.Core

@[ext]
structure Link (Body Hash : Type*) where
  body : Body
  previous : Hash
  hash : Hash
  deriving DecidableEq, Repr

variable {Body Hash : Type*}

/-- The links lead from the hash `start` to the hash `head`. -/
def Linked (digest : Body → Hash → Hash) : Hash → List (Link Body Hash) → Hash → Prop
  | start, [], head => head = start
  | start, link :: rest, head =>
      link.previous = start ∧ link.hash = digest link.body start ∧
        Linked digest link.hash rest head

namespace Linked

variable {digest : Body → Hash → Hash} {start head : Hash} {links : List (Link Body Hash)}

theorem nil (start : Hash) : Linked digest start [] start := rfl

theorem append_iff {earlier later : List (Link Body Hash)} :
    Linked digest start (earlier ++ later) head ↔
      ∃ middle, Linked digest start earlier middle ∧ Linked digest middle later head := by
  induction earlier generalizing start with
  | nil => simp [Linked]
  | cons link rest ih =>
      simp only [List.cons_append, Linked, ih]
      constructor
      · rintro ⟨hprevious, hhash, middle, hrest, hlater⟩
        exact ⟨middle, ⟨hprevious, hhash, hrest⟩, hlater⟩
      · rintro ⟨middle, ⟨hprevious, hhash, hrest⟩, hlater⟩
        exact ⟨hprevious, hhash, middle, hrest, hlater⟩

theorem concat_iff {link : Link Body Hash} :
    Linked digest start (links ++ [link]) head ↔
      ∃ middle, Linked digest start links middle ∧ link.previous = middle ∧
        link.hash = digest link.body middle ∧ head = link.hash := by
  rw [append_iff]
  rfl

/-- A chain grows by a link to its head. -/
theorem concat (hlinked : Linked digest start links head) (body : Body) :
    Linked digest start (links ++ [⟨body, head, digest body head⟩]) (digest body head) :=
  concat_iff.mpr ⟨head, hlinked, rfl, rfl, rfl⟩

/-- Every hash is the digest of what its link says. -/
theorem hash_eq (hlinked : Linked digest start links head) {link : Link Body Hash}
    (hmem : link ∈ links) : link.hash = digest link.body link.previous := by
  induction links generalizing start with
  | nil => cases hmem
  | cons first rest ih =>
      obtain ⟨hprevious, hhash, hrest⟩ := hlinked
      rcases List.mem_cons.mp hmem with rfl | htail
      · rw [hprevious]
        exact hhash
      · exact ih hrest htail

/-- The head is the hash of the last link. -/
theorem head_eq (hlinked : Linked digest start links head) :
    head = (links.getLast?.map Link.hash).getD start := by
  induction links using List.reverseRecOn with
  | nil => exact hlinked
  | append_singleton earlier link _ =>
      obtain ⟨middle, -, -, -, hhead⟩ := concat_iff.mp hlinked
      simp [hhead]

/-- A change of the bodies that the digests agree on keeps chains. -/
theorem map_iff {Body' : Type*} {digest' : Body' → Hash → Hash} {change : Body → Body'}
    (hdigest : ∀ body previous, digest' (change body) previous = digest body previous) :
    Linked digest' start (links.map fun link => ⟨change link.body, link.previous, link.hash⟩)
      head ↔ Linked digest start links head := by
  induction links generalizing start with
  | nil => rfl
  | cons link rest ih => simp [Linked, ih, hdigest]

/-- A chain that comes back to its start has links only where one answers it. -/
theorem eq_nil_of_hash_ne (hlinked : Linked digest start links start)
    (hstart : ∀ link ∈ links, link.hash ≠ start) : links = [] := by
  cases links using List.reverseRecOn with
  | nil => rfl
  | append_singleton earlier link =>
      obtain ⟨-, -, -, -, hhead⟩ := concat_iff.mp hlinked
      exact absurd hhead.symm (hstart link (by simp))

/-- Of two chains with one head, whose hashes belong to one link each, the longer
one comes back to the start before the other begins. -/
theorem suffix_of_head_eq {others : List (Link Body Hash)}
    (hbinds : ∀ link ∈ links, ∀ other ∈ others, other.hash = link.hash →
      other.body = link.body ∧ other.previous = link.previous)
    (hlinked : Linked digest start links head) (hothers : Linked digest start others head) :
    ∃ rest, Linked digest start rest start ∧ (others = rest ++ links ∨ links = rest ++ others) := by
  induction links using List.reverseRecOn generalizing head others with
  | nil =>
      have hhead : head = start := hlinked
      subst hhead
      exact ⟨others, hothers, Or.inl (List.append_nil others).symm⟩
  | append_singleton earlier link ih =>
      obtain ⟨middle, hearlier, hprevious, hhash, hhead⟩ := concat_iff.mp hlinked
      cases others using List.reverseRecOn with
      | nil =>
          have hstart : head = start := hothers
          subst hstart
          exact ⟨earlier ++ [link], hlinked, Or.inr (List.append_nil _).symm⟩
      | append_singleton earlierOthers other =>
          obtain ⟨middle', hearlier', hprevious', -, hhead'⟩ := concat_iff.mp hothers
          have hhashes : other.hash = link.hash := hhead'.symm.trans hhead
          obtain ⟨hbody, hsame⟩ := hbinds link (by simp) other (by simp) hhashes
          have hlink : other = link := Link.ext hbody hsame hhashes
          have hmiddle : middle' = middle := by
            rw [← hprevious', hsame, hprevious]
          subst hlink hmiddle
          have hbefore : ∀ first ∈ earlier, ∀ second ∈ earlierOthers,
              second.hash = first.hash →
                second.body = first.body ∧ second.previous = first.previous :=
            fun first hfirst second hsecond =>
              hbinds first (List.mem_append_left _ hfirst) second
                (List.mem_append_left _ hsecond)
          obtain ⟨rest, hrest, hsuffix⟩ := ih hbefore hearlier hearlier'
          refine ⟨rest, hrest, hsuffix.imp ?_ ?_⟩
          · rintro rfl
            exact List.append_assoc _ _ _
          · rintro rfl
            exact List.append_assoc _ _ _

/-- Chains of one length with one head are the same. -/
theorem eq_of_length_eq {others : List (Link Body Hash)}
    (hbinds : ∀ link ∈ links, ∀ other ∈ others, other.hash = link.hash →
      other.body = link.body ∧ other.previous = link.previous)
    (hlength : others.length = links.length)
    (hlinked : Linked digest start links head) (hothers : Linked digest start others head) :
    others = links := by
  obtain ⟨rest, -, rfl | rfl⟩ := suffix_of_head_eq hbinds hlinked hothers
  · have hnil : rest = [] := by simpa using hlength
    rw [hnil, List.nil_append]
  · have hnil : rest = [] := by simpa using hlength
    rw [hnil, List.nil_append]

/-- Chains with one head none of whose links answers the start are the same. -/
theorem eq_of_hash_ne {others : List (Link Body Hash)}
    (hbinds : ∀ link ∈ links, ∀ other ∈ others, other.hash = link.hash →
      other.body = link.body ∧ other.previous = link.previous)
    (hstart : ∀ link ∈ links ++ others, link.hash ≠ start)
    (hlinked : Linked digest start links head) (hothers : Linked digest start others head) :
    others = links := by
  obtain ⟨rest, hrest, hsuffix⟩ := suffix_of_head_eq hbinds hlinked hothers
  have hnil : rest = [] := by
    apply hrest.eq_nil_of_hash_ne
    intro link hlink
    rcases hsuffix with rfl | rfl <;> exact hstart link (by simp [hlink])
  subst hnil
  exact hsuffix.elim id Eq.symm

/-- The head determines a chain whose digests nothing else answers. -/
theorem eq_of_head_eq {others : List (Link Body Hash)}
    (hunique : ∀ link ∈ links, ∀ body previous, digest body previous = link.hash →
      body = link.body ∧ previous = link.previous)
    (hstart : ∀ body previous, digest body previous ≠ start)
    (hlinked : Linked digest start links head) (hothers : Linked digest start others head) :
    others = links := by
  apply eq_of_hash_ne _ _ hlinked hothers
  · intro link hlink other hother hhash
    exact hunique link hlink _ _ ((hothers.hash_eq hother).symm.trans hhash)
  · intro link hlink
    rcases List.mem_append.mp hlink with hleft | hright
    · rw [hlinked.hash_eq hleft]
      exact hstart _ _
    · rw [hothers.hash_eq hright]
      exact hstart _ _

end Linked

end AegisForge.Core
