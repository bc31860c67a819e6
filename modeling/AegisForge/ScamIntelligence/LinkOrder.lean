import Mathlib.Data.List.Pairwise
import Mathlib.Data.Nat.Choose.Basic
import AegisForge.ScamIntelligence.EntityLinker

/-!
# Links and the order of the transactions

Links of common funders and destinations are written under the pair in the order in
which its addresses come first, a later one replaces an earlier one, and an address
writes twenty of its pairs.  The links do not depend on the order of the transactions
if no pair has two such counterparties and no address has too many pairs.
-/

namespace AegisForge.ScamIntelligence.EntityLinker

open AegisForge.Core.Grouping

/-! ## Pairs -/

section Combinations

variable {Item : Type} {items : List Item} {left right : Item}

theorem length_combinations (items : List Item) :
    (combinations items).length = items.length.choose 2 := by
  induction items with
  | nil => rfl
  | cons first rest ih =>
      rw [combinations, List.length_append, List.length_map, ih, List.length_cons,
        Nat.choose_succ_succ, Nat.choose_one_right]

theorem nodup_combinations (hnodup : items.Nodup) : (combinations items).Nodup := by
  induction items with
  | nil => exact List.nodup_nil
  | cons first rest ih =>
      obtain ⟨hfirst, hrest⟩ := List.nodup_cons.mp hnodup
      rw [combinations, List.nodup_append]
      refine ⟨hrest.map fun _ _ heq => (Prod.mk.injEq _ _ _ _ ▸ heq).2, ih hrest, ?_⟩
      intro pair hpair other hother heq
      obtain ⟨second, -, rfl⟩ := List.mem_map.mp hpair
      subst heq
      exact hfirst (mem_of_mem_combinations hother).1

theorem ne_of_mem_combinations (hnodup : items.Nodup) (hpair : (left, right) ∈ combinations items) :
    left ≠ right := by
  induction items with
  | nil => cases hpair
  | cons first rest ih =>
      obtain ⟨hfirst, hrest⟩ := List.nodup_cons.mp hnodup
      rw [combinations, List.mem_append, List.mem_map] at hpair
      rcases hpair with ⟨second, hsecond, heq⟩ | hpair
      · obtain ⟨rfl, rfl⟩ := Prod.mk.inj heq
        exact fun hsame => hfirst (hsame ▸ hsecond)
      · exact ih hrest hpair

theorem swap_not_mem_combinations (hnodup : items.Nodup)
    (hpair : (left, right) ∈ combinations items) : (right, left) ∉ combinations items := by
  induction items with
  | nil => cases hpair
  | cons first rest ih =>
      obtain ⟨hfirst, hrest⟩ := List.nodup_cons.mp hnodup
      intro hswapped
      rw [combinations, List.mem_append, List.mem_map] at hpair hswapped
      rcases hpair with ⟨second, hsecond, heq⟩ | hpair
      · obtain ⟨rfl, rfl⟩ := Prod.mk.inj heq
        rcases hswapped with ⟨other, hother, heq⟩ | hswapped
        · obtain ⟨rfl, rfl⟩ := Prod.mk.inj heq
          exact hfirst hother
        · exact hfirst (mem_of_mem_combinations hswapped).2
      · rcases hswapped with ⟨other, hother, heq⟩ | hswapped
        · obtain ⟨rfl, rfl⟩ := Prod.mk.inj heq
          exact hfirst (mem_of_mem_combinations hpair).2
        · exact ih hrest hpair hswapped

theorem mem_combinations_or_swap (hleft : left ∈ items) (hright : right ∈ items)
    (hne : left ≠ right) :
    (left, right) ∈ combinations items ∨ (right, left) ∈ combinations items := by
  induction items with
  | nil => cases hleft
  | cons first rest ih =>
      simp only [combinations, List.mem_append, List.mem_map]
      rcases List.mem_cons.mp hleft with rfl | hleftRest
      · have hrightRest := (List.mem_cons.mp hright).resolve_left (Ne.symm hne)
        exact Or.inl (Or.inl ⟨right, hrightRest, rfl⟩)
      · rcases List.mem_cons.mp hright with rfl | hrightRest
        · exact Or.inr (Or.inl ⟨left, hleftRest, rfl⟩)
        · exact (ih hleftRest hrightRest).imp Or.inr Or.inr

end Combinations

/-- An address writes all pairs of its counterparties if there are few. -/
theorem linkedPairs_of_few {known : List (String × List String)} (hmany : 2 ≤ known.length)
    (hfew : known.length ≤ 6) : linkedPairs known = combinations (known.map Prod.fst) := by
  have hpairs : (combinations (known.map Prod.fst)).length ≤ maxCorrelationLinksPerEntity := by
    rw [length_combinations, List.length_map]
    calc known.length.choose 2 ≤ Nat.choose 6 2 := Nat.choose_le_choose 2 hfew
      _ ≤ maxCorrelationLinksPerEntity := by decide
  have hadmitted : ¬maxCommonCounterparties < known.length := by
    rw [maxCommonCounterparties]
    omega
  rw [linkedPairs, if_neg (by omega), if_neg hadmitted]
  dsimp only
  rw [if_neg (by omega)]

/-- An address with more counterparties drops a pair. -/
theorem exists_dropped (known : List (String × List String)) (hnodup : (known.map Prod.fst).Nodup)
    (hmany : 7 ≤ known.length) :
    ∃ pair ∈ combinations (known.map Prod.fst), pair ∉ linkedPairs known := by
  have hpairs : maxCorrelationLinksPerEntity < (combinations (known.map Prod.fst)).length := by
    rw [length_combinations, List.length_map]
    calc maxCorrelationLinksPerEntity < Nat.choose 7 2 := by decide
      _ ≤ known.length.choose 2 := Nat.choose_le_choose 2 hmany
  have hpairsNodup := nodup_combinations hnodup
  rw [linkedPairs, if_neg (by omega)]
  dsimp only
  rw [if_pos hpairs]
  generalize combinations (known.map Prod.fst) = pairs at hpairs hpairsNodup
  -- the pair behind those that are taken
  rw [← List.take_append_drop maxCorrelationLinksPerEntity pairs, List.nodup_append] at hpairsNodup
  obtain ⟨pair, hpair⟩ := List.exists_mem_of_ne_nil
    (pairs.drop maxCorrelationLinksPerEntity) (by simpa using hpairs)
  refine ⟨pair, List.mem_of_mem_drop hpair, fun hlinked => ?_⟩
  split at hlinked
  · cases hlinked
  · exact hpairsNodup.2.2 pair hlinked pair hpair rfl

/-- The two counterparties that come first are linked. -/
theorem first_mem_linkedPairs {known : List (String × List String)} {left right : String}
    (rest : List String) (hkeys : known.map Prod.fst = left :: right :: rest)
    (hadmitted : known.length ≤ maxCommonCounterparties) :
    (left, right) ∈ linkedPairs known := by
  have hlength : known.length = rest.length + 2 := by
    rw [← List.length_map Prod.fst, hkeys]
    rfl
  rw [linkedPairs, if_neg (by omega), if_neg (by omega), hkeys]
  dsimp only
  split
  · exact List.mem_cons_self
  · exact List.mem_cons_self

/-! ## The claim about the order -/

def RelationType.isSymmetric : RelationType → Bool
  | commonFunder | commonDestination => true
  | directTransfer | repeatedCounterparty => false

/-- Links of one relation for one pair, which has no order in a symmetric relation. -/
def SamePair (left right : EntityLink) : Prop :=
  left.relationType = right.relationType ∧
    (left.source = right.source ∧ left.target = right.target ∨
      left.relationType.isSymmetric = true ∧ left.source = right.target ∧
        left.target = right.source)

/-- Links of one relation for one pair with the same hashes. -/
def Alike (left right : EntityLink) : Prop :=
  SamePair left right ∧ ∀ hash, hash ∈ left.txHashes ↔ hash ∈ right.txHashes

def SameLinks (links others : List EntityLink) : Prop :=
  (∀ left ∈ links, ∃ right ∈ others, Alike left right) ∧
    ∀ right ∈ others, ∃ left ∈ links, Alike left right

def OnePerPair (links : List EntityLink) : Prop :=
  links.Pairwise fun left right => ¬SamePair left right

/-- The address has a number of counterparties that the degree limit admits. -/
def Admits (hub other : Transfer → String) (transfers : List Transfer) (address : String) : Prop :=
  2 ≤ (partners hub other transfers address).length ∧
    (partners hub other transfers address).length ≤ maxCommonCounterparties

/-- A link has the hashes of every admitted counterparty that its addresses share. -/
def Covers (correlation : Correlation) (hub other : Transfer → String)
    (transfers : List Transfer) (links : List EntityLink) : Prop :=
  ∀ entityLink ∈ links, entityLink.relationType = correlation.relationType →
    ∀ address, Admits hub other transfers address →
      entityLink.source ∈ partners hub other transfers address →
      entityLink.target ∈ partners hub other transfers address →
        ∀ transfer ∈ transfers, hub transfer = address →
          other transfer = entityLink.source ∨ other transfer = entityLink.target →
            transfer.txHash ∈ entityLink.txHashes

/-- However the transactions are ordered, the links are the same, one for each pair, and
cover the common counterparties. -/
def IndependentOfOrder {Index : Type} (runtime : Runtime)
    (transactions : List (Transaction Index)) : Prop :=
  ∀ reordered : List (Transaction Index), reordered.Perm transactions →
    SameLinks (link runtime transactions) (link runtime reordered) ∧
      OnePerPair (link runtime reordered) ∧
      Covers commonFunder Transfer.source Transfer.target (transfers runtime reordered)
        (link runtime reordered) ∧
      Covers commonDestination Transfer.target Transfer.source (transfers runtime reordered)
        (link runtime reordered)

/-- No pair has two admitted counterparties. -/
def Apart (hub other : Transfer → String) (transfers : List Transfer) : Prop :=
  ∀ first second, Admits hub other transfers first → Admits hub other transfers second →
    ∀ left right, left ≠ right →
      left ∈ partners hub other transfers first → right ∈ partners hub other transfers first →
      left ∈ partners hub other transfers second → right ∈ partners hub other transfers second →
        first = second

/-- No admitted address has so many counterparties that it drops pairs, and no pair has
two of them. -/
structure Unambiguous (hub other : Transfer → String) (transfers : List Transfer) : Prop where
  few : ∀ address, Admits hub other transfers address →
    (partners hub other transfers address).length ≤ 6
  apart : Apart hub other transfers

/-! ## Links of a relation -/

/-- The links of the relation are those of the addresses on one side. -/
def IsSide (correlation : Correlation) (hub other : Transfer → String) : Prop :=
  ∀ transfers entityLink, entityLink ∈ written transfers ∧
    entityLink.relationType = correlation.relationType ↔
      Correlates correlation hub other transfers entityLink

theorem isSide_commonFunder : IsSide commonFunder Transfer.source Transfer.target := by
  intro transfers entityLink
  rw [mem_written_iff]
  constructor
  · rintro ⟨⟨_, _, _, rfl⟩ | ⟨_, _, _, rfl⟩ | hlink | ⟨_, _, _, rfl⟩, htype⟩
    · cases htype
    · cases htype
    · exact hlink
    · cases htype
  · intro hlink
    refine ⟨Or.inr (Or.inr (Or.inl hlink)), ?_⟩
    obtain ⟨_, _, _, rfl⟩ := hlink
    rfl

theorem isSide_commonDestination : IsSide commonDestination Transfer.target Transfer.source := by
  intro transfers entityLink
  rw [mem_written_iff]
  constructor
  · rintro ⟨⟨_, _, _, rfl⟩ | ⟨_, _, _, rfl⟩ | ⟨_, _, _, rfl⟩ | hlink, htype⟩
    · cases htype
    · cases htype
    · cases htype
    · exact hlink
  · intro hlink
    refine ⟨Or.inr (Or.inr (Or.inr hlink)), ?_⟩
    obtain ⟨_, _, _, rfl⟩ := hlink
    rfl

variable {correlation : Correlation} {hub other : Transfer → String}
variable {transfers reordered : List Transfer} {address left right : String}
variable {entityLink : EntityLink}

theorem nodup_partners (hub other : Transfer → String) (transfers : List Transfer)
    (address : String) : (partners hub other transfers address).Nodup :=
  nodup_eraseDups _

theorem length_knownOf (hub other : Transfer → String) (transfers : List Transfer)
    (address : String) :
    (knownOf hub other transfers address).length =
      (partners hub other transfers address).length := by
  rw [← keys_knownOf, List.length_map]

/-- What a link of a common counterparty says about it. -/
structure Shares (hub other : Transfer → String) (transfers : List Transfer)
    (address left right : String) : Prop where
  admits : Admits hub other transfers address
  paired : (left, right) ∈ combinations (partners hub other transfers address)

namespace Shares

theorem left_mem (hshares : Shares hub other transfers address left right) :
    left ∈ partners hub other transfers address :=
  (mem_of_mem_combinations hshares.paired).1

theorem right_mem (hshares : Shares hub other transfers address left right) :
    right ∈ partners hub other transfers address :=
  (mem_of_mem_combinations hshares.paired).2

theorem ne (hshares : Shares hub other transfers address left right) : left ≠ right :=
  ne_of_mem_combinations (nodup_partners hub other transfers address) hshares.paired

end Shares

/-- The link that an address writes for a pair. -/
def shareLink (correlation : Correlation) (hub other : Transfer → String)
    (transfers : List Transfer) (address left right : String) : EntityLink :=
  correlate correlation address (knownOf hub other transfers address) (left, right)

theorem Correlates.shares (hlink : Correlates correlation hub other transfers entityLink) :
    ∃ address, Shares hub other transfers address entityLink.source entityLink.target ∧
      entityLink = shareLink correlation hub other transfers address entityLink.source
        entityLink.target := by
  obtain ⟨address, pair, hpair, rfl⟩ := hlink
  obtain ⟨hmany, hfew, hpaired⟩ := mem_linkedPairs hpair
  rw [length_knownOf] at hmany hfew
  rw [keys_knownOf] at hpaired
  exact ⟨address, ⟨⟨hmany, hfew⟩, hpaired⟩, rfl⟩

theorem Shares.correlates (hshares : Shares hub other transfers address left right)
    (hfew : (partners hub other transfers address).length ≤ 6) :
    Correlates correlation hub other transfers
      (shareLink correlation hub other transfers address left right) := by
  refine ⟨address, (left, right), ?_, rfl⟩
  rw [linkedPairs_of_few, keys_knownOf]
  · exact hshares.paired
  · rw [length_knownOf]
    exact hshares.admits.1
  · rw [length_knownOf]
    exact hfew

theorem mem_txHashes_shareLink {hash : String} :
    hash ∈ (shareLink correlation hub other transfers address left right).txHashes ↔
      ∃ transfer ∈ transfers, hub transfer = address ∧
        (other transfer = left ∨ other transfer = right) ∧ transfer.txHash = hash := by
  rw [shareLink, correlate, List.mem_append, mem_hashesOf_knownOf, mem_hashesOf_knownOf]
  constructor
  · rintro (⟨transfer, hmem, hhub, hother, hhash⟩ | ⟨transfer, hmem, hhub, hother, hhash⟩)
    · exact ⟨transfer, hmem, hhub, Or.inl hother, hhash⟩
    · exact ⟨transfer, hmem, hhub, Or.inr hother, hhash⟩
  · rintro ⟨transfer, hmem, hhub, hother | hother, hhash⟩
    · exact Or.inl ⟨transfer, hmem, hhub, hother, hhash⟩
    · exact Or.inr ⟨transfer, hmem, hhub, hother, hhash⟩

/-! ## Another order -/

theorem partners_perm (hperm : reordered.Perm transfers) (address : String) :
    (partners hub other reordered address).Perm (partners hub other transfers address) := by
  rw [List.perm_ext_iff_of_nodup (nodup_partners _ _ _ _) (nodup_partners _ _ _ _)]
  intro partner
  simp only [mem_partners, hperm.mem_iff]

theorem mem_partners_perm (hperm : reordered.Perm transfers) {partner : String} :
    partner ∈ partners hub other reordered address ↔
      partner ∈ partners hub other transfers address :=
  (partners_perm hperm address).mem_iff

theorem admits_perm (hperm : reordered.Perm transfers) :
    Admits hub other reordered address ↔ Admits hub other transfers address := by
  rw [Admits, Admits, (partners_perm hperm address).length_eq]

theorem Unambiguous.perm (hunambiguous : Unambiguous hub other transfers)
    (hperm : reordered.Perm transfers) : Unambiguous hub other reordered := by
  constructor
  case few =>
    intro address hadmits
    rw [(partners_perm hperm address).length_eq]
    exact hunambiguous.few address ((admits_perm hperm).mp hadmits)
  case apart =>
    intro first second hfirst hsecond left right hne
    simp only [mem_partners_perm hperm]
    exact hunambiguous.apart first second ((admits_perm hperm).mp hfirst)
      ((admits_perm hperm).mp hsecond) left right hne

/-- A pair that is shared in one order is shared in another one, turned perhaps. -/
theorem Shares.perm (hshares : Shares hub other transfers address left right)
    (hperm : reordered.Perm transfers) :
    Shares hub other reordered address left right ∨
      Shares hub other reordered address right left := by
  have hadmits := (admits_perm hperm).mpr hshares.admits
  exact (mem_combinations_or_swap ((mem_partners_perm hperm).mpr hshares.left_mem)
    ((mem_partners_perm hperm).mpr hshares.right_mem) hshares.ne).imp (⟨hadmits, ·⟩) (⟨hadmits, ·⟩)

theorem hashesBetween_perm (hperm : reordered.Perm transfers) (source target : String) :
    (hashesBetween reordered source target).Perm (hashesBetween transfers source target) :=
  (hperm.filter _).map _

theorem transfers_perm {Index : Type} (runtime : Runtime)
    {transactions others : List (Transaction Index)} (hperm : others.Perm transactions) :
    (EntityLinker.transfers runtime others).Perm (EntityLinker.transfers runtime transactions) :=
  (hperm.filter _).filterMap _

/-! ## Unambiguous links -/

section Unambiguous

variable (hside : IsSide correlation hub other)
include hside

/-- A link of one relation is the one that a sharing address writes. -/
theorem shares_of_mem_written (hlink : entityLink ∈ written transfers)
    (htype : entityLink.relationType = correlation.relationType) :
    ∃ address, Shares hub other transfers address entityLink.source entityLink.target ∧
      entityLink = shareLink correlation hub other transfers address entityLink.source
        entityLink.target :=
  ((hside transfers entityLink).mp ⟨hlink, htype⟩).shares

theorem shareLink_mem_held (hunambiguous : Unambiguous hub other transfers)
    (hshares : Shares hub other transfers address left right) :
    shareLink correlation hub other transfers address left right ∈ held transfers := by
  have hwritten := ((hside transfers _).mpr
    (hshares.correlates (hunambiguous.few address hshares.admits))).1
  refine mem_assigned_of_unique hwritten fun found hfound hkey => ?_
  obtain ⟨hsource, htarget, htype⟩ : found.source = left ∧ found.target = right ∧
      found.relationType = correlation.relationType := by
    simpa [EntityLink.key, shareLink, correlate] using hkey
  obtain ⟨second, hsecond, heq⟩ := shares_of_mem_written hside hfound htype
  rw [hsource, htarget] at hsecond heq
  rw [heq, hunambiguous.apart second address hsecond.admits hshares.admits left right hshares.ne
    hsecond.left_mem hsecond.right_mem hshares.left_mem hshares.right_mem]

theorem exists_alike_share (hsymmetric : correlation.relationType.isSymmetric = true)
    (hunambiguous : Unambiguous hub other reordered) (hperm : reordered.Perm transfers)
    (hlink : entityLink ∈ written transfers)
    (htype : entityLink.relationType = correlation.relationType) :
    ∃ found ∈ held reordered, Alike entityLink found := by
  obtain ⟨address, hshares, heq⟩ := shares_of_mem_written hside hlink htype
  have hhash : ∀ hash, hash ∈ entityLink.txHashes ↔ ∃ transfer ∈ reordered,
      hub transfer = address ∧ (other transfer = entityLink.source ∨
        other transfer = entityLink.target) ∧ transfer.txHash = hash := by
    intro hash
    rw [heq, mem_txHashes_shareLink]
    simp only [hperm.mem_iff]
    rfl
  rcases hshares.perm hperm with hfound | hfound
  · refine ⟨_, shareLink_mem_held hside hunambiguous hfound, ⟨htype, Or.inl ⟨rfl, rfl⟩⟩, ?_⟩
    intro hash
    rw [hhash, mem_txHashes_shareLink]
  · have hturned : entityLink.relationType.isSymmetric = true := htype ▸ hsymmetric
    refine ⟨_, shareLink_mem_held hside hunambiguous hfound,
      ⟨htype, Or.inr ⟨hturned, rfl, rfl⟩⟩, ?_⟩
    intro hash
    rw [hhash, mem_txHashes_shareLink]
    simp only [or_comm]

theorem not_swapped (hunambiguous : Unambiguous hub other transfers) {first second : EntityLink}
    (hfirst : first ∈ written transfers) (hsecond : second ∈ written transfers)
    (htype : first.relationType = correlation.relationType)
    (hsame : first.relationType = second.relationType) (hsource : first.source = second.target)
    (htarget : first.target = second.source) : False := by
  obtain ⟨address, hshares, -⟩ := shares_of_mem_written hside hfirst htype
  obtain ⟨other, hother, -⟩ := shares_of_mem_written hside hsecond (hsame.symm.trans htype)
  rw [hsource, htarget] at hshares
  obtain rfl := hunambiguous.apart address other hshares.admits hother.admits _ _ hshares.ne
    hshares.left_mem hshares.right_mem hother.right_mem hother.left_mem
  exact swap_not_mem_combinations (nodup_partners _ _ _ _) hshares.paired hother.paired

theorem covers_of_unambiguous (hunambiguous : Unambiguous hub other transfers)
    {links : List EntityLink} (hlinks : ∀ entityLink ∈ links, entityLink ∈ written transfers) :
    Covers correlation hub other transfers links := by
  intro entityLink hlink htype address hadmits hsource htarget transfer htransfer hhub hother
  obtain ⟨found, hshares, heq⟩ := shares_of_mem_written hside (hlinks entityLink hlink) htype
  obtain rfl := hunambiguous.apart found address hshares.admits hadmits _ _ hshares.ne
    hshares.left_mem hshares.right_mem hsource htarget
  rw [heq, mem_txHashes_shareLink]
  exact ⟨transfer, htransfer, hhub, hother, rfl⟩

end Unambiguous

/-- Both sides are unambiguous. -/
structure BothUnambiguous (transfers : List Transfer) : Prop where
  outgoing : Unambiguous Transfer.source Transfer.target transfers
  incoming : Unambiguous Transfer.target Transfer.source transfers

theorem BothUnambiguous.perm (hboth : BothUnambiguous transfers)
    (hperm : reordered.Perm transfers) : BothUnambiguous reordered :=
  ⟨hboth.outgoing.perm hperm, hboth.incoming.perm hperm⟩

theorem exists_alike (hboth : BothUnambiguous reordered) (hperm : reordered.Perm transfers)
    (hlink : entityLink ∈ held transfers) : ∃ found ∈ held reordered, Alike entityLink found := by
  have hwritten := mem_of_mem_assigned hlink
  cases htype : entityLink.relationType with
  | directTransfer =>
      have heq := eq_directTransfer_of_mem_written hwritten htype
      have hhashes := hashesBetween_perm hperm entityLink.source entityLink.target
      have hsome := (evidence_of_mem_written hwritten).1
      rw [heq] at hsome
      refine ⟨_, directTransfer_mem_held fun hempty => hsome (hempty ▸ hhashes).nil_eq.symm,
        ⟨htype, Or.inl ⟨rfl, rfl⟩⟩, fun hash => ?_⟩
      rw [heq]
      exact hhashes.symm.mem_iff
  | repeatedCounterparty =>
      have heq := eq_repeatedCounterparty_of_mem_written hwritten htype
      have hhashes := hashesBetween_perm hperm entityLink.source entityLink.target
      refine ⟨_, repeatedCounterparty_mem_held ?_, ⟨htype, Or.inl ⟨rfl, rfl⟩⟩, fun hash => ?_⟩
      · rw [hhashes.length_eq]
        exact two_le_of_mem_written hwritten htype
      · rw [heq]
        exact hhashes.symm.mem_iff
  | commonFunder =>
      exact exists_alike_share isSide_commonFunder rfl hboth.outgoing hperm hwritten htype
  | commonDestination =>
      exact exists_alike_share isSide_commonDestination rfl hboth.incoming hperm hwritten htype

theorem not_samePair (hboth : BothUnambiguous transfers) {first second : EntityLink}
    (hfirst : first ∈ written transfers) (hsecond : second ∈ written transfers)
    (hkey : first.key ≠ second.key) : ¬SamePair first second := by
  rintro ⟨hsame, ⟨hsource, htarget⟩ | ⟨hsymmetric, hsource, htarget⟩⟩
  · exact hkey (by rw [EntityLink.key, EntityLink.key, hsource, htarget, hsame])
  · cases htype : first.relationType with
    | directTransfer => simp [htype, RelationType.isSymmetric] at hsymmetric
    | repeatedCounterparty => simp [htype, RelationType.isSymmetric] at hsymmetric
    | commonFunder =>
        exact not_swapped isSide_commonFunder hboth.outgoing hfirst hsecond htype hsame hsource
          htarget
    | commonDestination =>
        exact not_swapped isSide_commonDestination hboth.incoming hfirst hsecond htype hsame
          hsource htarget

theorem onePerPair_held (hboth : BothUnambiguous transfers) : OnePerPair (held transfers) := by
  have hkeys : (held transfers).Pairwise fun first second => first.key ≠ second.key :=
    List.pairwise_map.mp (nodup_map_assigned EntityLink.key (written transfers))
  exact hkeys.imp_of_mem fun hfirst hsecond hkey =>
    not_samePair hboth (mem_of_mem_assigned hfirst) (mem_of_mem_assigned hsecond) hkey

theorem SamePair.symm {first second : EntityLink} (hsame : SamePair first second) :
    SamePair second first := by
  obtain ⟨htype, ⟨hsource, htarget⟩ | ⟨hsymmetric, hsource, htarget⟩⟩ := hsame
  · exact ⟨htype.symm, Or.inl ⟨hsource.symm, htarget.symm⟩⟩
  · exact ⟨htype.symm, Or.inr ⟨htype ▸ hsymmetric, htarget.symm, hsource.symm⟩⟩

instance : Std.Symm fun first second : EntityLink => ¬SamePair first second :=
  ⟨fun _ _ hother hsame => hother hsame.symm⟩

theorem Alike.symm {first second : EntityLink} (halike : Alike first second) :
    Alike second first :=
  ⟨halike.1.symm, fun hash => (halike.2 hash).symm⟩

theorem independentOfOrder_of_unambiguous {Index : Type} {runtime : Runtime}
    {transactions : List (Transaction Index)}
    (hboth : BothUnambiguous (EntityLinker.transfers runtime transactions)) :
    IndependentOfOrder runtime transactions := by
  intro others hperm
  have htransfers := transfers_perm runtime hperm
  have hothers := hboth.perm htransfers
  have hheld : ∀ txs : List (Transaction Index), ∀ entityLink,
      entityLink ∈ link runtime txs ↔ entityLink ∈ held (EntityLinker.transfers runtime txs) :=
    fun txs _ => (link_perm_held runtime txs).mem_iff
  refine ⟨⟨fun entityLink hlink => ?_, fun entityLink hlink => ?_⟩, ?_, ?_, ?_⟩
  · obtain ⟨found, hfound, halike⟩ := exists_alike hothers htransfers ((hheld _ _).mp hlink)
    exact ⟨found, (hheld _ _).mpr hfound, halike⟩
  · obtain ⟨found, hfound, halike⟩ := exists_alike hboth htransfers.symm ((hheld _ _).mp hlink)
    exact ⟨found, (hheld _ _).mpr hfound, halike.symm⟩
  · have hpairs := onePerPair_held hothers
    exact (List.Perm.pairwise_iff (fun h hsame => h hsame.symm)
      (link_perm_held runtime others)).mpr hpairs
  · exact covers_of_unambiguous isSide_commonFunder hothers.outgoing
      fun _ => mem_written_of_mem_link runtime
  · exact covers_of_unambiguous isSide_commonDestination hothers.incoming
      fun _ => mem_written_of_mem_link runtime

/-! ## Orders that show the difference -/

theorem partners_of_first (more : List String) (hne : left ≠ right)
    (hfirst : (transfers.filter fun transfer => hub transfer = address).map other =
      left :: right :: more) :
    ∃ rest, partners hub other transfers address = left :: right :: rest := by
  rw [partners, hfirst, List.eraseDups_cons, List.filter_cons_of_pos (by simpa using hne.symm),
    List.eraseDups_cons]
  exact ⟨_, rfl⟩

/-- An admitted address keeps a link for the two counterparties that come first. -/
theorem exists_held_first (hside : IsSide correlation hub other)
    (hadmits : Admits hub other transfers address) {rest : List String}
    (hpartners : partners hub other transfers address = left :: right :: rest) :
    ∃ found ∈ held transfers, found.source = left ∧ found.target = right ∧
      found.relationType = correlation.relationType := by
  have hcorrelates : Correlates correlation hub other transfers
      (shareLink correlation hub other transfers address left right) := by
    refine ⟨address, (left, right), first_mem_linkedPairs rest ?_ ?_, rfl⟩
    · rw [keys_knownOf, hpartners]
    · rw [length_knownOf]
      exact hadmits.2
  obtain ⟨found, hfound, hkey⟩ := exists_mem_assigned EntityLink.key
    ((hside transfers _).mpr hcorrelates).1
  refine ⟨found, hfound, ?_⟩
  simpa [EntityLink.key, shareLink, correlate] using hkey

section Reordering

variable {Index : Type} {runtime : Runtime} {transactions : List (Transaction Index)}

/-- Any transfers can be brought to the front. -/
theorem exists_reordered {front : List Transfer} (hnodup : front.Nodup)
    (hfront : ∀ transfer ∈ front, transfer ∈ EntityLinker.transfers runtime transactions) :
    ∃ others : List (Transaction Index), others.Perm transactions ∧
      ∃ rest, EntityLinker.transfers runtime others = front ++ rest := by
  induction front generalizing transactions with
  | nil => exact ⟨transactions, List.Perm.refl _, _, rfl⟩
  | cons first front ih =>
      obtain ⟨hnew, hrest⟩ := List.nodup_cons.mp hnodup
      obtain ⟨tx, htx, husable, hfound⟩ :=
        (mem_transfers_iff runtime).mp (hfront first List.mem_cons_self)
      obtain ⟨before, after, rfl⟩ := List.append_of_mem htx
      have hmiddle : (before ++ tx :: after).Perm (tx :: (before ++ after)) := List.perm_middle
      have hcons : ∀ txs : List (Transaction Index), EntityLinker.transfers runtime (tx :: txs) =
          first :: EntityLinker.transfers runtime txs := by
        intro txs
        rw [EntityLinker.transfers, List.filter_cons_of_pos husable, List.filterMap_cons, hfound]
        rfl
      have hremaining : ∀ transfer ∈ front,
          transfer ∈ EntityLinker.transfers runtime (before ++ after) := by
        intro transfer htransfer
        have hmem := hfront transfer (List.mem_cons_of_mem _ htransfer)
        rw [(transfers_perm runtime hmiddle).mem_iff, hcons, List.mem_cons] at hmem
        exact hmem.resolve_left fun heq => hnew (heq ▸ htransfer)
      obtain ⟨others, hperm, rest, heq⟩ := ih hrest hremaining
      exact ⟨tx :: others, (hperm.cons tx).trans hmiddle.symm, rest, by rw [hcons, heq]; rfl⟩

variable (hside : IsSide correlation hub other)
  (hsymmetric : correlation.relationType.isSymmetric = true)
include hside

include hsymmetric in
/-- No pair has two admitted counterparties: one could write it in one order, and the
other one in the other order. -/
theorem apart_of_onePerPair
    (hone : ∀ others : List (Transaction Index), others.Perm transactions →
      OnePerPair (link runtime others)) :
    Apart hub other (EntityLinker.transfers runtime transactions) := by
  intro first second hfirst hsecond left right hne hleft hright hleft' hright'
  by_contra happart
  obtain ⟨toLeft, hmem, rfl, rfl⟩ := mem_partners.mp hleft
  obtain ⟨toRight, hmemRight, hhub, rfl⟩ := mem_partners.mp hright
  obtain ⟨thenRight, hmemRight', rfl, hother⟩ := mem_partners.mp hright'
  obtain ⟨thenLeft, hmemLeft', hhub', hother'⟩ := mem_partners.mp hleft'
  have hnodup : [toLeft, toRight, thenRight, thenLeft].Nodup := by
    simp only [List.nodup_cons, List.mem_cons, List.not_mem_nil, or_false, not_or,
      not_false_eq_true, List.nodup_nil, and_true]
    refine ⟨⟨?_, ?_, ?_⟩, ⟨?_, ?_⟩, ?_⟩
    · exact fun heq => hne (congrArg other heq)
    · exact fun heq => happart (congrArg hub heq)
    · exact fun heq => happart ((congrArg hub heq).trans hhub')
    · exact fun heq => happart (hhub.symm.trans (congrArg hub heq))
    · exact fun heq => happart (hhub.symm.trans ((congrArg hub heq).trans hhub'))
    · exact fun heq => hne (hother'.symm.trans ((congrArg other heq).symm.trans hother))
  have hfront : ∀ transfer ∈ [toLeft, toRight, thenRight, thenLeft],
      transfer ∈ EntityLinker.transfers runtime transactions := by
    intro transfer htransfer
    simp only [List.mem_cons, List.not_mem_nil, or_false] at htransfer
    rcases htransfer with rfl | rfl | rfl | rfl <;> assumption
  obtain ⟨others, hperm, rest, heq⟩ := exists_reordered hnodup hfront
  have htransfers := transfers_perm runtime hperm
  obtain ⟨_, hkeys⟩ : ∃ rest, partners hub other (EntityLinker.transfers runtime others)
      (hub toLeft) = other toLeft :: other toRight :: rest := by
    refine partners_of_first ((rest.filter fun transfer =>
      hub transfer = hub toLeft).map other) hne ?_
    simp [heq, hhub, hhub', Ne.symm happart]
  obtain ⟨_, hkeys'⟩ : ∃ rest, partners hub other (EntityLinker.transfers runtime others)
      (hub thenRight) = other toRight :: other toLeft :: rest := by
    refine partners_of_first ((rest.filter fun transfer =>
      hub transfer = hub thenRight).map other) hne.symm ?_
    simp [heq, hhub, hhub', happart, hother, hother']
  obtain ⟨written, hwritten, hsource, htarget, htype⟩ :=
    exists_held_first hside ((admits_perm htransfers).mpr hfirst) hkeys
  obtain ⟨turned, hturned, hsource', htarget', htype'⟩ :=
    exists_held_first hside ((admits_perm htransfers).mpr hsecond) hkeys'
  have hpairs := hone others hperm
  have hheld := link_perm_held runtime others
  refine hpairs.forall (hheld.mem_iff.mpr hwritten) (hheld.mem_iff.mpr hturned)
    (fun heq => hne ?_) ⟨htype.trans htype'.symm, Or.inr ⟨?_, ?_, ?_⟩⟩
  · rw [← hsource, heq, hsource']
  · rw [htype]
    exact hsymmetric
  · rw [hsource, htarget']
  · rw [htarget, hsource']

/-- An address that drops a pair would write it if its addresses came first. -/
theorem few_of_sameLinks
    (hsame : ∀ others : List (Transaction Index), others.Perm transactions →
      SameLinks (link runtime transactions) (link runtime others))
    (hapart : Apart hub other (EntityLinker.transfers runtime transactions))
    (hadmits : Admits hub other (EntityLinker.transfers runtime transactions) address) :
    (partners hub other (EntityLinker.transfers runtime transactions) address).length ≤ 6 := by
  by_contra hmany
  obtain ⟨⟨left, right⟩, hpaired, hdropped⟩ := exists_dropped
    (knownOf hub other (EntityLinker.transfers runtime transactions) address)
    (keys_knownOf hub other _ address ▸ nodup_partners hub other _ address)
    (by rw [length_knownOf]; omega)
  rw [keys_knownOf] at hpaired
  have hshares : Shares hub other (EntityLinker.transfers runtime transactions) address left right :=
    ⟨hadmits, hpaired⟩
  obtain ⟨toLeft, hmem, hhub, rfl⟩ := mem_partners.mp hshares.left_mem
  obtain ⟨toRight, hmemRight, hhub', rfl⟩ := mem_partners.mp hshares.right_mem
  have hnodup : [toLeft, toRight].Nodup := by
    simpa using fun heq => hshares.ne (congrArg other heq)
  have hfront : ∀ transfer ∈ [toLeft, toRight],
      transfer ∈ EntityLinker.transfers runtime transactions := by
    intro transfer htransfer
    simp only [List.mem_cons, List.not_mem_nil, or_false] at htransfer
    rcases htransfer with rfl | rfl <;> assumption
  obtain ⟨others, hperm, rest, heq⟩ := exists_reordered hnodup hfront
  have htransfers := transfers_perm runtime hperm
  obtain ⟨_, hkeys⟩ : ∃ rest, partners hub other (EntityLinker.transfers runtime others) address =
      other toLeft :: other toRight :: rest := by
    refine partners_of_first ((rest.filter fun transfer =>
      hub transfer = address).map other) hshares.ne ?_
    simp [heq, hhub, hhub']
  obtain ⟨found, hfound, hsource, htarget, htype⟩ :=
    exists_held_first hside ((admits_perm htransfers).mpr hadmits) hkeys
  obtain ⟨before, hbefore, ⟨hkind, hpair⟩, -⟩ :=
    (hsame others hperm).2 found ((link_perm_held runtime others).mem_iff.mpr hfound)
  -- the link that is alike is written by an address that links the pair
  obtain ⟨second, pair, hlinked, rfl⟩ := (hside _ before).mp
    ⟨mem_written_of_mem_link runtime hbefore, hkind.trans htype⟩
  obtain ⟨hatLeast, hatMost, hcombined⟩ := mem_linkedPairs hlinked
  rw [length_knownOf] at hatLeast hatMost
  rw [keys_knownOf] at hcombined
  have hpartners := mem_of_mem_combinations hcombined
  rw [hsource, htarget] at hpair
  rcases hpair with ⟨hfirst, hlast⟩ | ⟨-, hfirst, hlast⟩
  · obtain rfl : pair = (other toLeft, other toRight) := Prod.ext hfirst hlast
    obtain rfl := hapart second address ⟨hatLeast, hatMost⟩ hadmits _ _ hshares.ne hpartners.1
      hpartners.2 hshares.left_mem hshares.right_mem
    exact hdropped hlinked
  · obtain rfl : pair = (other toRight, other toLeft) := Prod.ext hfirst hlast
    obtain rfl := hapart second address ⟨hatLeast, hatMost⟩ hadmits _ _ hshares.ne hpartners.2
      hpartners.1 hshares.left_mem hshares.right_mem
    exact swap_not_mem_combinations (nodup_partners _ _ _ _) hpaired hcombined

include hsymmetric in
theorem unambiguous_of_independentOfOrder (hfree : IndependentOfOrder runtime transactions) :
    Unambiguous hub other (EntityLinker.transfers runtime transactions) := by
  have hapart : Apart hub other (EntityLinker.transfers runtime transactions) :=
    apart_of_onePerPair hside hsymmetric fun others hperm => (hfree others hperm).2.1
  refine ⟨fun address hadmits => ?_, hapart⟩
  exact few_of_sameLinks hside (fun others hperm => (hfree others hperm).1) hapart hadmits

end Reordering

/-- The links do not depend on the order exactly if both sides are unambiguous. -/
theorem independentOfOrder_iff {Index : Type} (runtime : Runtime)
    (transactions : List (Transaction Index)) :
    IndependentOfOrder runtime transactions ↔
      BothUnambiguous (EntityLinker.transfers runtime transactions) := by
  constructor
  · exact fun hfree => ⟨unambiguous_of_independentOfOrder isSide_commonFunder rfl hfree,
      unambiguous_of_independentOfOrder isSide_commonDestination rfl hfree⟩
  · exact independentOfOrder_of_unambiguous

/-! ## Two funders of one pair -/

namespace Sample

/-- Every text below is in lower case. -/
def lowerCase : Runtime where
  lower text := text
  lower_lower _ := rfl
  arrange _ addresses := addresses
  mem_arrange := mem_inOrder

def pay (hash funder recipient : String) : Transaction Unit where
  txHash := hash
  fromAddress := funder
  toAddress := recipient
  logIndex := ()

/-- Two funders pay two recipients. -/
def payments : List (Transaction Unit) :=
  [pay "0xa1" "0x01" "0x11", pay "0xa2" "0x01" "0x12", pay "0xb1" "0x02" "0x11",
    pay "0xb2" "0x02" "0x12"]

end Sample

open Sample in
/-- The links of two recipients depend on the order if two funders pay both of them. -/
theorem not_independentOfOrder_payments : ¬IndependentOfOrder lowerCase payments := by
  intro hfree
  have hunambiguous := unambiguous_of_independentOfOrder isSide_commonFunder rfl hfree
  have hsame : "0x01" = "0x02" := by
    refine hunambiguous.apart "0x01" "0x02" ?_ ?_ "0x11" "0x12" ?_ ?_ ?_ ?_ ?_
    · exact ⟨by decide, by decide⟩
    · exact ⟨by decide, by decide⟩
    all_goals decide
  exact absurd hsame (by decide)

end AegisForge.ScamIntelligence.EntityLinker
