import AegisForge.Core.CanonicalJson
import AegisForge.Shared.ReplayJournal

/-!
# What the head of a replay journal binds

An event of the journal is hashed with the hash of the event before it.  Where the
hash function has no collisions on the events of two journals, a head belongs to one
history, so a journal that was changed behind its state is never appended to again.
-/

namespace AegisForge.Shared.ReplayRegistry

open AegisForge.Core AegisForge.Concurrency

/-! ## Hashed events -/

/-- `_JOURNAL_DOMAIN`. -/
def journalDomain : Octets := utf8 "OWNERA-AEGISFORGE-ATTESTATION-JOURNAL-V1".toList ++ [0]

namespace ReplayEvent

/-- The dictionary that is hashed, with its keys sorted. -/
def toJson (event : ReplayEvent) : Json :=
  .object [
    ("nonce", .text event.nonce),
    ("previous_head_sha256", .text event.previousHead),
    ("provider_id", .text event.providerId),
    ("receipt_sha256", .text event.receiptSha256),
    ("run_id", .text event.runId),
    ("schema_version", .text "evm-key-forensics-replay-event-v1"),
    ("sequence", .int event.sequence)]

def bytes (event : ReplayEvent) : Octets := journalDomain ++ event.toJson.canonicalBytes

theorem readable_toJson (event : ReplayEvent) : event.toJson.Readable := by
  simp [toJson, Json.Readable, Json.ReadableFields]

/-- Events are written differently. -/
theorem bytes_injective : Function.Injective bytes := by
  intro left right hbytes
  have hjson : left.toJson = right.toJson :=
    Json.eq_of_canonicalBytes_eq left.readable_toJson right.readable_toJson
      (List.append_cancel_left hbytes)
  cases left
  cases right
  simp only [toJson, Json.object.injEq, List.cons.injEq, Prod.mk.injEq, Json.text.injEq,
    Json.int.injEq, true_and, and_true] at hjson
  obtain ⟨rfl, rfl, rfl, rfl, rfl, rfl⟩ := hjson
  rfl

end ReplayEvent

/-- `_event_hash`. -/
def eventHash (sha256 : Octets → Digest) (event : ReplayEvent) : String :=
  (sha256 event.bytes).text

/-- The primitives with the hash of events as the code computes it. -/
def Primitives.hashing (primitives : Primitives) (sha256 : Octets → Digest) : Primitives :=
  { primitives with eventHash := ReplayRegistry.eventHash sha256 }

@[simp]
theorem Primitives.eventHash_hashing (primitives : Primitives) (sha256 : Octets → Digest)
    (event : ReplayEvent) :
    (primitives.hashing sha256).eventHash event = (sha256 event.bytes).text := rfl

/-- The event that a row stands for. -/
def JournalRow.event (row : JournalRow) : ReplayEvent :=
  ⟨row.providerId, row.sequence, row.previousHead, row.runId, row.nonce, row.receiptSha256⟩

/-- What is hashed for the rows of a journal. -/
def journalInputs (rows : List JournalRow) : List Octets :=
  rows.map fun row => row.event.bytes

/-! ## Journals that pass -/

section Binding

variable {primitives : Primitives} {sha256 : Octets → Digest} {providerId head : String}

/-- A journal that passes is a chain, which the sequence counts. -/
theorem linked_of_recompute {rows : List JournalRow} {first next : ℤ} {start : String}
    (hpasses : recompute primitives providerId first start rows = .ok (next, head)) :
    Linked (eventDigest primitives providerId) start (rows.map JournalRow.link) head ∧
      next = first + rows.length := by
  induction rows generalizing first start with
  | nil =>
      obtain ⟨rfl, rfl⟩ := Prod.mk.inj (Except.ok.inj hpasses)
      exact ⟨rfl, by simp⟩
  | cons row rest ih =>
      rw [recompute] at hpasses
      obtain ⟨⟨hsequence, hprevious, hhead⟩, hrest⟩ := raiseUnless_bind_eq_ok hpasses
      obtain ⟨hlinked, hnext⟩ := ih hrest
      refine ⟨⟨hprevious, ?_, hlinked⟩, ?_⟩
      · rw [eventDigest, JournalRow.link, hsequence]
        exact hhead
      · rw [hnext, List.length_cons]
        omega

/-- The row of a provider with a given link. -/
def rowOf (providerId : String) (link : Link EventBody String) : JournalRow :=
  ⟨providerId, link.body.1, link.previous, link.hash, link.body.2.runId, link.body.2.nonce,
    link.body.2.receiptSha256⟩

theorem map_rowOf_map_link {rows : List JournalRow}
    (hprovider : ∀ row ∈ rows, row.providerId = providerId) :
    (rows.map JournalRow.link).map (rowOf providerId) = rows := by
  rw [List.map_map]
  refine (List.map_congr_left ?_).trans (List.map_id rows)
  intro row hrow
  obtain rfl := hprovider row hrow
  rfl

/-- Journals of a provider with the same links are the same. -/
theorem eq_of_map_link_eq {left right : List JournalRow}
    (hprovider : ∀ row ∈ left ++ right, row.providerId = providerId)
    (hlinks : left.map JournalRow.link = right.map JournalRow.link) : left = right := by
  obtain ⟨hleft, hright⟩ := List.forall_mem_append.mp hprovider
  rw [← map_rowOf_map_link hleft, hlinks, map_rowOf_map_link hright]

section Hashing

variable {left right : List JournalRow} {leftNext rightNext : ℤ}

/-- A row that passes is hashed as its event. -/
theorem head_eq_of_recompute
    (hprovider : ∀ row ∈ left, row.providerId = providerId)
    (hpasses : recompute (primitives.hashing sha256) providerId 1 genesis left =
      .ok (leftNext, head)) {row : JournalRow} (hrow : row ∈ left) :
    row.head = (sha256 row.event.bytes).text := by
  have hhash := (linked_of_recompute hpasses).1.hash_eq (List.mem_map_of_mem hrow)
  obtain rfl := hprovider row hrow
  exact hhash

/-- Rows with one hash have one link, where the hash function has no collisions. -/
theorem binds_of_collisionFree
    (hprovider : ∀ row ∈ left ++ right, row.providerId = providerId)
    (hleft : recompute (primitives.hashing sha256) providerId 1 genesis left =
      .ok (leftNext, head))
    (hright : recompute (primitives.hashing sha256) providerId 1 genesis right =
      .ok (rightNext, head))
    (hfree : CollisionFree sha256 (journalInputs (left ++ right))) :
    ∀ link ∈ left.map JournalRow.link, ∀ other ∈ right.map JournalRow.link,
      other.hash = link.hash → other.body = link.body ∧ other.previous = link.previous := by
  obtain ⟨hleftOf, hrightOf⟩ := List.forall_mem_append.mp hprovider
  intro link hlink other hother hhash
  obtain ⟨row, hrow, rfl⟩ := List.mem_map.mp hlink
  obtain ⟨otherRow, hotherRow, rfl⟩ := List.mem_map.mp hother
  have hrowMem : row ∈ left ++ right := List.mem_append_left _ hrow
  have hotherMem : otherRow ∈ left ++ right := List.mem_append_right _ hotherRow
  have htexts : (sha256 otherRow.event.bytes).text = (sha256 row.event.bytes).text := by
    rw [← head_eq_of_recompute hrightOf hright hotherRow,
      ← head_eq_of_recompute hleftOf hleft hrow]
    exact hhash
  have hbytes : otherRow.event.bytes = row.event.bytes :=
    hfree _ (List.mem_map_of_mem hotherMem) _ (List.mem_map_of_mem hrowMem)
      (Digest.text_injective htexts)
  have hevents := ReplayEvent.bytes_injective hbytes
  simp only [JournalRow.event, ReplayEvent.mk.injEq] at hevents
  simp [JournalRow.link, JournalRow.reservation, hevents]

/-- Journals with one head are the same, unless an event is hashed to the genesis. -/
theorem eq_of_head_eq
    (hprovider : ∀ row ∈ left ++ right, row.providerId = providerId)
    (hfree : CollisionFree sha256 (journalInputs (left ++ right)))
    (hgenesis : ∀ input ∈ journalInputs (left ++ right), (sha256 input).text ≠ genesis)
    (hleft : recompute (primitives.hashing sha256) providerId 1 genesis left =
      .ok (leftNext, head))
    (hright : recompute (primitives.hashing sha256) providerId 1 genesis right =
      .ok (rightNext, head)) : left = right := by
  obtain ⟨hleftOf, hrightOf⟩ := List.forall_mem_append.mp hprovider
  apply eq_of_map_link_eq hprovider
  symm
  apply Linked.eq_of_hash_ne (binds_of_collisionFree hprovider hleft hright hfree) _
    (linked_of_recompute hleft).1 (linked_of_recompute hright).1
  intro link hlink
  rw [← List.map_append] at hlink
  obtain ⟨row, hrow, rfl⟩ := List.mem_map.mp hlink
  have hhead : row.head = (sha256 row.event.bytes).text := by
    rcases List.mem_append.mp hrow with hmem | hmem
    · exact head_eq_of_recompute hleftOf hleft hmem
    · exact head_eq_of_recompute hrightOf hright hmem
  rw [JournalRow.link, hhead]
  exact hgenesis _ (List.mem_map_of_mem hrow)

/-- Journals of one length with one head are the same. -/
theorem eq_of_next_eq
    (hprovider : ∀ row ∈ left ++ right, row.providerId = providerId)
    (hfree : CollisionFree sha256 (journalInputs (left ++ right)))
    (hleft : recompute (primitives.hashing sha256) providerId 1 genesis left =
      .ok (leftNext, head))
    (hright : recompute (primitives.hashing sha256) providerId 1 genesis right =
      .ok (leftNext, head)) : left = right := by
  obtain ⟨hleftLinked, hleftLength⟩ := linked_of_recompute hleft
  obtain ⟨hrightLinked, hrightLength⟩ := linked_of_recompute hright
  apply eq_of_map_link_eq hprovider
  symm
  apply Linked.eq_of_length_eq (binds_of_collisionFree hprovider hleft hright hfree) _
    hleftLinked hrightLinked
  rw [List.length_map, List.length_map]
  omega

end Hashing

/-! ## Journals that were changed -/

variable {registry altered : Registry} {state : StateRow}

theorem providerId_of_mem_journalInOrder {row : JournalRow}
    (hrow : row ∈ registry.journalInOrder providerId) : row.providerId = providerId := by
  have hmem := (List.perm_insertionSort _ _).mem_iff.mp hrow
  simpa using (List.mem_filter.mp hmem).2

/-- A changed journal leads to another head than the state that was kept. -/
theorem not_passes_of_altered
    (hpasses : registry.Passes (primitives.hashing sha256) providerId)
    (hstate : registry.state.lookup providerId = some state)
    (hkept : altered.state.lookup providerId = some state)
    (hchanged : altered.journalInOrder providerId ≠ registry.journalInOrder providerId)
    (hfree : CollisionFree sha256
      (journalInputs (altered.journalInOrder providerId ++ registry.journalInOrder providerId))) :
    ¬altered.Passes (primitives.hashing sha256) providerId := by
  intro haltered
  apply hchanged
  apply eq_of_next_eq _ hfree (haltered state hkept) (hpasses state hstate)
  intro row hrow
  rcases List.mem_append.mp hrow with hmem | hmem <;>
    exact providerId_of_mem_journalInOrder hmem

/-- The statement changes nothing. -/
def Statement.Reads (statement : Statement) : Prop :=
  ∀ registry, (execute statement registry).2 = registry

/-- The journal is only read before it is appended to. -/
theorem within_journalTail (primitives : Primitives) (providerId : String) :
    (journalTail primitives providerId).Within Statement.Reads := by
  refine ⟨fun _ => rfl, fun stored => ?_⟩
  cases stored with
  | none =>
      exact ⟨fun _ => rfl, fun _ => ⟨fun _ => rfl, fun _ =>
        Program.within_raiseIf.bind fun _ => trivial⟩⟩
  | some state =>
      refine Program.within_raiseIf.bind fun _ => ⟨fun _ => rfl, fun _ => ?_⟩
      refine Program.within_ofExcept.bind fun _ => ?_
      exact Program.within_raiseIf.bind fun _ => trivial

theorem run_journalTail_store (registry : Registry) :
    ((journalTail primitives providerId).run execute registry).2 = registry := by
  have hkept : ∀ statement store, Statement.Reads statement → store = registry →
      (execute statement store).2 = registry :=
    fun _ store hreads hstore => (hreads store).trans hstore
  exact Program.run_kept execute hkept (within_journalTail primitives providerId) rfl

/-- Nothing is appended to a journal that does not pass. -/
theorem run_appendJournalEvent_eq_error (hfails : ¬registry.Passes primitives providerId)
    (runId nonce receiptSha256 : String) :
    ∃ error, (appendJournalEvent primitives providerId runId nonce receiptSha256).run execute
      registry = (.error error, registry) := by
  have hkept := @run_journalTail_store primitives providerId registry
  rw [appendJournalEvent, Program.bind_eq, Program.run_bind]
  cases hrun : (journalTail primitives providerId).run execute registry with
  | mk result after =>
      rw [hrun] at hkept
      cases result with
      | ok answer => exact absurd (run_journalTail_eq_ok hrun).2.2 hfails
      | error error => exact ⟨error, congrArg (Prod.mk _) hkept⟩

/-- What a provider's ledger says decides whether its journal passes. -/
theorem passes_congr (hledger : altered.ledgerOf providerId = registry.ledgerOf providerId) :
    altered.Passes primitives providerId ↔ registry.Passes primitives providerId := by
  have hjournal : altered.journalOf providerId = registry.journalOf providerId :=
    congrArg Ledger.journal hledger
  have hstate : altered.state.lookup providerId = registry.state.lookup providerId :=
    congrArg Ledger.state hledger
  rw [Registry.Passes, Registry.Passes, Registry.journalInOrder, Registry.journalInOrder,
    hjournal, hstate]

/-- A journal that does not pass stays as it is. -/
theorem ledgerOf_run_of_not_passes (hfails : ¬registry.Passes primitives providerId)
    (acts : List Act) :
    (run (step primitives) registry acts).ledgerOf providerId = registry.ledgerOf providerId := by
  induction acts using List.reverseRecOn with
  | nil => rfl
  | append_singleton earlier act ih =>
      rw [run_append]
      rcases ledgerOf_step (run (step primitives) registry earlier) act providerId with
        hkept | ⟨-, -, -, -, -, hpasses, -⟩
      · exact hkept.trans ih
      · exact absurd ((passes_congr ih).mp hpasses) hfails

end Binding

/-- A head belongs to one history; and a journal that was changed while its state was
kept is never appended to again. -/
theorem head_binds_history (sha256 : Octets → Digest) (primitives : Primitives)
    (providerId : String) :
    (∀ left right leftNext rightNext head,
      (∀ row ∈ left ++ right, row.providerId = providerId) →
      CollisionFree sha256 (journalInputs (left ++ right)) →
      (∀ input ∈ journalInputs (left ++ right), (sha256 input).text ≠ genesis) →
      recompute (primitives.hashing sha256) providerId 1 genesis left = .ok (leftNext, head) →
      recompute (primitives.hashing sha256) providerId 1 genesis right = .ok (rightNext, head) →
      left = right) ∧
    ∀ (registry altered : Registry) (state : StateRow),
      registry.state.lookup providerId = some state →
      registry.Passes (primitives.hashing sha256) providerId →
      altered.state.lookup providerId = some state →
      altered.journalInOrder providerId ≠ registry.journalInOrder providerId →
      CollisionFree sha256
        (journalInputs (altered.journalInOrder providerId ++
          registry.journalInOrder providerId)) →
      ∀ acts,
        let later := run (step (primitives.hashing sha256)) altered acts
        later.ledgerOf providerId = altered.ledgerOf providerId ∧
          ∀ runId nonce receiptSha256, ∃ error,
            (appendJournalEvent (primitives.hashing sha256) providerId runId nonce
              receiptSha256).run execute later = (.error error, later) := by
  constructor
  · intro left right leftNext rightNext head hprovider hfree hgenesis hleft hright
    exact eq_of_head_eq hprovider hfree hgenesis hleft hright
  · intro registry altered state hstate hpasses hkept hchanged hfree acts
    have hfails := not_passes_of_altered hpasses hstate hkept hchanged hfree
    have hledger := ledgerOf_run_of_not_passes hfails acts
    exact ⟨hledger, run_appendJournalEvent_eq_error
      fun hlater => hfails ((passes_congr hledger).mp hlater)⟩

/-! ## A changed nonce -/

namespace Sample

def row : JournalRow := event.journalRow eventHead

/-- The row with another nonce. -/
def alteredRow : JournalRow := { row with nonce := "nonce-2" }

/-- A registry with one row, which its state names. -/
def holding (row : JournalRow) : Registry where
  accepted := .empty
  journal := ⟨[row], List.nodup_singleton _, List.nodup_singleton _, List.nodup_singleton _⟩
  state := ⟨[⟨"lab", 1, eventHead⟩], List.nodup_singleton _, List.nodup_singleton _⟩
  evidence := .empty
  pending := none

/-- SHA-256 of the two events. -/
def eventSha256 (bytes : Octets) : Digest :=
  if bytes = event.bytes then ⟨eventHead, by decide +kernel⟩
  else ⟨"82858e22409cdd7ae42f8aa4b99cdab0888f1e9a2c2f3bf3bf14154252eb438a", by decide +kernel⟩

theorem eventSha256_event : (eventSha256 event.bytes).text = eventHead := by
  rw [eventSha256, if_pos rfl]

theorem eventSha256_altered : eventSha256 alteredRow.event.bytes =
    ⟨"82858e22409cdd7ae42f8aa4b99cdab0888f1e9a2c2f3bf3bf14154252eb438a", by decide +kernel⟩ := by
  rw [eventSha256, if_neg]
  exact fun hbytes => absurd (ReplayEvent.bytes_injective hbytes) (by decide)

theorem recompute_row :
    recompute (primitives.hashing eventSha256) "lab" 1 genesis [row] = .ok (2, eventHead) := by
  have hhash : (primitives.hashing eventSha256).eventHash event = eventHead := by
    rw [Primitives.eventHash_hashing, eventSha256_event]
  rw [recompute, raiseUnless_bind_eq_ok_iff]
  exact ⟨⟨rfl, rfl, hhash.symm⟩, rfl⟩

theorem passes_row : (holding row).Passes (primitives.hashing eventSha256) "lab" := by
  rintro _ ⟨⟩
  exact recompute_row

theorem collisionFree_rows : CollisionFree eventSha256 (journalInputs [alteredRow, row]) := by
  apply CollisionFree.of_nodup
  have hdigests : (journalInputs [alteredRow, row]).map eventSha256 =
      [eventSha256 alteredRow.event.bytes, eventSha256 event.bytes] := rfl
  have hne : eventSha256 alteredRow.event.bytes ≠ eventSha256 event.bytes := by
    intro hsame
    have htexts := congrArg Digest.text hsame
    rw [eventSha256_event, eventSha256_altered] at htexts
    exact absurd htexts (by decide)
  simpa [hdigests] using hne

end Sample

open Sample in
theorem head_binds_history_nonce :
    [row] = (holding row).journalInOrder "lab" ∧ ∃ error,
      (appendJournalEvent (primitives.hashing eventSha256) "lab" "run-2" "nonce-2"
        receiptSha256).run execute
          (run (step (primitives.hashing eventSha256)) (holding alteredRow) [.record call]) =
        (.error error,
          run (step (primitives.hashing eventSha256)) (holding alteredRow) [.record call]) := by
  have hbinds := head_binds_history eventSha256 primitives "lab"
  have hgenesis : ∀ input ∈ journalInputs ([row] ++ [row]), (eventSha256 input).text ≠ genesis := by
    intro input hinput
    have hevent : input = row.event.bytes := by simpa [journalInputs] using hinput
    have htext : (eventSha256 input).text = eventHead := by
      rw [hevent]
      exact eventSha256_event
    rw [htext]
    decide
  have hfree : CollisionFree eventSha256 (journalInputs ([row] ++ [row])) := by
    apply collisionFree_rows.mono
    intro input hinput
    simpa [journalInputs] using Or.inr hinput
  constructor
  · exact hbinds.1 [row] [row] 2 2 eventHead (by decide) hfree hgenesis recompute_row
      recompute_row
  · have hchanged : (holding alteredRow).journalInOrder "lab" ≠
        (holding row).journalInOrder "lab" := by decide
    exact (hbinds.2 (holding row) (holding alteredRow) ⟨"lab", 1, eventHead⟩ rfl passes_row rfl
      hchanged collisionFree_rows [.record call]).2 "run-2" "nonce-2" receiptSha256

end AegisForge.Shared.ReplayRegistry
