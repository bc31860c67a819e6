import Mathlib.Data.List.Dedup
import AegisForge.Core.JsonEquality
import AegisForge.Core.PyObject
import AegisForge.Shared.ArtifactBinding
import AegisForge.Shared.RecoveryEvidence

/-!
# The round trip of recovery evidence

An event is hashed with the payload as it is given and verified with the payload that
is read back from its text.  The two hashes agree where the keys of all dictionaries
are in the order of their texts.
-/

namespace AegisForge.Shared.EvidenceChain

open AegisForge.Core
open RecoveryArtifact (Defect Verdict Content canonical eventBody genesisHash schemaVersion str
  verifyArtifact)
open RecoveryEvidenceChain (evidenceError)

/-! ## The stored events -/

structure Row where
  eventId : ℕ
  recoveryId : String
  attemptId : String
  eventType : String
  /-- The canonical JSON of the payload. -/
  payload : String
  occurredAt : String
  prevHash : String
  eventHash : String
  deriving DecidableEq, Repr

/-- The table of events, in the order of their ids. -/
structure Store where
  rows : List Row
  eventHashes : (rows.map Row.eventHash).Nodup

namespace Store

def empty : Store := ⟨[], List.nodup_nil⟩

def rowsOf (store : Store) (recoveryId : String) : List Row :=
  store.rows.filter fun row => row.recoveryId = recoveryId

/-- The id that `AUTOINCREMENT` gives. -/
def nextId (store : Store) : ℕ := (store.rows.getLast?.map Row.eventId).getD 0 + 1

/-- `INSERT`, refused where the hash is stored. -/
def insert? (store : Store) (row : Row) : Option Store :=
  if hstored : row.eventHash ∈ store.rows.map Row.eventHash then none
  else some ⟨store.rows ++ [row], Table.nodup_map_concat store.eventHashes hstored⟩

end Store

/-- `_row_to_dict`, with the payload that was decoded. -/
def Row.toJson (row : Row) (payload : Json) : Json := .object [
  ("attempt_id", .text row.attemptId),
  ("event_hash", .text row.eventHash),
  ("event_id", .int row.eventId),
  ("event_type", .text row.eventType),
  ("occurred_at", .text row.occurredAt),
  ("payload", payload),
  ("prev_hash", .text row.prevHash),
  ("recovery_id", .text row.recoveryId)]

/-- `_row_to_dict`. -/
def rowToDict (row : Row) : Except Raised Json := do
  let payload ← orRaise ⟨.valueError, "Expecting value"⟩ (Json.loads row.payload.toList)
  pure (row.toJson payload)

def Store.getEvent (store : Store) (eventHash : String) : Except Raised Json := do
  let row ← orRaise (evidenceError "evidence_event_not_found")
    (store.rows.find? fun row => row.eventHash = eventHash)
  rowToDict row

def Store.events (store : Store) (recoveryId : String) : Except Raised (List Json) :=
  (store.rowsOf recoveryId).mapM rowToDict

/-! ## Appending -/

/-- The arguments of `append` beside the ids.  The ids and the type are what `str` makes
of them. -/
structure Call where
  eventType : String
  payload : PyObject
  occurredAt : String

/-- `{}` for a payload that is `None`. -/
def Call.payloadDict (call : Call) : PyObject :=
  match call.payload with
  | .none => .dict []
  | payload => payload

/-- The bytes that `append` hashes, of a payload as it is written. -/
def writtenBytes (recoveryId attemptId : String) (call : Call) (written : Json)
    (prevHash : String) : Octets :=
  utf8 ((eventBody recoveryId attemptId call.eventType written call.occurredAt
    prevHash).encode false)

/-- `prev_hash` of the next event. -/
def lastHash (rows : List Row) : String := (rows.getLast?.map Row.eventHash).getD genesisHash

/-- The row of a call, whose payload is written as it is given. -/
def Call.row (sha256 : Octets → Digest) (recoveryId attemptId : String) (call : Call)
    (written : Json) (prevHash : String) (eventId : ℕ) : Row where
  eventId := eventId
  recoveryId := recoveryId
  attemptId := attemptId
  eventType := call.eventType
  payload := String.ofList (written.encode false)
  occurredAt := call.occurredAt
  prevHash := prevHash
  eventHash := (sha256 (writtenBytes recoveryId attemptId call written prevHash)).text

/-- `append`, which answers the event. -/
def append (sha256 : Octets → Digest) (recoveryId attemptId : String) (store : Store)
    (call : Call) : Except Raised (Json × Store) := do
  raiseUnless (isBlank recoveryId = false) (evidenceError "recovery_id_required")
  raiseUnless (isBlank attemptId = false) (evidenceError "attempt_id_required")
  raiseUnless (isBlank call.eventType = false) (evidenceError "event_type_required")
  raiseUnless (call.payloadDict.isDict = true) (evidenceError "payload_must_be_dict")
  let prevHash := lastHash (store.rowsOf recoveryId)
  let written ← orRaise ⟨.typeError, "not JSON serializable"⟩ call.payloadDict.tree
  let row := call.row sha256 recoveryId attemptId written prevHash store.nextId
  let after ← orRaise (evidenceError "evidence_append_conflict") (store.insert? row)
  let event ← after.getEvent row.eventHash
  pure (event, after)

/-- Calls one after another, each of which is accepted. -/
def appendAll (sha256 : Octets → Digest) (recoveryId attemptId : String) :
    Store → List Call → Except Raised Store
  | store, [] => .ok store
  | store, call :: rest => do
      let (_, after) ← append sha256 recoveryId attemptId store call
      appendAll sha256 recoveryId attemptId after rest

/-! ## Verification and export -/

/-- What `verify_artifact` uses, with `==` of the language. -/
def primitives (sha256 : Octets → Digest) (textOf : Json → String) :
    RecoveryArtifact.Primitives where
  textOf := textOf
  equal := Json.equal
  hashEvent recoveryId attemptId eventType payload occurredAt prevHash :=
    (sha256 (canonical
      (eventBody recoveryId attemptId eventType payload occurredAt prevHash))).text

/-- The loop of `verify`. -/
def verifyEvents (primitives : RecoveryArtifact.Primitives) (count : ℕ) :
    String → List Json → Except Defect String
  | previous, [] => .ok previous
  | previous, event :: rest => do
      raiseUnless ((event.get "prev_hash").text? = some previous)
        { error := "broken_prev_hash", events := some count,
          eventHash := some (event.get "event_hash") }
      let expected := primitives.hashEvent (str primitives (event.get "recovery_id"))
        (str primitives (event.get "attempt_id")) (str primitives (event.get "event_type"))
        (event.get "payload") (str primitives (event.get "occurred_at"))
        (str primitives (event.get "prev_hash"))
      raiseUnless ((event.get "event_hash").text? = some expected)
        { error := "event_hash_mismatch", events := some count,
          eventHash := some (event.get "event_hash") }
      verifyEvents primitives count expected rest

def verify (primitives : RecoveryArtifact.Primitives) (store : Store) (recoveryId : String) :
    Except Raised (Except Defect Verdict) := do
  let events ← store.events recoveryId
  pure ((verifyEvents primitives events.length genesisHash events).map
    fun headHash => ⟨events.length, headHash⟩)

/-- The artifact of events. -/
def artifactOf (recoveryId : String) (events : List Json) (headHash : String) : Json := .object [
  ("attempt_id", (events.head?.map fun event => event.get "attempt_id").getD .null),
  ("events", .array events),
  ("head_hash", .text headHash),
  ("recovery_id", .text recoveryId),
  ("schema_version", .text schemaVersion)]

/-- `export_artifact`. -/
def exportArtifact (primitives : RecoveryArtifact.Primitives) (store : Store)
    (recoveryId : String) : Except Raised Json := do
  let events ← store.events recoveryId
  let result ← verify primitives store recoveryId
  let verdict ← orRaise (evidenceError "cannot_export_invalid_chain") result.toOption
  let attemptIds := (events.map fun event => event.get "attempt_id").dedup
  let recoveryIds := (events.map fun event => event.get "recovery_id").dedup
  raiseUnless (recoveryIds.length = 1 ∧ (events = [] ∨ attemptIds.length = 1))
    (evidenceError "inconsistent_recovery_chain")
  pure (artifactOf recoveryId events verdict.headHash)

/-- The chain is valid, exported, and accepted with the same events and head. -/
def RoundTrips (primitives : RecoveryArtifact.Primitives) (store : Store) (recoveryId : String) :
    Prop :=
  ∃ verdict artifact, verify primitives store recoveryId = .ok (.ok verdict) ∧
    exportArtifact primitives store recoveryId = .ok artifact ∧
      verifyArtifact primitives artifact = .ok verdict

/-! ## Recorded events -/

section Recording

variable {sha256 : Octets → Digest} {textOf : Json → String} {recoveryId attemptId : String}

/-- The row is that of a call, after a given hash. -/
def Recorded (sha256 : Octets → Digest) (recoveryId attemptId previous : String) (call : Call)
    (row : Row) (written : Json) : Prop :=
  call.payloadDict.tree = some written ∧
    ∃ eventId, row = call.row sha256 recoveryId attemptId written previous eventId

/-- The rows are those of calls, with the payloads as they were written. -/
def Records (sha256 : Octets → Digest) (recoveryId attemptId : String) :
    String → List Call → List (Row × Json) → Prop
  | _, [], [] => True
  | previous, call :: calls, (row, written) :: records =>
      Recorded sha256 recoveryId attemptId previous call row written ∧
        Records sha256 recoveryId attemptId row.eventHash calls records
  | _, _, _ => False

theorem append_eq_ok {store after : Store} {call : Call} {event : Json}
    (happend : append sha256 recoveryId attemptId store call = .ok (event, after)) :
    isBlank recoveryId = false ∧ ∃ row written,
      after.rowsOf recoveryId = store.rowsOf recoveryId ++ [row] ∧
        Recorded sha256 recoveryId attemptId (lastHash (store.rowsOf recoveryId)) call row
          written := by
  obtain ⟨hrecovery, hattempted⟩ := raiseUnless_bind_eq_ok happend
  obtain ⟨-, htyped⟩ := raiseUnless_bind_eq_ok hattempted
  obtain ⟨-, hpayload⟩ := raiseUnless_bind_eq_ok htyped
  obtain ⟨-, hserialized⟩ := raiseUnless_bind_eq_ok hpayload
  obtain ⟨written, hwritten, hinserted⟩ := orRaise_bind_eq_ok hserialized
  obtain ⟨stored, hstored, hfetched⟩ := orRaise_bind_eq_ok hinserted
  obtain ⟨found, -, hdone⟩ := bind_eq_ok hfetched
  obtain ⟨-, rfl⟩ := Prod.mk.inj (Except.ok.inj hdone)
  rw [Store.insert?] at hstored
  split at hstored
  case isTrue => cases hstored
  case isFalse =>
    obtain rfl := Option.some.inj hstored
    refine ⟨hrecovery, _, written, ?_, hwritten, store.nextId, rfl⟩
    simp [Store.rowsOf, List.filter_append, Call.row]

theorem lastHash_concat (rows : List Row) (row : Row) :
    lastHash (rows ++ [row]) = row.eventHash := by
  simp [lastHash]

/-- Accepted calls leave a row each. -/
theorem records_of_appendAll {store after : Store} {calls : List Call}
    (happend : appendAll sha256 recoveryId attemptId store calls = .ok after) :
    ∃ records, after.rowsOf recoveryId = store.rowsOf recoveryId ++ records.map Prod.fst ∧
      Records sha256 recoveryId attemptId (lastHash (store.rowsOf recoveryId)) calls records := by
  induction calls generalizing store with
  | nil =>
      obtain rfl := Except.ok.inj happend
      exact ⟨[], by simp, trivial⟩
  | cons call rest ih =>
      obtain ⟨⟨event, middle⟩, hfirst, hrest⟩ := bind_eq_ok happend
      obtain ⟨-, row, written, hrow, hrecorded⟩ := append_eq_ok hfirst
      obtain ⟨records, hrows, hrecords⟩ := ih hrest
      rw [hrow, lastHash_concat] at hrecords
      exact ⟨(row, written) :: records, by simp [hrows, hrow], hrecorded, hrecords⟩

/-! ## Reading back -/

/-- The event that is read back. -/
def decoded (record : Row × Json) : Json := record.1.toJson record.2.sortKeys

/-- The bytes that verification hashes for a row. -/
def readBytes (row : Row) (payload : Json) : Octets :=
  canonical (eventBody row.recoveryId row.attemptId row.eventType payload row.occurredAt
    row.prevHash)

/-- The payload that is read back has the hash that was stored. -/
def Rehashes (sha256 : Octets → Digest) (record : Row × Json) : Prop :=
  (sha256 (readBytes record.1 record.2.sortKeys)).text = record.1.eventHash

variable {previous : String} {calls : List Call} {records : List (Row × Json)}

theorem mapM_rowToDict (hrecords : Records sha256 recoveryId attemptId previous calls records) :
    (records.map Prod.fst).mapM rowToDict = .ok (records.map decoded) := by
  induction records generalizing previous calls with
  | nil => rfl
  | cons record rest ih =>
      cases calls with
      | nil => cases hrecords
      | cons call calls =>
          obtain ⟨⟨htree, eventId, hrow⟩, hrest⟩ := hrecords
          have hread : rowToDict record.1 = .ok (decoded record) := by
            rw [rowToDict, hrow, Call.row, String.toList_ofList,
              Json.loads_encode false (PyObject.tree_spec htree).1]
            rw [decoded, hrow]
            rfl
          rw [List.map_cons, List.mapM_cons, hread, ih hrest]
          rfl

/-- What the event of a call says. -/
def Call.content (attemptId : String) (call : Call) (payload : Json) : Content :=
  ⟨attemptId, call.eventType, payload, call.occurredAt⟩

/-- A payload with sorted keys is hashed as it is written. -/
theorem readBytes_row {call : Call} {written payload : Json} {eventId : ℕ}
    (hpayload : payload.IsCanonical) :
    readBytes (call.row sha256 recoveryId attemptId written previous eventId) payload =
      utf8 (((call.content attemptId payload).body recoveryId previous).encode false) := by
  have hbody : ((call.content attemptId payload).body recoveryId previous).IsCanonical :=
    Content.isCanonical_body hpayload
  have hread : readBytes (call.row sha256 recoveryId attemptId written previous eventId) payload =
      canonical ((call.content attemptId payload).body recoveryId previous) := rfl
  rw [hread, canonical, Json.sortKeys_of_isCanonical hbody]

/-- Ordered keys are hashed alike before and after. -/
theorem rehashes_of_keysInTextOrder
    (hrecords : Records sha256 recoveryId attemptId previous calls records)
    (horder : ∀ call ∈ calls, call.payloadDict.KeysInTextOrder) :
    ∀ record ∈ records, Rehashes sha256 record := by
  induction records generalizing previous calls with
  | nil => simp
  | cons record rest ih =>
      cases calls with
      | nil => cases hrecords
      | cons call calls =>
          obtain ⟨⟨htree, eventId, hrow⟩, hrest⟩ := hrecords
          rw [List.forall_mem_cons] at horder ⊢
          refine ⟨?_, ih hrest horder.2⟩
          have hwritten := (PyObject.tree_spec htree).2.mpr horder.1
          rw [Rehashes, hrow, Json.sortKeys_of_isCanonical hwritten, readBytes_row hwritten]
          rfl

/-- The bytes that are hashed for calls, before and after. -/
def hashedInputs (sha256 : Octets → Digest) (recoveryId attemptId : String) :
    String → List Call → List Octets
  | _, [] => []
  | previous, call :: rest =>
      match call.payloadDict.tree with
      | none => []
      | some written =>
          let row := call.row sha256 recoveryId attemptId written previous 0
          writtenBytes recoveryId attemptId call written previous ::
            readBytes row written.sortKeys ::
              hashedInputs sha256 recoveryId attemptId row.eventHash rest

/-- A payload is hashed alike before and after only where its keys are sorted. -/
theorem sortKeys_of_readBytes_eq {call : Call} {written : Json} {eventId : ℕ}
    (hreadable : written.Readable)
    (hbytes : readBytes (call.row sha256 recoveryId attemptId written previous eventId)
      written.sortKeys = writtenBytes recoveryId attemptId call written previous) :
    written.sortKeys = written := by
  rw [readBytes_row (Json.isCanonical_sortKeys written)] at hbytes
  have hbody : (call.content attemptId written.sortKeys).body recoveryId previous =
      (call.content attemptId written).body recoveryId previous :=
    Json.eq_of_encode_eq (Content.readable_body (Json.readable_sortKeys hreadable))
      (Content.readable_body hreadable) (utf8_injective hbytes)
  exact congrArg Content.payload (Content.body_inj hbody).1

/-- One hash of both bytes comes from ordered keys, unless it is a collision. -/
theorem keysInTextOrder_of_hash_eq {call : Call} {written : Json} {eventId : ℕ}
    {inputs : List Octets} (htree : call.payloadDict.tree = some written)
    (hfree : CollisionFree sha256 inputs)
    (hwritten : writtenBytes recoveryId attemptId call written previous ∈ inputs)
    (hread : readBytes (call.row sha256 recoveryId attemptId written previous eventId)
      written.sortKeys ∈ inputs)
    (hrehashes : Rehashes sha256
      (call.row sha256 recoveryId attemptId written previous eventId, written)) :
    call.payloadDict.KeysInTextOrder := by
  obtain ⟨hreadable, hcanonical⟩ := PyObject.tree_spec htree
  have hbytes := hfree _ hread _ hwritten (Digest.text_injective hrehashes)
  have hsame := sortKeys_of_readBytes_eq hreadable hbytes
  exact hcanonical.mp (Json.sortKeys_eq_self_iff.mp hsame)

theorem keysInTextOrder_of_rehashes
    (hrecords : Records sha256 recoveryId attemptId previous calls records)
    (hfree : CollisionFree sha256 (hashedInputs sha256 recoveryId attemptId previous calls))
    (hrehashes : ∀ record ∈ records, Rehashes sha256 record) :
    ∀ call ∈ calls, call.payloadDict.KeysInTextOrder := by
  induction calls generalizing previous records with
  | nil => simp
  | cons call calls ih =>
      cases records with
      | nil => cases hrecords
      | cons record rest =>
          obtain ⟨row, written⟩ := record
          obtain ⟨⟨htree, eventId, rfl⟩, hrest⟩ := hrecords
          rw [List.forall_mem_cons] at hrehashes ⊢
          rw [hashedInputs, htree] at hfree
          constructor
          · exact keysInTextOrder_of_hash_eq htree hfree (List.mem_cons_self ..)
              (List.mem_cons_of_mem _ (List.mem_cons_self ..)) hrehashes.1
          · refine ih hrest (hfree.mono fun input hinput => ?_) hrehashes.2
            exact List.mem_cons_of_mem _ (List.mem_cons_of_mem _ hinput)

/-! ## Verification -/

/-- An event whose payload has the stored hash passes both checks. -/
theorem verifyEvent_decoded {count : ℕ} {record : Row × Json}
    (hrecovery : record.1.recoveryId = recoveryId) (hattempt : record.1.attemptId = attemptId)
    (hprevious : record.1.prevHash = previous) (hrehashes : Rehashes sha256 record) :
    RecoveryArtifact.verifyEvent (primitives sha256 textOf) recoveryId (.text attemptId) count
      previous (decoded record) = .ok record.1.eventHash := by
  have hequal : Json.equal (.text record.1.attemptId) (.text attemptId) = true := by
    rw [Json.equal_text_iff, hattempt]
  have hhash : (sha256 (readBytes record.1 record.2.sortKeys)).text = record.1.eventHash :=
    hrehashes
  rw [RecoveryArtifact.verifyEvent, raiseUnless_bind_eq_ok_iff, raiseUnless_bind_eq_ok_iff,
    raiseUnless_bind_eq_ok_iff, raiseUnless_bind_eq_ok_iff, raiseUnless_bind_eq_ok_iff]
  have hfields : ∀ field ∈ RecoveryArtifact.eventFields, field ∈ (decoded record).keys := by
    simp [RecoveryArtifact.eventFields, decoded, Row.toJson, Json.keys]
  refine ⟨rfl, congrArg some hrecovery, Or.inr hequal, congrArg some hprevious, hfields, ?_⟩
  rw [raiseUnless_bind_eq_ok_iff]
  exact ⟨congrArg some hhash.symm, congrArg Except.ok hhash⟩

theorem verifyEvents_decoded {count : ℕ}
    (hrecords : Records sha256 recoveryId attemptId previous calls records)
    (hrehashes : ∀ record ∈ records, Rehashes sha256 record) :
    ∃ headHash,
      verifyEvents (primitives sha256 textOf) count previous (records.map decoded) =
          .ok headHash ∧
        RecoveryArtifact.verifyEvents (primitives sha256 textOf) recoveryId (.text attemptId)
          count previous (records.map decoded) = .ok headHash := by
  induction records generalizing previous calls with
  | nil => exact ⟨previous, rfl, rfl⟩
  | cons record rest ih =>
      cases calls with
      | nil => cases hrecords
      | cons call calls =>
          obtain ⟨⟨htree, eventId, hrow⟩, hrest⟩ := hrecords
          rw [List.forall_mem_cons] at hrehashes
          obtain ⟨headHash, hverified, haccepted⟩ := ih hrest hrehashes.2
          have hhash : (sha256 (readBytes record.1 record.2.sortKeys)).text =
              record.1.eventHash := hrehashes.1
          have hprevious : record.1.prevHash = previous := by rw [hrow]; rfl
          refine ⟨headHash, ?_, ?_⟩
          · rw [List.map_cons, verifyEvents, raiseUnless_bind_eq_ok_iff,
              raiseUnless_bind_eq_ok_iff]
            refine ⟨congrArg some hprevious, congrArg some hhash.symm, ?_⟩
            rw [← hverified, ← hhash]
            rfl
          · rw [List.map_cons, RecoveryArtifact.verifyEvents, bind_eq_ok_iff]
            exact ⟨record.1.eventHash, verifyEvent_decoded (by rw [hrow]; rfl) (by rw [hrow]; rfl)
              hprevious hrehashes.1, haccepted⟩

theorem rehashes_of_verifyEvents {count : ℕ} {headHash : String}
    (hverified : verifyEvents (primitives sha256 textOf) count previous (records.map decoded) =
      .ok headHash) : ∀ record ∈ records, Rehashes sha256 record := by
  induction records generalizing previous with
  | nil => simp
  | cons record rest ih =>
      rw [List.map_cons, verifyEvents, raiseUnless_bind_eq_ok_iff,
        raiseUnless_bind_eq_ok_iff] at hverified
      obtain ⟨-, hhash, hrest⟩ := hverified
      rw [List.forall_mem_cons]
      exact ⟨(Option.some.inj hhash).symm, ih hrest⟩

/-! ## The round trip -/

variable {store after : Store}

/-- The events of accepted calls. -/
theorem events_of_records (hrows : after.rowsOf recoveryId = records.map Prod.fst)
    (hrecords : Records sha256 recoveryId attemptId previous calls records) :
    after.events recoveryId = .ok (records.map decoded) := by
  rw [Store.events, hrows, mapM_rowToDict hrecords]

theorem length_of_records (hrecords : Records sha256 recoveryId attemptId previous calls records) :
    records.length = calls.length := by
  induction records generalizing previous calls with
  | nil =>
      cases calls with
      | nil => rfl
      | cons call calls => cases hrecords
  | cons record rest ih =>
      cases calls with
      | nil => cases hrecords
      | cons call calls => rw [List.length_cons, List.length_cons, ih hrecords.2]

/-- All events carry the ids of the calls. -/
theorem map_get_decoded (hrecords : Records sha256 recoveryId attemptId previous calls records) :
    (records.map decoded).map (fun event => event.get "recovery_id") =
        List.replicate records.length (.text recoveryId) ∧
      (records.map decoded).map (fun event => event.get "attempt_id") =
        List.replicate records.length (.text attemptId) := by
  induction records generalizing previous calls with
  | nil => exact ⟨rfl, rfl⟩
  | cons record rest ih =>
      cases calls with
      | nil => cases hrecords
      | cons call calls =>
          obtain ⟨⟨htree, eventId, hrow⟩, hrest⟩ := hrecords
          obtain ⟨hrecoveries, hattempts⟩ := ih hrest
          have hids : (decoded record).get "recovery_id" = .text recoveryId ∧
              (decoded record).get "attempt_id" = .text attemptId := by
            rw [decoded, hrow]
            exact ⟨rfl, rfl⟩
          simp only [List.map_cons, List.length_cons, List.replicate_succ, hids, hrecoveries,
            hattempts, and_self]

theorem verify_eq_ok {events : List Json} {headHash : String}
    (hevents : after.events recoveryId = .ok events)
    (hverified : verifyEvents (primitives sha256 textOf) events.length genesisHash events =
      .ok headHash) :
    verify (primitives sha256 textOf) after recoveryId = .ok (.ok ⟨events.length, headHash⟩) := by
  rw [verify, bind_eq_ok_iff]
  refine ⟨events, hevents, ?_⟩
  rw [hverified]
  rfl

/-- The artifact of accepted calls is of their attempt. -/
theorem attemptId_artifactOf {headHash : String}
    (hrecords : Records sha256 recoveryId attemptId previous calls records)
    (hnonempty : records.length ≠ 0) :
    (artifactOf recoveryId (records.map decoded) headHash).get "attempt_id" = .text attemptId := by
  have hhead : (records.map decoded).head?.map (fun event => event.get "attempt_id") =
      some (.text attemptId) := by
    rw [← List.head?_map, (map_get_decoded hrecords).2, List.head?_replicate, if_neg hnonempty]
  have hget : (artifactOf recoveryId (records.map decoded) headHash).get "attempt_id" =
      ((records.map decoded).head?.map fun event => event.get "attempt_id").getD .null := rfl
  rw [hget, hhead, Option.getD_some]

/-- Accepted calls with ordered keys make a chain that comes back. -/
theorem roundTrips_of_order (hrecovery : isBlank recoveryId = false)
    (hrows : after.rowsOf recoveryId = records.map Prod.fst)
    (hrecords : Records sha256 recoveryId attemptId genesisHash calls records)
    (hcalls : calls ≠ []) (horder : ∀ call ∈ calls, call.payloadDict.KeysInTextOrder) :
    RoundTrips (primitives sha256 textOf) after recoveryId := by
  have hevents := events_of_records hrows hrecords
  have hnonempty : records.length ≠ 0 := by
    rw [length_of_records hrecords]
    simpa using hcalls
  obtain ⟨headHash, hverified, haccepted⟩ := @verifyEvents_decoded sha256 textOf recoveryId
    attemptId genesisHash calls records (records.map decoded).length hrecords
    (rehashes_of_keysInTextOrder hrecords horder)
  have hverify := verify_eq_ok hevents hverified
  obtain ⟨hrecoveries, hattempts⟩ := map_get_decoded hrecords
  refine ⟨⟨(records.map decoded).length, headHash⟩,
    artifactOf recoveryId (records.map decoded) headHash, hverify, ?_, ?_⟩
  · rw [exportArtifact, bind_eq_ok_iff]
    refine ⟨_, hevents, ?_⟩
    rw [bind_eq_ok_iff]
    refine ⟨_, hverify, ?_⟩
    rw [orRaise_bind_eq_ok_iff]
    refine ⟨_, rfl, ?_⟩
    rw [raiseUnless_bind_eq_ok_iff, hrecoveries, hattempts, List.replicate_dedup hnonempty,
      List.replicate_dedup hnonempty]
    exact ⟨⟨rfl, Or.inr rfl⟩, rfl⟩
  · have hfilled : (artifactOf recoveryId (records.map decoded) headHash).get "recovery_id" =
        .text recoveryId := rfl
    have hitems : AttestorRegistry.itemsOf
        ((artifactOf recoveryId (records.map decoded) headHash).get "events") =
          records.map decoded := rfl
    rw [verifyArtifact, raiseUnless_bind_eq_ok_iff, raiseUnless_bind_eq_ok_iff,
      orRaise_bind_eq_ok_iff]
    refine ⟨rfl, rfl, recoveryId, ?_, ?_⟩
    · rw [hfilled, Json.filledText?, Json.text?, Option.filter_some, hrecovery]
      rfl
    · rw [raiseUnless_bind_eq_ok_iff, hitems, attemptId_artifactOf hrecords hnonempty,
        bind_eq_ok_iff]
      refine ⟨rfl, headHash, haccepted, ?_⟩
      rw [raiseUnless_bind_eq_ok_iff]
      exact ⟨rfl, rfl⟩

/-- A chain that comes back was made of calls with ordered keys. -/
theorem order_of_roundTrips
    (hrows : after.rowsOf recoveryId = records.map Prod.fst)
    (hrecords : Records sha256 recoveryId attemptId genesisHash calls records)
    (hfree : CollisionFree sha256 (hashedInputs sha256 recoveryId attemptId genesisHash calls))
    (hround : RoundTrips (primitives sha256 textOf) after recoveryId) :
    calls ≠ [] ∧ ∀ call ∈ calls, call.payloadDict.KeysInTextOrder := by
  obtain ⟨verdict, artifact, hverify, hexport, -⟩ := hround
  have hevents := events_of_records hrows hrecords
  constructor
  · rintro rfl
    have hempty : records.length = 0 := length_of_records hrecords
    obtain ⟨events, hfound, hexported⟩ := bind_eq_ok hexport
    obtain ⟨result, -, hchecked⟩ := bind_eq_ok hexported
    obtain ⟨valid, -, hconsistent⟩ := orRaise_bind_eq_ok hchecked
    obtain ⟨⟨hone, -⟩, -⟩ := raiseUnless_bind_eq_ok hconsistent
    obtain rfl := Except.ok.inj (hevents.symm.trans hfound)
    rw [(map_get_decoded hrecords).1, hempty] at hone
    cases hone
  · obtain ⟨events, hfound, hverified⟩ := bind_eq_ok hverify
    obtain rfl := Except.ok.inj (hevents.symm.trans hfound)
    apply keysInTextOrder_of_rehashes hrecords hfree
    cases hloop : verifyEvents (primitives sha256 textOf) (records.map decoded).length
        genesisHash (records.map decoded) with
    | error defect =>
        rw [hloop] at hverified
        cases hverified
    | ok headHash => exact rehashes_of_verifyEvents hloop

end Recording

theorem keysInTextOrder_payloadDict (call : Call) :
    call.payloadDict.KeysInTextOrder ↔ call.payload.KeysInTextOrder := by
  rw [Call.payloadDict]
  split
  case h_1 hnone => simp [hnone, PyObject.KeysInTextOrder, PyObject.FieldsInTextOrder,
    PyKey.sorted]
  case h_2 => rfl

/-- Accepted calls of one attempt come back exactly when there are some and the sorted keys
of every dictionary have their texts in the order of texts. -/
theorem roundTrips_iff (sha256 : Octets → Digest) (textOf : Json → String)
    {recoveryId attemptId : String} {store after : Store} {calls : List Call}
    (hfresh : store.rowsOf recoveryId = [])
    (happend : appendAll sha256 recoveryId attemptId store calls = .ok after) :
    ((calls ≠ [] ∧ ∀ call ∈ calls, call.payload.KeysInTextOrder) →
      RoundTrips (primitives sha256 textOf) after recoveryId) ∧
    (CollisionFree sha256 (hashedInputs sha256 recoveryId attemptId genesisHash calls) →
      RoundTrips (primitives sha256 textOf) after recoveryId →
        calls ≠ [] ∧ ∀ call ∈ calls, call.payload.KeysInTextOrder) := by
  simp only [← keysInTextOrder_payloadDict]
  obtain ⟨records, hrows, hrecords⟩ := records_of_appendAll happend
  rw [hfresh, List.nil_append] at hrows
  have hgenesis : lastHash ([] : List Row) = genesisHash := rfl
  rw [hfresh, hgenesis] at hrecords
  constructor
  · rintro ⟨hcalls, horder⟩
    have hrecovery : isBlank recoveryId = false := by
      cases calls with
      | nil => exact absurd rfl hcalls
      | cons call rest =>
          obtain ⟨⟨event, middle⟩, hfirst, -⟩ := bind_eq_ok happend
          exact (append_eq_ok hfirst).1
    exact roundTrips_of_order hrecovery hrows hrecords hcalls horder
  · exact order_of_roundTrips hrows hrecords

/-! ## Samples -/

namespace Sample

def callOf (payload : PyObject) : Call := ⟨"claimed", payload, "2026-05-01T12:00:00+00:00"⟩

def named : PyObject := .dict [(.text "status", .text "ok")]

/-- `{2: "a", 10: "b"}`. -/
def numbered : PyObject := .dict [(.int 2, .text "a"), (.int 10, .text "b")]

def textOf (_ : Json) : String := "None"

/-- SHA-256 of the event with the named payload. -/
def namedSha256 (_ : Octets) : Digest :=
  ⟨"ce1a7e3cc843320eb3d87ef2c653eb34e567edf0008dbd88fec3a9703f1b445f", by decide +kernel⟩

def writtenDigest : Digest :=
  ⟨"5990f6eb7b0df7ffdfc10b926dfe8f94bc59739b44595dcc0f9365835032a4c3", by decide +kernel⟩

def readDigest : Digest :=
  ⟨"191624120100f55b63e5d6b6ebadd66710eb13d0e5c8e36d79922465a6635027", by decide +kernel⟩

def writtenPayload : Json := .object [("2", .text "a"), ("10", .text "b")]

/-- SHA-256 of the event with the numbered payload, as it is written and as it is read. -/
def numberedSha256 (bytes : Octets) : Digest :=
  if bytes = writtenBytes "recovery-1" "attempt-1" (callOf numbered) writtenPayload genesisHash
    then writtenDigest else readDigest

/-- A first call is accepted. -/
theorem appendAll_first (sha256 : Octets → Digest) {payload : PyObject} {written : Json}
    (hpayload : (callOf payload).payloadDict.isDict = true)
    (htree : (callOf payload).payloadDict.tree = some written) :
    ∃ after, appendAll sha256 "recovery-1" "attempt-1" .empty [callOf payload] = .ok after := by
  let row := (callOf payload).row sha256 "recovery-1" "attempt-1" written genesisHash 1
  have hinsert : Store.empty.insert? row = some ⟨[row], List.nodup_singleton _⟩ := rfl
  have hfind : ([row].find? fun other => other.eventHash = row.eventHash) = some row := by simp
  have hloads : Json.loads row.payload.toList = some written.sortKeys := by
    show Json.loads (String.ofList (written.encode false)).toList = _
    rw [String.toList_ofList, Json.loads_encode false (PyObject.tree_spec htree).1]
  have hevent : Store.getEvent ⟨[row], List.nodup_singleton _⟩ row.eventHash =
      .ok (row.toJson written.sortKeys) := by
    rw [Store.getEvent, orRaise_bind_eq_ok_iff]
    refine ⟨row, hfind, ?_⟩
    rw [rowToDict, orRaise_bind_eq_ok_iff]
    exact ⟨_, hloads, rfl⟩
  have happend : append sha256 "recovery-1" "attempt-1" .empty (callOf payload) =
      .ok (row.toJson written.sortKeys, ⟨[row], List.nodup_singleton _⟩) := by
    rw [append, raiseUnless_bind_eq_ok_iff, raiseUnless_bind_eq_ok_iff,
      raiseUnless_bind_eq_ok_iff, raiseUnless_bind_eq_ok_iff, orRaise_bind_eq_ok_iff]
    have htype : isBlank (callOf payload).eventType = false := by
      show isBlank "claimed" = false
      decide
    refine ⟨by decide, by decide, htype, hpayload, written, htree, ?_⟩
    rw [orRaise_bind_eq_ok_iff]
    refine ⟨_, hinsert, ?_⟩
    rw [bind_eq_ok_iff]
    exact ⟨_, hevent, rfl⟩
  refine ⟨⟨[row], List.nodup_singleton _⟩, ?_⟩
  rw [appendAll, bind_eq_ok_iff]
  exact ⟨_, happend, rfl⟩

theorem tree_numbered : (callOf numbered).payloadDict.tree = some writtenPayload := by
  decide +kernel

theorem readBytes_numbered :
    readBytes ((callOf numbered).row numberedSha256 "recovery-1" "attempt-1" writtenPayload
      genesisHash 0) writtenPayload.sortKeys ≠
        writtenBytes "recovery-1" "attempt-1" (callOf numbered) writtenPayload genesisHash := by
  intro hbytes
  have hsame := sortKeys_of_readBytes_eq (PyObject.tree_spec tree_numbered).1 hbytes
  exact absurd hsame (by decide +kernel)

theorem collisionFree_numbered : CollisionFree numberedSha256
    (hashedInputs numberedSha256 "recovery-1" "attempt-1" genesisHash [callOf numbered]) := by
  have hwritten : numberedSha256 (writtenBytes "recovery-1" "attempt-1" (callOf numbered)
      writtenPayload genesisHash) = writtenDigest := by
    rw [numberedSha256, if_pos rfl]
  rw [hashedInputs, tree_numbered]
  apply CollisionFree.of_nodup
  simp only [hashedInputs, List.map_cons, List.map_nil, hwritten]
  rw [numberedSha256, if_neg readBytes_numbered]
  decide +kernel

end Sample

open Sample in
theorem roundTrips_named :
    ∃ after, appendAll namedSha256 "recovery-1" "attempt-1" .empty [callOf named] = .ok after ∧
      RoundTrips (primitives namedSha256 textOf) after "recovery-1" := by
  obtain ⟨after, happend⟩ := @appendAll_first namedSha256 named
    (.object [("status", .text "ok")]) rfl rfl
  refine ⟨after, happend, (roundTrips_iff namedSha256 textOf rfl happend).1 ⟨by simp, ?_⟩⟩
  rw [List.forall_mem_singleton]
  exact ⟨by decide, trivial, trivial⟩

open Sample in
/-- A payload with numbers as its keys makes an honest chain invalid. -/
theorem not_roundTrips_numbered :
    ∃ after, appendAll numberedSha256 "recovery-1" "attempt-1" .empty [callOf numbered] =
        .ok after ∧
      ¬RoundTrips (primitives numberedSha256 textOf) after "recovery-1" := by
  obtain ⟨after, happend⟩ := appendAll_first numberedSha256 rfl tree_numbered
  refine ⟨after, happend, fun hround => ?_⟩
  obtain ⟨records, hrows, hrecords⟩ := records_of_appendAll happend
  have horder := (order_of_roundTrips hrows hrecords collisionFree_numbered hround).2 _
    (List.mem_singleton_self _)
  exact absurd horder.1 (by decide)

end AegisForge.Shared.EvidenceChain
