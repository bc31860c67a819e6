import AegisForge.Core.CanonicalJson
import AegisForge.Core.HashChain
import AegisForge.Shared.RecoveryArtifact

/-!
# What the head of a recovery artifact binds

Every event is hashed with the hash of the event before it, so that two accepted
artifacts of a recovery with one head say the same, event by event.
-/

namespace AegisForge.Shared.RecoveryArtifact

open AegisForge.Core
open AttestorRegistry (itemsOf)

/-! ## Hashed events -/

/-- `_canonical`, with its bytes. -/
def canonical (value : Json) : Octets := utf8 (value.sortKeys.encode false)

/-- The dictionary that `_hash_event` hashes. -/
def eventBody (recoveryId attemptId eventType : String) (payload : Json)
    (occurredAt prevHash : String) : Json :=
  .object [
    ("attempt_id", .text attemptId),
    ("event_type", .text eventType),
    ("occurred_at", .text occurredAt),
    ("payload", payload),
    ("prev_hash", .text prevHash),
    ("recovery_id", .text recoveryId),
    ("schema_version", .text schemaVersion)]

/-- The primitives with `_hash_event` as the code computes it. -/
def Primitives.hashing (primitives : Primitives) (sha256 : Octets → Digest) : Primitives :=
  { primitives with
    hashEvent := fun recoveryId attemptId eventType payload occurredAt prevHash =>
      (sha256 (canonical
        (eventBody recoveryId attemptId eventType payload occurredAt prevHash))).text }

@[simp]
theorem Primitives.str_hashing (primitives : Primitives) (sha256 : Octets → Digest)
    (value : Json) : str (primitives.hashing sha256) value = str primitives value := by
  cases value <;> rfl

theorem canonical_inj {left right : Json} (hleft : left.IsCanonical)
    (hright : right.IsCanonical) (hleftReadable : left.Readable)
    (hrightReadable : right.Readable) (hbytes : canonical left = canonical right) :
    left = right := by
  rw [canonical, canonical, Json.sortKeys_of_isCanonical hleft,
    Json.sortKeys_of_isCanonical hright] at hbytes
  exact Json.eq_of_encode_eq hleftReadable hrightReadable (utf8_injective hbytes)

/-- What an event says apart from the chain. -/
structure Content where
  attemptId : String
  eventType : String
  payload : Json
  occurredAt : String
  deriving DecidableEq

namespace Content

def body (content : Content) (recoveryId prevHash : String) : Json :=
  eventBody recoveryId content.attemptId content.eventType content.payload content.occurredAt
    prevHash

variable {content other : Content} {recoveryId prevHash otherHash : String}

theorem isCanonical_body (hpayload : content.payload.IsCanonical) :
    (content.body recoveryId prevHash).IsCanonical := by
  simpa [-String.lt_iff_ltb, body, eventBody] using hpayload

theorem readable_body (hpayload : content.payload.Readable) :
    (content.body recoveryId prevHash).Readable := by
  simpa [body, eventBody, Json.Readable, Json.ReadableFields] using hpayload

theorem body_inj (hbody : content.body recoveryId prevHash = other.body recoveryId otherHash) :
    content = other ∧ prevHash = otherHash := by
  cases content
  cases other
  simp only [body, eventBody, Json.object.injEq, List.cons.injEq, Prod.mk.injEq,
    Json.text.injEq, true_and, and_true] at hbody
  obtain ⟨rfl, rfl, rfl, rfl, rfl⟩ := hbody
  exact ⟨rfl, rfl⟩

end Content

def contentOf (primitives : Primitives) (event : Json) : Content where
  attemptId := str primitives (event.get "attempt_id")
  eventType := str primitives (event.get "event_type")
  payload := event.get "payload"
  occurredAt := str primitives (event.get "occurred_at")

/-- The link that an event is of the chain. -/
def linkOf (primitives : Primitives) (event : Json) : Link Content String where
  body := contentOf primitives event
  previous := str primitives (event.get "prev_hash")
  hash := str primitives (event.get "event_hash")

/-- The hash of an event of a recovery. -/
def contentDigest (sha256 : Octets → Digest) (recoveryId : String) (content : Content)
    (prevHash : String) : String :=
  (sha256 (canonical (content.body recoveryId prevHash))).text

/-- What is hashed for the events of an artifact. -/
def artifactInputs (primitives : Primitives) (artifact : Json) : List Octets :=
  (itemsOf (artifact.get "events")).map fun event =>
    canonical ((contentOf primitives event).body (str primitives (event.get "recovery_id"))
      (str primitives (event.get "prev_hash")))

/-! ## Accepted events -/

section Binding

variable {primitives : Primitives} {sha256 : Octets → Digest}

/-- An accepted event is a link of its recovery. -/
structure IsLink (primitives : Primitives) (sha256 : Octets → Digest)
    (recoveryId previous next : String) (event : Json) : Prop where
  recovered : str primitives (event.get "recovery_id") = recoveryId
  linked : str primitives (event.get "prev_hash") = previous
  hashed : str primitives (event.get "event_hash") = next
  digest : next = contentDigest sha256 recoveryId (contentOf primitives event) previous

theorem str_of_text? {value : Json} {text : String} (htext : value.text? = some text) :
    str primitives value = text := by
  obtain rfl := Json.text?_eq_some_iff.mp htext
  rfl

theorem isLink_of_verifyEvent {recoveryId previous next : String} {attemptId event : Json}
    {count : ℕ}
    (hverified : verifyEvent (primitives.hashing sha256) recoveryId attemptId count previous
      event = .ok next) : IsLink primitives sha256 recoveryId previous next event := by
  obtain ⟨-, hrecovered⟩ := raiseUnless_bind_eq_ok hverified
  obtain ⟨hrecovery, hattempted⟩ := raiseUnless_bind_eq_ok hrecovered
  obtain ⟨-, hpreceded⟩ := raiseUnless_bind_eq_ok hattempted
  obtain ⟨hprevious, hcomplete⟩ := raiseUnless_bind_eq_ok hpreceded
  obtain ⟨-, hhashed⟩ := raiseUnless_bind_eq_ok hcomplete
  obtain ⟨hhash, hnext⟩ := raiseUnless_bind_eq_ok hhashed
  obtain rfl := Except.ok.inj hnext
  have hrecoveryText := @str_of_text? primitives _ _ hrecovery
  have hpreviousText := @str_of_text? primitives _ _ hprevious
  refine ⟨hrecoveryText, hpreviousText, str_of_text? hhash, ?_⟩
  simp only [Primitives.str_hashing, hrecoveryText, hpreviousText]
  rfl

/-- The accepted events of a recovery are a chain. -/
theorem linked_of_verifyEvents {recoveryId previous head : String} {attemptId : Json}
    {count : ℕ} {events : List Json}
    (hverified : verifyEvents (primitives.hashing sha256) recoveryId attemptId count previous
      events = .ok head) :
    Linked (contentDigest sha256 recoveryId) previous (events.map (linkOf primitives)) head ∧
      ∀ event ∈ events, str primitives (event.get "recovery_id") = recoveryId := by
  induction events generalizing previous with
  | nil => exact ⟨(Except.ok.inj hverified).symm, by simp⟩
  | cons event rest ih =>
      obtain ⟨next, hevent, hrest⟩ := bind_eq_ok hverified
      have hlink := isLink_of_verifyEvent hevent
      obtain ⟨hlinked, hrecovery⟩ := ih hrest
      refine ⟨⟨hlink.linked, hlink.hashed.trans hlink.digest, ?_⟩, ?_⟩
      · rw [linkOf, hlink.hashed]
        exact hlinked
      · rw [List.forall_mem_cons]
        exact ⟨hlink.recovered, hrecovery⟩

/-- An artifact whose events are a chain from the genesis to its head. -/
structure Accepted (primitives : Primitives) (sha256 : Octets → Digest) (artifact : Json)
    (recoveryId headHash : String) : Prop where
  recovery : (artifact.get "recovery_id").text? = some recoveryId
  linked : Linked (contentDigest sha256 recoveryId) genesisHash
    ((itemsOf (artifact.get "events")).map (linkOf primitives)) headHash
  events : ∀ event ∈ itemsOf (artifact.get "events"),
    str primitives (event.get "recovery_id") = recoveryId
  head : (artifact.get "head_hash").text? = some headHash

theorem accepted_of_verifyArtifact {artifact : Json} {verdict : Verdict}
    (hverified : verifyArtifact (primitives.hashing sha256) artifact = .ok verdict) :
    ∃ recoveryId, Accepted primitives sha256 artifact recoveryId verdict.headHash := by
  obtain ⟨-, hversioned⟩ := raiseUnless_bind_eq_ok hverified
  obtain ⟨-, hrecovered⟩ := raiseUnless_bind_eq_ok hversioned
  obtain ⟨recoveryId, hrecovery, hlisted⟩ := orRaise_bind_eq_ok hrecovered
  obtain ⟨-, hchained⟩ := raiseUnless_bind_eq_ok hlisted
  obtain ⟨headHash, hevents, hheaded⟩ := bind_eq_ok hchained
  obtain ⟨hhead, hdone⟩ := raiseUnless_bind_eq_ok hheaded
  obtain rfl := Except.ok.inj hdone
  obtain ⟨hlinked, hrecoveries⟩ := linked_of_verifyEvents hevents
  obtain ⟨hrecoveryText, -⟩ := Json.text_of_filledText? hrecovery
  exact ⟨recoveryId, Json.text?_eq_some_iff.mpr hrecoveryText, hlinked, hrecoveries, hhead⟩

/-! ## Two artifacts -/

/-- The payloads of an artifact have sorted keys and can be read, as the artifact. -/
theorem payload_of_mem {artifact event : Json} (hcanonical : artifact.IsCanonical)
    (hreadable : artifact.Readable) (hevent : event ∈ itemsOf (artifact.get "events")) :
    (contentOf primitives event).payload.IsCanonical ∧
      (contentOf primitives event).payload.Readable := by
  have hevents := Json.isCanonical_get hcanonical "events"
  have hreadableEvents := Json.readable_get hreadable "events"
  cases hitems : artifact.get "events" with
  | array items =>
      rw [hitems] at hevent hevents hreadableEvents
      rw [Json.isCanonical_array_iff] at hevents
      rw [Json.Readable, Json.readableItems_iff] at hreadableEvents
      exact ⟨Json.isCanonical_get (hevents event hevent) "payload",
        Json.readable_get (hreadableEvents event hevent) "payload"⟩
  | _ =>
      rw [hitems] at hevent
      cases hevent

/-- Events with one hash say the same, where the hash function has no collisions. -/
theorem binds_of_collisionFree {left right : Json} {recoveryId headHash : String}
    (hleftCanonical : left.IsCanonical) (hrightCanonical : right.IsCanonical)
    (hleftReadable : left.Readable) (hrightReadable : right.Readable)
    (hleft : Accepted primitives sha256 left recoveryId headHash)
    (hright : Accepted primitives sha256 right recoveryId headHash)
    (hfree : CollisionFree sha256
      (artifactInputs primitives left ++ artifactInputs primitives right)) :
    ∀ link ∈ (itemsOf (left.get "events")).map (linkOf primitives),
      ∀ other ∈ (itemsOf (right.get "events")).map (linkOf primitives),
        other.hash = link.hash → other.body = link.body ∧ other.previous = link.previous := by
  intro link hlink other hother hhash
  rw [hleft.linked.hash_eq hlink, hright.linked.hash_eq hother] at hhash
  obtain ⟨event, hevent, rfl⟩ := List.mem_map.mp hlink
  obtain ⟨otherEvent, hotherEvent, rfl⟩ := List.mem_map.mp hother
  have hinput : canonical ((contentOf primitives event).body recoveryId
      (str primitives (event.get "prev_hash"))) ∈ artifactInputs primitives left := by
    rw [← hleft.events event hevent]
    exact List.mem_map_of_mem hevent
  have hotherInput : canonical ((contentOf primitives otherEvent).body recoveryId
      (str primitives (otherEvent.get "prev_hash"))) ∈ artifactInputs primitives right := by
    rw [← hright.events otherEvent hotherEvent]
    exact List.mem_map_of_mem hotherEvent
  have hbytes := hfree _ (List.mem_append_right _ hotherInput) _
    (List.mem_append_left _ hinput) (Digest.text_injective hhash)
  obtain ⟨hpayload, hpayloadReadable⟩ :=
    @payload_of_mem primitives _ _ hleftCanonical hleftReadable hevent
  obtain ⟨hotherPayload, hotherPayloadReadable⟩ :=
    @payload_of_mem primitives _ _ hrightCanonical hrightReadable hotherEvent
  exact Content.body_inj (canonical_inj (Content.isCanonical_body hotherPayload)
    (Content.isCanonical_body hpayload) (Content.readable_body hotherPayloadReadable)
    (Content.readable_body hpayloadReadable) hbytes)

/-- The hashes of accepted events are those of their inputs. -/
theorem hash_ne_of_inputs {artifact : Json} {recoveryId headHash : String}
    (haccepted : Accepted primitives sha256 artifact recoveryId headHash)
    (hgenesis : ∀ input ∈ artifactInputs primitives artifact, (sha256 input).text ≠ genesisHash) :
    ∀ link ∈ (itemsOf (artifact.get "events")).map (linkOf primitives),
      link.hash ≠ genesisHash := by
  intro link hlink
  rw [haccepted.linked.hash_eq hlink]
  obtain ⟨event, hevent, rfl⟩ := List.mem_map.mp hlink
  apply hgenesis
  rw [← haccepted.events event hevent]
  exact List.mem_map_of_mem hevent

end Binding

/-- The head of an accepted artifact belongs to one list of events. -/
theorem head_binds_events (sha256 : Octets → Digest) (primitives : Primitives)
    {left right : Json} {leftVerdict rightVerdict : Verdict}
    (hleftCanonical : left.IsCanonical) (hrightCanonical : right.IsCanonical)
    (hleftReadable : left.Readable) (hrightReadable : right.Readable)
    (hfree : CollisionFree sha256
      (artifactInputs primitives left ++ artifactInputs primitives right))
    (hgenesis : ∀ input ∈ artifactInputs primitives left ++ artifactInputs primitives right,
      (sha256 input).text ≠ genesisHash)
    (hleft : verifyArtifact (primitives.hashing sha256) left = .ok leftVerdict)
    (hright : verifyArtifact (primitives.hashing sha256) right = .ok rightVerdict)
    (hrecovery : left.get "recovery_id" = right.get "recovery_id")
    (hhead : left.get "head_hash" = right.get "head_hash") :
    (itemsOf (left.get "events")).map (contentOf primitives) =
      (itemsOf (right.get "events")).map (contentOf primitives) := by
  obtain ⟨recoveryId, hleftAccepted⟩ := accepted_of_verifyArtifact hleft
  obtain ⟨otherId, hrightAccepted⟩ := accepted_of_verifyArtifact hright
  obtain rfl : recoveryId = otherId := by
    have hids := hrightAccepted.recovery
    rw [← hrecovery, hleftAccepted.recovery] at hids
    exact Option.some.inj hids
  have hheads : leftVerdict.headHash = rightVerdict.headHash := by
    have htexts := hrightAccepted.head
    rw [← hhead, hleftAccepted.head] at htexts
    exact Option.some.inj htexts
  rw [← hheads] at hrightAccepted
  obtain ⟨hleftGenesis, hrightGenesis⟩ := List.forall_mem_append.mp hgenesis
  have hlinks : (itemsOf (right.get "events")).map (linkOf primitives) =
      (itemsOf (left.get "events")).map (linkOf primitives) := by
    apply Linked.eq_of_hash_ne _ _ hleftAccepted.linked hrightAccepted.linked
    · exact binds_of_collisionFree hleftCanonical hrightCanonical hleftReadable hrightReadable
        hleftAccepted hrightAccepted hfree
    · rw [List.forall_mem_append]
      exact ⟨hash_ne_of_inputs hleftAccepted hleftGenesis,
        hash_ne_of_inputs hrightAccepted hrightGenesis⟩
  have hbodies := congrArg (List.map Link.body) hlinks
  rw [List.map_map, List.map_map] at hbodies
  exact hbodies.symm

/-! ## An artifact with one event -/

namespace Sample

def eventHash : String := "ce1a7e3cc843320eb3d87ef2c653eb34e567edf0008dbd88fec3a9703f1b445f"

def event : Json := .object [
  ("attempt_id", .text "attempt-1"),
  ("event_hash", .text eventHash),
  ("event_type", .text "claimed"),
  ("occurred_at", .text "2026-05-01T12:00:00+00:00"),
  ("payload", .object [("status", .text "ok")]),
  ("prev_hash", .text genesisHash),
  ("recovery_id", .text "recovery-1")]

/-- An artifact of one attempt, or of any attempts. -/
def artifact (attemptId : Json) : Json := .object [
  ("attempt_id", attemptId),
  ("events", .array [event]),
  ("head_hash", .text eventHash),
  ("recovery_id", .text "recovery-1"),
  ("schema_version", .text schemaVersion)]

def primitives : Primitives where
  textOf _ := "None"
  equal left right := left.text? = right.text?
  hashEvent _ _ _ _ _ _ := eventHash

/-- SHA-256 of the one event. -/
def sha256 (_ : Octets) : Digest := ⟨eventHash, by decide +kernel⟩

theorem artifactInputs_artifact (attemptId : Json) :
    artifactInputs primitives (artifact attemptId) =
      [canonical ((contentOf primitives event).body "recovery-1" genesisHash)] := rfl

theorem verifyArtifact_artifact :
    verifyArtifact (primitives.hashing sha256) (artifact (.text "attempt-1")) =
        .ok ⟨1, eventHash⟩ ∧
      verifyArtifact (primitives.hashing sha256) (artifact .null) = .ok ⟨1, eventHash⟩ :=
  ⟨eq_ok_of_toOption (by decide +kernel), eq_ok_of_toOption (by decide +kernel)⟩

theorem isCanonical_artifact {attemptId : Json} (hattempt : attemptId.IsCanonical) :
    (artifact attemptId).IsCanonical := by
  simpa [-String.lt_iff_ltb, artifact, event] using hattempt

theorem readable_artifact {attemptId : Json} (hattempt : attemptId.Readable) :
    (artifact attemptId).Readable := by
  simpa [artifact, event, Json.Readable, Json.ReadableFields, Json.ReadableItems] using hattempt

end Sample

open Sample in
theorem head_binds_events_attempts :
    (itemsOf ((artifact (.text "attempt-1")).get "events")).map (contentOf primitives) =
      (itemsOf ((artifact .null).get "events")).map (contentOf primitives) := by
  have hfree : CollisionFree sha256 (artifactInputs primitives (artifact (.text "attempt-1")) ++
      artifactInputs primitives (artifact .null)) := by
    rw [artifactInputs_artifact, artifactInputs_artifact]
    simp [CollisionFree]
  have hgenesis : ∀ input, (sha256 input).text ≠ genesisHash := fun _ => by
    show eventHash ≠ genesisHash
    decide
  exact head_binds_events sha256 primitives (isCanonical_artifact (.text _))
    (isCanonical_artifact .null) (readable_artifact trivial) (readable_artifact trivial) hfree
    (fun input _ => hgenesis input)
    verifyArtifact_artifact.1 verifyArtifact_artifact.2 rfl rfl

end AegisForge.Shared.RecoveryArtifact
