import AegisForge.Shared.RecoveryTrustSystem

/-!
# Verification of trust histories

`verify_trust_history_artifact` accepts the artifacts whose history is an
intact chain of hashes.  It does not compare the statuses of one event with the
next: an artifact is a lifecycle because a registry wrote it, so only the
histories of a store are lifecycles.
-/

namespace AegisForge.Shared.TrustHistoryVerification

open AegisForge.Core RecoveryTrust
open AttestorRegistry (itemsOf)

/-- The dictionary is an event with the body, the previous hash and the hash of
the link. -/
structure IsEvent (event : Json) (link : Link EventBody String) : Prop where
  object : event.isObject = true
  fields : ∀ field ∈ eventFields, field ∈ event.keys
  body : bodyOf event = link.body
  previous : event.get "prev_hash" = .text link.previous
  hash : event.get "event_hash" = .text link.hash

/-- An artifact with an intact history, and what its verification answers. -/
structure Intact (primitives : Primitives) (artifact : Json)
    (result : VerifiedTrustHistory) : Prop where
  object : artifact.isObject = true
  fields : ∀ field ∈ artifactFields, field ∈ artifact.keys
  schema : artifact.get "schema_version" = .text schemaVersion
  keyId : artifact.get "key_id" = .text result.keyId ∧ result.keyId ≠ ""
  publicKey : ∃ publicKey, artifact.get "public_key" = .text publicKey ∧
    checkKey primitives result.keyId publicKey = .ok ⟨⟩
  name : ∃ name, artifact.get "name" = .text name ∧ isBlank name = false
  /-- The history leads from the genesis hash to the head hash. -/
  history : ∃ links, List.Forall₂ IsEvent (itemsOf (artifact.get "history")) links ∧
    Linked (primitives.historyEventHash result.keyId) genesisHash links result.headHash
  head : artifact.get "head_hash" = .text result.headHash
  /-- The last event leads to the status. -/
  status : ∃ status : RecoveryAttestorStatus, artifact.get "status" = .text status.value ∧
    ∃ last, (itemsOf (artifact.get "history")).getLast? = some last ∧
      last.get "to_status" = .text status.value
  events : result.events = (itemsOf (artifact.get "history")).length

/-- The first event starts from nothing, each later one where the event before
it led, and each step is an allowed transition. -/
def IsLifecycle (history : List Json) : Prop :=
  ∃ changes, Lifecycle none changes ∧
    List.Forall₂ (fun event change => event.get "from_status" = change.body.fromStatus ∧
      event.get "to_status" = change.body.toStatus) history changes

variable {primitives : Primitives}

theorem verifyArtifactEvents_eq_ok_iff {keyId previous head : String} {events : List Json} :
    verifyArtifactEvents primitives keyId previous events = .ok head ↔
      ∃ links, List.Forall₂ IsEvent events links ∧
        Linked (primitives.historyEventHash keyId) previous links head := by
  induction events generalizing previous with
  | nil => simp [verifyArtifactEvents, Linked, eq_comm]
  | cons event rest ih =>
      rw [verifyArtifactEvents, check_bind_eq_ok_iff, checkFields_bind_eq_ok_iff,
        check_bind_eq_ok_iff, check_bind_eq_ok_iff, ih, Json.text?_eq_some_iff,
        Json.text?_eq_some_iff]
      constructor
      · rintro ⟨hobject, hfields, hprevious, hhash, links, hevents, hlinked⟩
        exact ⟨⟨bodyOf event, previous, _⟩ :: links,
          .cons ⟨hobject, hfields, rfl, hprevious, hhash⟩ hevents, rfl, rfl, hlinked⟩
      · rintro ⟨links, hevents, hlinked⟩
        cases hevents with
        | @cons _ link _ links hevent hevents =>
            obtain ⟨hprevious, hhash, hrest⟩ := hlinked
            have hexpected : primitives.historyEventHash keyId (bodyOf event) previous =
                link.hash := by
              rw [hevent.body, hhash]
            rw [hexpected]
            exact ⟨hevent.object, hevent.fields, hprevious ▸ hevent.previous, hevent.hash,
              links, hevents, hrest⟩

theorem intact_of_verify_eq_ok {artifact : Json} {result : VerifiedTrustHistory}
    (hverified : verifyTrustHistoryArtifact primitives artifact = .ok result) :
    Intact primitives artifact result := by
  obtain ⟨hobject, hchecked⟩ := check_bind_eq_ok hverified
  obtain ⟨hfields, hversioned⟩ := checkFields_bind_eq_ok_iff.mp hchecked
  obtain ⟨hschema, hkeyed⟩ := check_bind_eq_ok hversioned
  obtain ⟨keyId, hkeyId, hpublic⟩ := orRaise_bind_eq_ok hkeyed
  obtain ⟨publicKey, hpublicKey, hmatching⟩ := orRaise_bind_eq_ok hpublic
  obtain ⟨_, hkey, hnamed⟩ := bind_eq_ok hmatching
  obtain ⟨hname, hhashed⟩ := check_bind_eq_ok hnamed
  obtain ⟨-, hlisted⟩ := raiseUnless_bind_eq_ok hhashed
  obtain ⟨status, hstatus, hnonempty⟩ := orRaise_bind_eq_ok hlisted
  obtain ⟨hhistory, hchained⟩ := check_bind_eq_ok hnonempty
  obtain ⟨headHash, hevents, hheaded⟩ := bind_eq_ok hchained
  obtain ⟨hhead, hlasted⟩ := check_bind_eq_ok hheaded
  obtain ⟨hlast, hanswer⟩ := check_bind_eq_ok hlasted
  obtain rfl := Except.ok.inj hanswer
  obtain ⟨htext, hfilled⟩ := Option.filter_eq_some_iff.mp hkeyId
  obtain ⟨name, hname⟩ := Option.isSome_iff_exists.mp hname
  obtain ⟨text, hstatusText, hnames⟩ := Option.bind_eq_some_iff.mp hstatus
  obtain ⟨last, hlastEvent, hlastStatus⟩ := Option.bind_eq_some_iff.mp hlast
  obtain rfl := RecoveryAttestorStatus.ofText_eq_some_iff.mp hnames
  exact {
    object := hobject
    fields := hfields
    schema := Json.text?_eq_some_iff.mp hschema
    keyId := ⟨Json.text?_eq_some_iff.mp htext, by simpa using hfilled⟩
    publicKey := ⟨publicKey, Json.text?_eq_some_iff.mp hpublicKey, hkey⟩
    name := ⟨name, Json.text_of_filledText? hname⟩
    history := verifyArtifactEvents_eq_ok_iff.mp hevents
    head := Json.text?_eq_some_iff.mp hhead
    status := ⟨status, Json.text?_eq_some_iff.mp hstatusText, last, hlastEvent,
      Json.text?_eq_some_iff.mp hlastStatus⟩
    events := rfl }

theorem verify_eq_ok_of_intact {artifact : Json} {result : VerifiedTrustHistory}
    (hintact : Intact primitives artifact result) :
    verifyTrustHistoryArtifact primitives artifact = .ok result := by
  obtain ⟨publicKey, hpublicKey, hkey⟩ := hintact.publicKey
  obtain ⟨name, hname, hblank⟩ := hintact.name
  obtain ⟨status, hstatus, last, hlast, hlastStatus⟩ := hintact.status
  have hevents := verifyArtifactEvents_eq_ok_iff.mpr hintact.history
  have hhistory : itemsOf (artifact.get "history") ≠ [] := by
    intro hnil
    rw [hnil] at hlast
    cases hlast
  rw [verifyTrustHistoryArtifact, check_bind_eq_ok_iff]
  refine ⟨hintact.object, ?_⟩
  rw [checkFields_bind_eq_ok_iff]
  refine ⟨hintact.fields, ?_⟩
  rw [check_bind_eq_ok_iff, hintact.schema]
  refine ⟨rfl, ?_⟩
  rw [orRaise_bind_eq_ok_iff, hintact.keyId.1]
  refine ⟨result.keyId, by simpa [Json.text?] using hintact.keyId.2, ?_⟩
  rw [orRaise_bind_eq_ok_iff, hpublicKey]
  refine ⟨publicKey, rfl, ?_⟩
  rw [bind_eq_ok_iff]
  refine ⟨⟨⟩, hkey, ?_⟩
  rw [check_bind_eq_ok_iff, hname]
  refine ⟨by simp [Json.filledText?, Json.text?, hblank], ?_⟩
  rw [raiseUnless_bind_eq_ok_iff, hstatus]
  refine ⟨rfl, ?_⟩
  rw [orRaise_bind_eq_ok_iff]
  refine ⟨status, RecoveryAttestorStatus.ofText_eq_some_iff.mpr rfl, ?_⟩
  rw [check_bind_eq_ok_iff]
  refine ⟨hhistory, ?_⟩
  rw [bind_eq_ok_iff]
  refine ⟨result.headHash, hevents, ?_⟩
  rw [check_bind_eq_ok_iff, hintact.head]
  refine ⟨rfl, ?_⟩
  rw [check_bind_eq_ok_iff, hlast, Option.bind_some, hlastStatus]
  refine ⟨rfl, ?_⟩
  rw [← hintact.events]
  rfl

/-- Exactly the intact artifacts are accepted. -/
theorem verify_eq_ok_iff {artifact : Json} {result : VerifiedTrustHistory} :
    verifyTrustHistoryArtifact primitives artifact = .ok result ↔
      Intact primitives artifact result :=
  ⟨intact_of_verify_eq_ok, verify_eq_ok_of_intact⟩

/-! ## Artifacts of well-kept histories -/

/-- The link of an event, with the body that is hashed. -/
def linkOf (event : TrustEvent) : Link EventBody String :=
  ⟨event.body.body, event.previous, event.hash⟩

theorem isEvent_eventJson (event : TrustEvent) : IsEvent (eventJson event) (linkOf event) where
  object := rfl
  fields := fun _ hfield => hfield
  body := rfl
  previous := rfl
  hash := rfl

theorem isEvent_eventJson_map (history : List TrustEvent) :
    List.Forall₂ IsEvent (history.map eventJson) (history.map linkOf) := by
  induction history with
  | nil => exact .nil
  | cons event rest ih => exact .cons (isEvent_eventJson event) ih

theorem linked_linkOf_iff {keyId start head : String} {history : List TrustEvent} :
    Linked (primitives.historyEventHash keyId) start (history.map linkOf) head ↔
      Linked (changeHash primitives keyId) start history head :=
  Linked.map_iff fun _ _ => rfl

theorem keyId_ne_empty {keyId publicKey : String}
    (hkey : checkKey primitives keyId publicKey = .ok ⟨⟩) : keyId ≠ "" := by
  obtain ⟨raw, -, hlength⟩ := orRaise_bind_eq_ok hkey
  obtain ⟨-, hmatches⟩ := check_bind_eq_ok hlength
  have hkeyId : keyId = keyIdOf primitives raw := raiseUnless_eq_ok hmatches
  rintro rfl
  have hlist := congrArg String.toList hkeyId
  simp [keyIdOf] at hlist

/-- The artifact of a chained history that leads to the status is accepted. -/
theorem intact_trustHistoryArtifact {attestor : RecoveryAttestor}
    {status : RecoveryAttestorStatus} {history : List TrustEvent}
    (hvalid : ValidAttestor primitives attestor)
    (hlinked : Linked (changeHash primitives attestor.keyId) genesisHash history
      (lastHash history))
    (hstatus : (history.getLast?.map fun event => event.body.toStatus) = some status) :
    Intact primitives (trustHistoryArtifact attestor status history)
      ⟨attestor.keyId, lastHash history, history.length⟩ := by
  obtain ⟨last, hlast, hleads⟩ := Option.map_eq_some_iff.mp hstatus
  have hevents : itemsOf ((trustHistoryArtifact attestor status history).get "history") =
      history.map eventJson := rfl
  exact {
    object := rfl
    fields := fun _ hfield => hfield
    schema := rfl
    keyId := ⟨rfl, keyId_ne_empty hvalid.key⟩
    publicKey := ⟨attestor.publicKey, rfl, hvalid.key⟩
    name := ⟨attestor.name, rfl, hvalid.name⟩
    history := ⟨history.map linkOf, isEvent_eventJson_map history,
      linked_linkOf_iff.mpr hlinked⟩
    head := rfl
    status := by
      refine ⟨status, rfl, eventJson last, ?_, ?_⟩
      · rw [hevents, List.getLast?_map, hlast, Option.map_some]
      · rw [← hleads]
        rfl
    events := by rw [hevents, List.length_map] }

/-! ## Lifecycles -/

/-- Nothing but the events themselves answers the hashes of the history, and
nothing answers the genesis hash. -/
structure NoSecondPreimage (primitives : Primitives) (keyId : String)
    (history : List TrustEvent) : Prop where
  events : ∀ event ∈ history, ∀ body previous,
    primitives.historyEventHash keyId body previous = event.hash →
      body = event.body.body ∧ previous = event.previous
  genesis : ∀ body previous, primitives.historyEventHash keyId body previous ≠ genesisHash

theorem isLifecycle_of_links {events : List Json} {history : List TrustEvent}
    (hevents : List.Forall₂ IsEvent events (history.map linkOf))
    (hlifecycle : Lifecycle none (history.map Link.body)) : IsLifecycle events := by
  refine ⟨history.map Link.body, hlifecycle, ?_⟩
  rw [List.forall₂_map_right_iff] at hevents ⊢
  refine hevents.imp fun event recorded hevent => ?_
  have hbody : bodyOf event = recorded.body.body := hevent.body
  exact ⟨congrArg EventBody.fromStatus hbody, congrArg EventBody.toStatus hbody⟩

/-- Null and text, the values of a recorded event. -/
def plain? : Json → Option (Option String)
  | .null => some none
  | .text text => some (some text)
  | _ => none

theorem eq_of_plain? {value : Json} {text : Option String} (hplain : plain? value = some text) :
    value = (text.map Json.text).getD .null := by
  cases value with
  | null =>
      obtain rfl := Option.some.inj hplain
      rfl
  | text value =>
      obtain rfl := Option.some.inj hplain
      rfl
  | bool _ => cases hplain
  | int _ => cases hplain
  | float _ => cases hplain
  | array _ => cases hplain
  | object _ => cases hplain

def registration : StatusChange := ⟨none, .active, "2026-01-01", "registered"⟩

/-- A digest that only the registration of the sample attestor answers. -/
def registrationPrimitives : Primitives :=
  { Sample.primitives with
    historyEventHash := fun _ body previous =>
      if plain? body.fromStatus = some none ∧ plain? body.toStatus = some (some "ACTIVE") ∧
          plain? body.occurredAt = some (some "2026-01-01") ∧
            plain? body.reason = some (some "registered") ∧ previous = genesisHash then
        "registration_hash"
      else "other_hash" }

def registrationEvent : TrustEvent := ⟨registration, genesisHash, "registration_hash"⟩

theorem noSecondPreimage_registration :
    NoSecondPreimage registrationPrimitives Sample.keyId [registrationEvent] := by
  constructor
  · intro event hevent body previous hhash
    obtain rfl := List.mem_singleton.mp hevent
    simp only [registrationPrimitives] at hhash
    split at hhash
    case isTrue hplain =>
      obtain ⟨hfrom, hto, hoccurred, hreason, rfl⟩ := hplain
      cases body
      simp only [StatusChange.body, registrationEvent, registration, EventBody.mk.injEq]
      exact ⟨⟨eq_of_plain? hfrom, eq_of_plain? hto, eq_of_plain? hoccurred,
        eq_of_plain? hreason⟩, trivial⟩
    case isFalse => exact absurd hhash (by decide)
  · intro body previous
    simp only [registrationPrimitives]
    split <;> decide

/-- A history that reactivates a revoked attestor. -/
def reactivatedHistory : List TrustEvent :=
  let first := chained Sample.primitives Sample.keyId registration genesisHash
  let second := chained Sample.primitives Sample.keyId
    ⟨some .active, .revoked, "2026-01-02", "key compromise"⟩ first.hash
  let third := chained Sample.primitives Sample.keyId
    ⟨some .revoked, .active, "2026-01-03", "restored"⟩ second.hash
  [first, second, third]

end AegisForge.Shared.TrustHistoryVerification
