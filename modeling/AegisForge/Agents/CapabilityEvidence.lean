import AegisForge.Shared.CapabilityGrant
import AegisForge.Shared.EvidenceLedger
import AegisForge.Shared.RequestedIntent

/-!
# The validator's grants

The validator reads the record of a task that was refused for want of evidence, asks
the policy what its intent requires, looks the supplied claims up in the ledger, and
signs a grant.  The ids in the grant are those of all supplied claims.
-/

namespace AegisForge.Agents.Validator

open AegisForge.Core AegisForge.Shared

/-! ## What is read and answered -/

/-- The payload of the validator's task. -/
structure CapabilityRequest where
  parentResult : Json
  parentTaskId : Json
  capabilityIntent : Json

/-- The contents of a grant.  Its times and random names and the hashes of what stands
here are left out. -/
structure IssuedGrant where
  taskId : String
  authority : AgentAuthority
  intent : RequestedIntent
  evidenceIds : List String
  authorizedScope : Json
  outcomeContract : Json
  signedActionIntent : String

structure SignedGrant where
  grant : IssuedGrant
  signature : String

/-- A signed intent, and whether its verification accepts it. -/
structure SignedRequest where
  payload : String
  isValid : Bool

/-- What the validator was given: the ledger, the registry of authorities, and the
signers of the agent and of grants. -/
structure Services where
  rendering : Rendering
  ledger : Option EvidenceLedger
  authority : Option (Json → Except Raised AgentAuthority)
  signIntent : String → RequestedIntent → Except Raised SignedRequest
  signGrant : IssuedGrant → Except Raised String

structure Checks where
  parentDecisionPresent : Bool
  parentRequestedEvidence : Bool
  structuredIntentPresent : Bool
  policyStillRequiresEvidence : Option Bool
  ledgerAvailable : Bool
  requiredEvidence : List String
  evidenceClaimsPresent : Bool
  evidenceLedgerBound : List (String × Bool)
  missingEvidence : List String
  evidenceSufficient : Bool

structure CapabilityReview where
  agentId : Json
  status : String
  parentTaskId : Json
  parentDecision : Json
  intent : Json
  checks : Checks
  policyResult : Option (CapabilityDecision × String)
  evidenceClaims : Json
  capabilityGrant : Option SignedGrant

/-! ## The record of the parent -/

/-- `Validator._capability_intent`. -/
def capabilityIntent : Json → Json
  | .object fields => .object fields
  | .text text =>
      if isBlank text = true then .object []
      else match Json.loads text.toList with
        | some (.object fields) => .object fields
        | _ => .object []
  | _ => .object []

/-- `parent_result.get(key, {})`, or `{}` for a parent result that is no dictionary. -/
def parentField (parent : Json) (key : String) : Json := (parent.get? key).getD (.object [])

def isText (value : Json) (text : String) : Bool := value.text? = some text

/-- The parent's task was refused for want of evidence. -/
def requestedEvidence (parent : Json) : Bool :=
  parent.isObject && isText (parent.get "error_type") "CapabilityEvidenceRequired" &&
    isText (parent.get "decision") "REQUIRE_EVIDENCE"

/-- `isinstance(parent_result.get("intent"), dict)`. -/
def hasIntent (parent : Json) : Bool := parent.isObject && (parent.get "intent").isObject

def fieldsOf : Json → List (String × Json)
  | .object fields => fields
  | _ => []

/-- The fields of the intent that the policy is asked about. -/
def policyFields (parent : Json) : List (String × Json) :=
  (fieldsOf (parentField parent "intent")).filter fun field =>
    field.1 ∈ RequestedIntent.fieldNames && field.1 ≠ "agent_id"

/-- What the policy says about the parent's intent. -/
structure PolicyReview where
  result : Option (CapabilityDecision × String)
  required : List String
  stillRequires : Bool

/-- The policy's review; exceptions end it. -/
def reviewPolicy (parent : Json) : PolicyReview :=
  if hasIntent parent = false then ⟨none, [], false⟩
  else match RequestedIntent.ofFields (policyFields parent) with
    | .error _ => ⟨none, [], false⟩
    | .ok intent =>
        match intent.check .default with
        | .error _ => ⟨none, [], false⟩
        | .ok result =>
            match intent.requiredEvidence with
            | .error _ => ⟨some result, [], false⟩
            | .ok required => ⟨some result, required, result.1 = .requireEvidence⟩

/-! ## Claims -/

def passedStatuses : List String := ["PASS", "PASSED", "VERIFIED"]

/-- What the ledger says about the atom of a claim. -/
def isRecorded (ledger : EvidenceLedger) (claimType : String) (source : Json)
    (evidenceId : String) : Except Raised Bool :=
  match ledger.evidenceQuality evidenceId with
  | none => .ok false
  | some quality =>
      if quality.state = "CONTESTED" ∨ quality.kind ≠ "capability_evidence" ∨
          isText source quality.latestRole = false then .ok false
      else match Json.loads (if quality.value = "" then "{}" else quality.value).toList with
        | none => .ok false
        | some recorded =>
            if recorded.isObject = false then
              .error ⟨.attributeError, "object has no attribute 'get'"⟩
            else if isText (recorded.get "claim_type") claimType = false then .ok false
            else isAmong (recorded.get "status") passedStatuses

/-- `claim_passes`. -/
def claimPasses (services : Services) (claimType : String) (claim : Json) :
    Except Raised Bool :=
  if claim.isObject = false then .ok false
  else do
    let accepted ← isAmong (claim.get "status") passedStatuses
    match (claim.get "evidence_id").text?.filter (· ≠ "") with
    | none => .ok false
    | some evidenceId =>
        if accepted = false ∨ (claim.get "source").isTruthy = false then .ok false
        else do
          let allowed ← RequestedIntent.evidenceSourceAllowed claimType (claim.get "source")
          match services.ledger with
          | none => .ok false
          | some ledger =>
              if allowed = false then .ok false
              else isRecorded ledger claimType (claim.get "source") evidenceId

/-- `evidence_claims.get(key)` and whether it passes. -/
def claimBound (services : Services) (claims : Json) (claimType : String) :
    Except Raised (String × Bool) :=
  if claims.isObject = false then .error ⟨.attributeError, "object has no attribute 'get'"⟩
  else do
    let passes ← claimPasses services claimType (claims.get claimType)
    return (claimType, passes)

/-- The ids that the supplied claims carry. -/
def evidenceIds (claims : Json) : List Json :=
  ((fieldsOf claims).filter fun field =>
    field.2.isObject && (field.2.get "evidence_id").isTruthy).map fun field =>
      field.2.get "evidence_id"

def checksOf (services : Services) (parent : Json) (bound : List (String × Bool)) : Checks :=
  let review := reviewPolicy parent
  let missing := (bound.filter fun entry => !entry.2).map Prod.fst
  {
    parentDecisionPresent := parent.isObject
    parentRequestedEvidence := requestedEvidence parent
    structuredIntentPresent := hasIntent parent
    policyStillRequiresEvidence := if hasIntent parent then some review.stillRequires else none
    ledgerAvailable := services.ledger.isSome
    requiredEvidence := review.required
    evidenceClaimsPresent := (parentField parent "evidence_claims").isObject
    evidenceLedgerBound := bound
    missingEvidence := missing
    evidenceSufficient := services.ledger.isSome && missing.isEmpty
  }

def Checks.isVerified (checks : Checks) : Bool :=
  checks.parentDecisionPresent && checks.parentRequestedEvidence &&
    checks.structuredIntentPresent && checks.policyStillRequiresEvidence.getD false &&
    checks.evidenceClaimsPresent && checks.evidenceSufficient

/-! ## Grants -/

/-- The two items of a list that a dictionary is made of. -/
def pair? : Json → Option (Json × Json)
  | .array [key, value] => some (key, value)
  | .text text =>
      match text.toList with
      | [key, value] => some (.text (String.ofList [key]), .text (String.ofList [value]))
      | _ => none
  | .object [(key, _), (value, _)] => some (.text key, .text value)
  | _ => none

/-- `dict(parameters or {}).get("outcome_contract", {})`. -/
def contractIn (parameters : Json) : Except Raised Json :=
  if parameters.isTruthy = false then .ok (.object [])
  else match parameters with
    | .object fields => .ok ((fields.lookup "outcome_contract").getD (.object []))
    | .array items => do
        let pairs ← items.mapM fun item =>
          orRaise (⟨.valueError, "dictionary update sequence"⟩ : Raised) (pair? item)
        raiseUnless (∀ pair ∈ pairs, pair.1.isHashable = true) unhashable
        return ((pairs.reverse.find? fun pair => isText pair.1 "outcome_contract").map
          Prod.snd).getD (.object [])
    | _ => .error ⟨.typeError, "object is not iterable"⟩

def contractValue : Json → ContractValue
  | .text value => .text value
  | .bool value => .flag value
  | .object fields => .object (String.ofList ((Json.object fields).encode true))
  | value => .other (String.ofList (value.encode true))

/-- `validate_outcome_contract` on a decoded value. -/
def validateContract (contract action : Json) : Except Raised Unit :=
  match contract with
  | .null => validateOutcomeContract [] action.text?
  | .object fields =>
      validateOutcomeContract (fields.map fun field => (field.1, contractValue field.2))
        action.text?
  | _ => .error (OutcomeContract.outcomeContractError "invalid_outcome_contract")

/-- The grant that is issued. -/
def issuedGrant (services : Services) (request : CapabilityRequest) (intent : RequestedIntent)
    (contract : Json) (authority : AgentAuthority) (signed : SignedRequest) : IssuedGrant where
  taskId := services.rendering.str request.parentTaskId
  authority := authority
  intent := intent
  evidenceIds :=
    sorted ((evidenceIds (parentField request.parentResult "evidence_claims")).map
      services.rendering.str)
  authorizedScope :=
    if intent.destination.isTruthy = true then intent.destination else intent.resource
  outcomeContract := contract
  signedActionIntent := signed.payload

/-- `issue_capability_grant` for the agent's authority and the intent that its agent has
signed.  `contract` stands in the parameters of the intent; `{}` is requested in place of
something that is no dictionary. -/
def issueGrant (services : Services) (request : CapabilityRequest) (intent : RequestedIntent)
    (contract : Json) (authority : AgentAuthority) (signed : SignedRequest) :
    Except Raised IssuedGrant := do
  raiseUnless (authority.agentId ≠ "") (capabilityGrantError "authority_agent_id_required")
  raiseUnless (0 < authority.authorityEpoch) (capabilityGrantError "authority_epoch_required")
  raiseUnless (signed.isValid = true) (capabilityGrantError "signed_action_intent_invalid")
  let effective ← intent.evaluateEffective authority.state
  raiseUnless (effective.1 ≠ .block) (capabilityGrantError ("authority_blocked:" ++ effective.2))
  let _ ← validateContract contract intent.action
  raiseUnless (contract.isObject = true) (capabilityGrantError "outcome_contract_mismatch")
  return issuedGrant services request intent contract authority signed

/-- The agents that the record and its intent name. -/
def namedAgents (parent : Json) : Json × Json :=
  (parent.get "agent_id", (parentField parent "intent").get "agent_id")

/-- `parent_agent_id or intent_agent_id`. -/
def agentOf (parent : Json) : Json :=
  if (namedAgents parent).1.isTruthy = true then (namedAgents parent).1 else (namedAgents parent).2

def agentsAgree (rendering : Rendering) (parent : Json) : Bool :=
  !((namedAgents parent).1.isTruthy && (namedAgents parent).2.isTruthy &&
    rendering.str (namedAgents parent).1 ≠ rendering.str (namedAgents parent).2)

/-- `structured_parent_intent["agent_id"] = str(agent_id)`. -/
def intentFields (rendering : Rendering) (parent : Json) : List (String × Json) :=
  ("agent_id", .text (rendering.str (agentOf parent))) ::
    (fieldsOf (parentField parent "intent")).filter fun field => field.1 ≠ "agent_id"

/-- The grant for a request that is verified. -/
def grantFor (services : Services) (request : CapabilityRequest) : Except Raised SignedGrant := do
  let parent := request.parentResult
  let authorityOf ← orRaise ⟨.runtimeError, "authority_registry_required"⟩ services.authority
  raiseUnless (agentsAgree services.rendering parent = true)
    ⟨.runtimeError, "agent_identity_mismatch"⟩
  raiseUnless ((agentOf parent).isTruthy = true) ⟨.runtimeError, "agent_identity_required"⟩
  let intent ← RequestedIntent.ofFields (intentFields services.rendering parent)
  let contract ← contractIn intent.parameters
  let authority ← authorityOf (agentOf parent)
  let signed ← services.signIntent (services.rendering.str (agentOf parent)) intent
  let grant ← issueGrant services request intent contract authority signed
  let signature ← services.signGrant grant
  return ⟨grant, signature⟩

/-- `Validator._verify_capability_request`. -/
def verifyCapabilityRequest (services : Services) (request : CapabilityRequest) :
    Except Raised CapabilityReview := do
  let parent := request.parentResult
  let claims := parentField parent "evidence_claims"
  let bound ← (reviewPolicy parent).required.mapM (claimBound services claims)
  let checks := checksOf services parent bound
  let review : CapabilityReview := {
    agentId := .null
    status := "INSUFFICIENT_EVIDENCE"
    parentTaskId := request.parentTaskId
    parentDecision := parent.get "decision"
    intent := capabilityIntent request.capabilityIntent
    checks := checks
    policyResult := (reviewPolicy parent).result
    evidenceClaims := claims
    capabilityGrant := none }
  if checks.isVerified = true then do
    let grant ← grantFor services request
    return { review with
      agentId := .text (services.rendering.str (agentOf parent))
      status := "VERIFIED"
      intent := .object (intentFields services.rendering parent)
      capabilityGrant := some grant }
  else return review

/-! ## When there is a grant -/

/-- The request is verified. -/
structure IsVerifiable (services : Services) (parent : Json) : Prop where
  requested : requestedEvidence parent = true
  intent : hasIntent parent = true
  policy : (reviewPolicy parent).stillRequires = true
  claims : (parentField parent "evidence_claims").isObject = true
  ledger : services.ledger.isSome = true
  passing : ∀ claimType ∈ (reviewPolicy parent).required,
    claimPasses services claimType ((parentField parent "evidence_claims").get claimType) = .ok true

/-- A grant is issued for the intent. -/
structure IsIssuable (intent : RequestedIntent) (contract : Json) (authority : AgentAuthority)
    (signed : SignedRequest) : Prop where
  agent : authority.agentId ≠ ""
  epoch : 0 < authority.authorityEpoch
  signed : signed.isValid = true
  allowed : ∃ effective, intent.evaluateEffective authority.state = .ok effective ∧
    effective.1 ≠ .block
  object : contract.isObject = true
  valid : validateContract contract intent.action = .ok ()

/-- What the agent of the request is found to be, and how it signs. -/
structure Issue where
  intent : RequestedIntent
  contract : Json
  authority : AgentAuthority
  signed : SignedRequest
  signature : String

def Issue.grant (issue : Issue) (services : Services) (request : CapabilityRequest) :
    SignedGrant where
  grant := issuedGrant services request issue.intent issue.contract issue.authority issue.signed
  signature := issue.signature

/-- Nothing raises on the way to a grant for the request. -/
structure Issue.Succeeds (services : Services) (request : CapabilityRequest) (issue : Issue) :
    Prop where
  agree : agentsAgree services.rendering request.parentResult = true
  named : (agentOf request.parentResult).isTruthy = true
  intent : RequestedIntent.ofFields (intentFields services.rendering request.parentResult) =
    .ok issue.intent
  contract : contractIn issue.intent.parameters = .ok issue.contract
  registered : ∃ authorityOf, services.authority = some authorityOf ∧
    authorityOf (agentOf request.parentResult) = .ok issue.authority
  signs : services.signIntent (services.rendering.str (agentOf request.parentResult)) issue.intent =
    .ok issue.signed
  issuable : IsIssuable issue.intent issue.contract issue.authority issue.signed
  signature : services.signGrant (issue.grant services request).grant = .ok issue.signature

section Grants

variable {services : Services} {request : CapabilityRequest}

theorem issueGrant_eq_ok_iff {intent : RequestedIntent} {contract : Json}
    {authority : AgentAuthority} {signed : SignedRequest} {grant : IssuedGrant} :
    issueGrant services request intent contract authority signed = .ok grant ↔
      IsIssuable intent contract authority signed ∧
        grant = issuedGrant services request intent contract authority signed := by
  constructor
  · intro hissued
    obtain ⟨hagent, hissued⟩ := raiseUnless_bind_eq_ok hissued
    obtain ⟨hepoch, hissued⟩ := raiseUnless_bind_eq_ok hissued
    obtain ⟨hsigned, hissued⟩ := raiseUnless_bind_eq_ok hissued
    obtain ⟨effective, heffective, hissued⟩ := bind_eq_ok hissued
    obtain ⟨hallowed, hissued⟩ := raiseUnless_bind_eq_ok hissued
    obtain ⟨_, hvalid, hissued⟩ := bind_eq_ok hissued
    obtain ⟨hobject, hissued⟩ := raiseUnless_bind_eq_ok hissued
    exact ⟨⟨hagent, hepoch, hsigned, ⟨effective, heffective, hallowed⟩, hobject, hvalid⟩,
      (Except.ok.inj hissued).symm⟩
  · rintro ⟨⟨hagent, hepoch, hsigned, ⟨effective, heffective, hallowed⟩, hobject, hvalid⟩, rfl⟩
    rw [issueGrant, raiseUnless_bind_eq_ok_iff]
    refine ⟨hagent, ?_⟩
    rw [raiseUnless_bind_eq_ok_iff]
    refine ⟨hepoch, ?_⟩
    rw [raiseUnless_bind_eq_ok_iff]
    refine ⟨hsigned, ?_⟩
    rw [bind_eq_ok_iff]
    refine ⟨effective, heffective, ?_⟩
    rw [raiseUnless_bind_eq_ok_iff]
    refine ⟨hallowed, ?_⟩
    rw [bind_eq_ok_iff]
    refine ⟨(), hvalid, ?_⟩
    rw [raiseUnless_bind_eq_ok_iff]
    exact ⟨hobject, rfl⟩

theorem grantFor_eq_ok_iff {grant : SignedGrant} :
    grantFor services request = .ok grant ↔
      ∃ issue : Issue, issue.Succeeds services request ∧ grant = issue.grant services request := by
  constructor
  · intro hgrant
    obtain ⟨authorityOf, hregistry, hgrant⟩ := orRaise_bind_eq_ok hgrant
    obtain ⟨hagree, hgrant⟩ := raiseUnless_bind_eq_ok hgrant
    obtain ⟨hnamed, hgrant⟩ := raiseUnless_bind_eq_ok hgrant
    obtain ⟨intent, hintent, hgrant⟩ := bind_eq_ok hgrant
    obtain ⟨contract, hcontract, hgrant⟩ := bind_eq_ok hgrant
    obtain ⟨authority, hauthority, hgrant⟩ := bind_eq_ok hgrant
    obtain ⟨signed, hsigned, hgrant⟩ := bind_eq_ok hgrant
    obtain ⟨issued, hissued, hgrant⟩ := bind_eq_ok hgrant
    obtain ⟨signature, hsignature, hgrant⟩ := bind_eq_ok hgrant
    obtain ⟨hissuable, rfl⟩ := issueGrant_eq_ok_iff.mp hissued
    refine ⟨⟨intent, contract, authority, signed, signature⟩, ?_, (Except.ok.inj hgrant).symm⟩
    exact ⟨hagree, hnamed, hintent, hcontract, ⟨authorityOf, hregistry, hauthority⟩, hsigned,
      hissuable, hsignature⟩
  · rintro ⟨issue, ⟨hagree, hnamed, hintent, hcontract, ⟨authorityOf, hregistry, hauthority⟩, hsigned,
      hissuable, hsignature⟩, rfl⟩
    rw [grantFor, orRaise_bind_eq_ok_iff]
    refine ⟨authorityOf, hregistry, ?_⟩
    rw [raiseUnless_bind_eq_ok_iff]
    refine ⟨hagree, ?_⟩
    rw [raiseUnless_bind_eq_ok_iff]
    refine ⟨hnamed, ?_⟩
    rw [bind_eq_ok_iff]
    refine ⟨issue.intent, hintent, ?_⟩
    rw [bind_eq_ok_iff]
    refine ⟨issue.contract, hcontract, ?_⟩
    rw [bind_eq_ok_iff]
    refine ⟨issue.authority, hauthority, ?_⟩
    rw [bind_eq_ok_iff]
    refine ⟨issue.signed, hsigned, ?_⟩
    rw [bind_eq_ok_iff]
    refine ⟨_, issueGrant_eq_ok_iff.mpr ⟨hissuable, rfl⟩, ?_⟩
    rw [bind_eq_ok_iff]
    exact ⟨issue.signature, hsignature, rfl⟩

end Grants

/-! ## Verified requests -/

section Verified

variable {services : Services} {claims : Json}

theorem claimBound_eq_ok_iff {claimType : String} {entry : String × Bool} :
    claimBound services claims claimType = .ok entry ↔
      claims.isObject = true ∧ entry.1 = claimType ∧
        claimPasses services claimType (claims.get claimType) = .ok entry.2 := by
  rw [claimBound]
  cases hobject : claims.isObject with
  | false => simp
  | true =>
      simp only [Bool.true_eq_false, if_false, bind_eq_ok_iff, true_and]
      constructor
      · rintro ⟨passes, hpasses, hentry⟩
        rw [← Except.ok.inj hentry]
        exact ⟨rfl, hpasses⟩
      · rintro ⟨rfl, hpasses⟩
        exact ⟨entry.2, hpasses, rfl⟩

/-- What was looked up for each required type. -/
theorem mapM_claimBound {required : List String} {bound : List (String × Bool)}
    (hbound : required.mapM (claimBound services claims) = .ok bound) :
    bound.map Prod.fst = required ∧
      ∀ entry ∈ bound, claims.isObject = true ∧
        claimPasses services entry.1 (claims.get entry.1) = .ok entry.2 := by
  induction required generalizing bound with
  | nil =>
      rw [List.mapM_nil] at hbound
      rw [← Except.ok.inj hbound]
      exact ⟨rfl, fun entry hentry => absurd hentry List.not_mem_nil⟩
  | cons claimType rest ih =>
      simp only [List.mapM_cons, bind_eq_ok_iff] at hbound
      obtain ⟨entry, hentry, entries, hentries, heq⟩ := hbound
      obtain ⟨hobject, hname, hpasses⟩ := claimBound_eq_ok_iff.mp hentry
      obtain ⟨hnames, hall⟩ := ih hentries
      rw [← Except.ok.inj heq]
      refine ⟨by rw [List.map_cons, hname, hnames], ?_⟩
      rintro other (_ | ⟨_, hother⟩)
      · exact ⟨hobject, hname ▸ hpasses⟩
      · exact hall other hother

theorem mapM_claimBound_of_passing {required : List String} (hobject : claims.isObject = true)
    (hpassing : ∀ claimType ∈ required,
      claimPasses services claimType (claims.get claimType) = .ok true) :
    required.mapM (claimBound services claims) = .ok (required.map fun name => (name, true)) := by
  induction required with
  | nil => rfl
  | cons claimType rest ih =>
      have hentry : claimBound services claims claimType = .ok (claimType, true) :=
        claimBound_eq_ok_iff.mpr ⟨hobject, rfl, hpassing claimType List.mem_cons_self⟩
      have hrest := ih fun name hname => hpassing name (List.mem_cons_of_mem _ hname)
      rw [List.mapM_cons, hentry, hrest]
      rfl

theorem isVerified_checksOf_iff {parent : Json} {bound : List (String × Bool)}
    (hbound : (reviewPolicy parent).required.mapM
      (claimBound services (parentField parent "evidence_claims")) = .ok bound) :
    (checksOf services parent bound).isVerified = true ↔ IsVerifiable services parent := by
  obtain ⟨hnames, hall⟩ := mapM_claimBound hbound
  have hmissing : ((bound.filter fun entry => !entry.2).map Prod.fst).isEmpty = true ↔
      ∀ entry ∈ bound, entry.2 = true := by
    simp
  simp only [Checks.isVerified, checksOf, Bool.and_eq_true, hmissing]
  constructor
  · rintro ⟨⟨⟨⟨⟨_, hrequested⟩, hintent⟩, hpolicy⟩, hclaims⟩, hledger, hpassed⟩
    rw [if_pos hintent] at hpolicy
    refine ⟨hrequested, hintent, hpolicy, hclaims, hledger, fun claimType hrequired => ?_⟩
    rw [← hnames] at hrequired
    obtain ⟨entry, hentry, rfl⟩ := List.mem_map.mp hrequired
    rw [(hall entry hentry).2, hpassed entry hentry]
  · rintro ⟨hrequested, hintent, hpolicy, hclaims, hledger, hpassing⟩
    have hparent : parent.isObject = true := by
      simp only [hasIntent, Bool.and_eq_true] at hintent
      exact hintent.1
    refine ⟨⟨⟨⟨⟨hparent, hrequested⟩, hintent⟩, by rwa [if_pos hintent]⟩, hclaims⟩, hledger, ?_⟩
    intro entry hentry
    have hrequired : entry.1 ∈ (reviewPolicy parent).required :=
      hnames ▸ List.mem_map_of_mem hentry
    exact Except.ok.inj ((hall entry hentry).2.symm.trans (hpassing entry.1 hrequired))

end Verified

/-- The call returns a grant if and only if the request is verified and its agent's
grant is issued and signed. -/
theorem verifyCapabilityRequest_grants_iff {services : Services} {request : CapabilityRequest}
    {signed : SignedGrant} :
    (∃ review, verifyCapabilityRequest services request = .ok review ∧
        review.capabilityGrant = some signed) ↔
      IsVerifiable services request.parentResult ∧ grantFor services request = .ok signed := by
  constructor
  · rintro ⟨review, hreview, hgrant⟩
    simp only [verifyCapabilityRequest, bind_eq_ok_iff] at hreview
    obtain ⟨bound, hbound, hreview⟩ := hreview
    split at hreview
    case isTrue hverified =>
      obtain ⟨grant, hissued, hreview⟩ := bind_eq_ok hreview
      refine ⟨(isVerified_checksOf_iff hbound).mp hverified, ?_⟩
      rw [← Except.ok.inj hreview] at hgrant
      rw [hissued, Option.some.inj hgrant]
    case isFalse =>
      rw [← Except.ok.inj hreview] at hgrant
      cases hgrant
  · rintro ⟨hverifiable, hissued⟩
    have hbound := mapM_claimBound_of_passing hverifiable.claims hverifiable.passing
    have hverified := (isVerified_checksOf_iff hbound).mpr hverifiable
    rw [verifyCapabilityRequest]
    simp only [hbound, bind, Except.bind]
    rw [if_pos hverified, hissued]
    exact ⟨_, rfl, rfl⟩

/-! ## Gated grants -/

/-- Evidence was required, each required type has a claim that passes, and the grant has the
ids of these claims. -/
structure IsGated (services : Services) (parent : Json) (grant : IssuedGrant) : Prop where
  required : (reviewPolicy parent).required ≠ []
  passing : ∀ claimType ∈ (reviewPolicy parent).required,
    claimPasses services claimType ((parentField parent "evidence_claims").get claimType) = .ok true
  evidenceIds : ∀ evidenceId, evidenceId ∈ grant.evidenceIds ↔
    ∃ claimType ∈ (reviewPolicy parent).required,
      ((parentField parent "evidence_claims").get claimType).get "evidence_id" = .text evidenceId

def GrantsAreGated (services : Services) (request : CapabilityRequest) : Prop :=
  ∀ review signed, verifyCapabilityRequest services request = .ok review →
    review.capabilityGrant = some signed → IsGated services request.parentResult signed.grant

/-- Every id that is supplied is that of the claim of a required type. -/
def SuppliesOnlyRequired (services : Services) (parent : Json) : Prop :=
  ∀ supplied ∈ evidenceIds (parentField parent "evidence_claims"),
    ∃ claimType ∈ (reviewPolicy parent).required,
      ((parentField parent "evidence_claims").get claimType).get "evidence_id" =
        .text (services.rendering.str supplied)

section Gated

variable {services : Services} {claims : Json} {claimType : String}

/-- A claim that passes carries an id. -/
theorem evidenceId_of_claimPasses {claim : Json}
    (hpasses : claimPasses services claimType claim = .ok true) :
    claim.isObject = true ∧ ∃ evidenceId, evidenceId ≠ "" ∧
      claim.get "evidence_id" = .text evidenceId := by
  rw [claimPasses] at hpasses
  split at hpasses
  case isTrue => cases hpasses
  case isFalse hobject =>
    obtain ⟨accepted, -, hpasses⟩ := bind_eq_ok hpasses
    split at hpasses
    case h_1 => cases hpasses
    case h_2 evidenceId hfilled =>
      obtain ⟨htext, hne⟩ := Option.filter_eq_some_iff.mp hfilled
      exact ⟨by simpa using hobject, evidenceId, by simpa using hne, Json.text?_eq_some_iff.mp htext⟩

/-- A claim of a type stands among all claims. -/
theorem get_mem_fieldsOf (hobject : (claims.get claimType).isObject = true) :
    (claimType, claims.get claimType) ∈ fieldsOf claims := by
  cases claims with
  | object fields =>
      cases hlookup : fields.lookup claimType with
      | none =>
          rw [Json.get, Json.get?, hlookup] at hobject
          cases hobject
      | some claim =>
          obtain ⟨before, after, hfields, -⟩ := List.lookup_eq_some_iff.mp hlookup
          rw [Json.get, Json.get?, hlookup, Option.getD_some, fieldsOf, hfields]
          exact List.mem_append_right before List.mem_cons_self
  | _ => cases hobject

theorem mem_evidenceIds_of_claimPasses
    (hpasses : claimPasses services claimType (claims.get claimType) = .ok true) :
    (claims.get claimType).get "evidence_id" ∈ evidenceIds claims := by
  obtain ⟨hobject, evidenceId, hne, hid⟩ := evidenceId_of_claimPasses hpasses
  refine List.mem_map.mpr ⟨(claimType, claims.get claimType), ?_, rfl⟩
  refine List.mem_filter.mpr ⟨get_mem_fieldsOf hobject, ?_⟩
  simp [hobject, hid, Json.isTruthy, hne]

end Gated

/-- Grants are gated for a request if and only if there is none for it, or some type of
evidence is required and every supplied id is that of a claim of a required type. -/
theorem grantsAreGated_iff (services : Services) (request : CapabilityRequest) :
    GrantsAreGated services request ↔
      (IsVerifiable services request.parentResult →
        (∃ issue : Issue, issue.Succeeds services request) →
          (reviewPolicy request.parentResult).required ≠ [] ∧
            SuppliesOnlyRequired services request.parentResult) := by
  constructor
  · rintro hgated hverifiable ⟨issue, hsucceeds⟩
    obtain ⟨review, hreview, hgrant⟩ := verifyCapabilityRequest_grants_iff.mpr
      ⟨hverifiable, grantFor_eq_ok_iff.mpr ⟨issue, hsucceeds, rfl⟩⟩
    have hissued := hgated review _ hreview hgrant
    refine ⟨hissued.required, fun supplied hsupplied => ?_⟩
    exact (hissued.evidenceIds _).mp (mem_sorted.mpr (List.mem_map_of_mem hsupplied))
  · intro hcondition review signed hreview hgrant
    obtain ⟨hverifiable, hissued⟩ := verifyCapabilityRequest_grants_iff.mp ⟨review, hreview, hgrant⟩
    obtain ⟨issue, hsucceeds, rfl⟩ := grantFor_eq_ok_iff.mp hissued
    obtain ⟨hrequired, honly⟩ := hcondition hverifiable ⟨issue, hsucceeds⟩
    refine ⟨hrequired, hverifiable.passing, fun evidenceId => ?_⟩
    rw [Issue.grant, issuedGrant, mem_sorted, List.mem_map]
    constructor
    · rintro ⟨supplied, hsupplied, rfl⟩
      exact honly supplied hsupplied
    · rintro ⟨claimType, hclaim, hid⟩
      have hmem := mem_evidenceIds_of_claimPasses (hverifiable.passing claimType hclaim)
      exact ⟨_, hmem, by rw [hid, Rendering.str]⟩

/-! ## A grant without evidence -/

def Sample.services : Services where
  rendering := ⟨fun value => String.ofList (value.encode true), id⟩
  ledger := some .empty
  authority := some fun _ =>
    .ok ⟨"researcher-1", CapabilityPolicy.version, .standard, 3, 0, "proof-3", 1⟩
  signIntent := fun agentId _ => .ok ⟨agentId, true⟩
  signGrant := fun grant => .ok grant.taskId

/-- A researcher wants to do research that is not read-only. -/
def Sample.request : CapabilityRequest where
  parentResult := .object [
    ("error", .text "capability_evidence_required"),
    ("error_type", .text "CapabilityEvidenceRequired"),
    ("decision", .text "REQUIRE_EVIDENCE"),
    ("intent", .object [("role", .text "researcher"), ("action", .text "research"),
      ("agent_id", .text "researcher-1"), ("destination", .text "public_web"),
      ("read_only", .bool false)])]
  parentTaskId := .text "task-1"
  capabilityIntent := .object [("action", .text "verify"),
    ("resource", .text "authorization_prerequisites")]

theorem not_grantsAreGated_research :
    ¬∀ services request, GrantsAreGated services request := by
  intro hall
  have hsome : ((verifyCapabilityRequest Sample.services Sample.request).toOption.bind
      CapabilityReview.capabilityGrant).isSome = true := by decide +kernel
  obtain ⟨signed, hsigned⟩ := Option.isSome_iff_exists.mp hsome
  obtain ⟨review, hreview, hgrant⟩ := Option.bind_eq_some_iff.mp hsigned
  have hgated := hall _ _ review signed (eq_ok_of_toOption hreview) hgrant
  exact hgated.required (by decide +kernel)

end AegisForge.Agents.Validator
