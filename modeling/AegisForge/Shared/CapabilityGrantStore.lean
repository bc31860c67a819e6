import AegisForge.Shared.Database

/-!
# The capability grant store

A grant is `ACTIVE`, `CONSUMED` or `REVOKED`.  Both ways out of `ACTIVE` are
guarded updates, so at most one of them ever writes the row of a grant.
-/

namespace AegisForge.Shared.CapabilityGrantStore

open AegisForge.Core AegisForge.Concurrency

def grantStoreError (message : String) : Raised := ⟨.capabilityGrantStoreError, message⟩

def register (signedGrant : SignedCapabilityGrant) : Action Bool := do
  let inserted ← send (.insertGrant signedGrant)
  if inserted then pure true
  else
    let status ← send (.selectGrantStatus signedGrant.grant.grantId)
    if status = some .active then pure false
    else .fail (grantStoreError "grant_already_finalized")

def ensureRegistered (signedGrant : SignedCapabilityGrant) : Action GrantStatus := do
  let row ← send (.selectGrantStatus signedGrant.grant.grantId)
  match row with
  | some status => pure status
  | none =>
      let _ ← register signedGrant
      pure .active

/-- `get_signed`, which verifies the embedded signed intent at the clock's time
whatever time the caller works at. -/
def getSigned (crypto : Crypto) (grantId : String) :
    Action (Option SignedCapabilityGrant) := do
  let row ← send (.selectGrantPayload grantId)
  match row with
  | none => pure none
  | some payload =>
      let current ← send .readClock
      match SignedCapabilityGrant.fromDict crypto payload current with
      | .ok signed => pure (some signed)
      | .error _ => .fail (grantStoreError "grant_payload_invalid")

def status (grantId : String) : Action (Option GrantStatus) :=
  send (.selectGrantStatus grantId)

def revoke (grantId : String) : Action Bool := do
  let written ← send (.revokeGrant grantId)
  if written then pure true
  else
    let current ← status grantId
    match current with
    | none => .fail (grantStoreError "grant_not_found")
    | some _ => .fail (grantStoreError "grant_not_active")

def consume (grantId : String) : Action Bool := do
  let written ← send (.consumeGrant grantId)
  if written then pure true
  else
    let current ← status grantId
    match current with
    | some .revoked => .fail (grantStoreError "grant_revoked")
    | some .consumed => .fail (grantStoreError "grant_replayed")
    | _ => .fail (grantStoreError "grant_not_found")

end AegisForge.Shared.CapabilityGrantStore
