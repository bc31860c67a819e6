import AegisForge.Concurrency.Safety
import AegisForge.Shared.Effects
import AegisForge.Shared.ExecutionSystem

/-!
# The order of a safe retry

A retry attempt comes last: its review says `SAFE_TO_RETRY`, which is written
once, and the original attempt is `ABORTED`, which is terminal.  Both are
established before the retry is created and neither can be taken back.
-/

namespace AegisForge.Shared.RetryOrdering

open AegisForge.Core AegisForge.Concurrency

/-! ## The calls -/

/-- The calls of the system, and the store's own calls that resolve reviews and
create attempts. -/
inductive RecoveryCall
  | system (call : SystemCall)
  | openReview (attempt : ExecutionAttempt) (now : Option Time) (uuid : String)
  | resolve (recoveryId : String) (decision : RecoveryDecision)
      (verifierId outcomeId reason : String) (now : Option Time)
  | resolveVerified (recoveryId : String) (verification : ExecutionRecoveryStore.Verification)
      (now : Option Time)
  | create (taskId grantId intentHash idempotencyKey : String) (now : Option Time)
      (retry : Bool) (uuid : String)

namespace RecoveryCall

def body : RecoveryCall → Action Answer
  | system call => call.body
  | openReview attempt now uuid =>
      answer .review (ExecutionRecoveryStore.openReview attempt now uuid)
  | resolve recoveryId decision verifierId outcomeId reason now =>
      answer .review
        (ExecutionRecoveryStore.resolve recoveryId decision verifierId outcomeId reason now)
  | resolveVerified recoveryId verification now =>
      answer .review (ExecutionRecoveryStore.resolveVerified recoveryId verification now)
  | create taskId grantId intentHash idempotencyKey now retry uuid =>
      answer (fun attempt => .attempts [attempt])
        (ExecutionAttemptStore.create taskId grantId intentHash idempotencyKey now retry uuid)

/-- The attempt that the call retries. -/
def retries : RecoveryCall → Option String
  | system (.retryIfSafe _ attemptId _ _) => some attemptId
  | _ => none

end RecoveryCall

abbrev RecoveryPool : Type := Pool RecoveryCall Statement.Reply World Raised Answer

/-- The statement has added an attempt. -/
def creates (event : Event Statement World) : Bool :=
  match event.statement with
  | .insertAttempt attempt => (execute (.insertAttempt attempt) event.found).1 = .committed
  | _ => false

theorem insertAttempt_of_creates {event : Event Statement World}
    (hcreates : creates event = true) : ∃ attempt, event.statement = .insertAttempt attempt := by
  rw [creates] at hcreates
  split at hcreates
  case h_1 attempt hstatement => exact ⟨attempt, hstatement⟩
  case h_2 => cases hcreates

/-- A retry attempt of the attempt was created by the coordinator. -/
def Retried (pool : RecoveryPool) (attemptId : String) : Prop :=
  ∃ event ∈ pool.history.trace, creates event = true ∧
    (pool.call? event.process).bind RecoveryCall.retries = some attemptId

/-! ## What stays true -/

/-- The review of the attempt says that a retry is safe. -/
def SafeToRetry (attemptId : String) (world : World) : Prop :=
  ∃ review ∈ world.reviews.rows, review.attemptId = attemptId ∧ review.decision = .safeToRetry

def Aborted (attemptId : String) (world : World) : Prop :=
  ∃ attempt, world.attempts.lookup attemptId = some attempt ∧ attempt.state = .aborted

/-- The recovery is a review of the attempt. -/
def Reviews (recoveryId attemptId : String) (world : World) : Prop :=
  ∃ review, world.reviews.lookup recoveryId = some review ∧ review.attemptId = attemptId

/-- A review of the attempt that was read, whose decision stands if there is one. -/
def Known (attemptId : String) (review : RecoveryReview) (world : World) : Prop :=
  Reviews review.recoveryId attemptId world ∧
    (review.decision ≠ .unknown → review ∈ world.reviews.rows)

/-- No statement ends it. -/
def Lasting (holds : World → Prop) : Prop :=
  ∀ statement world, holds world → holds (execute statement world).2

theorem Lasting.and {first second : World → Prop} (hfirst : Lasting first)
    (hsecond : Lasting second) : Lasting fun world => first world ∧ second world :=
  fun statement world hboth =>
    ⟨hfirst statement world hboth.1, hsecond statement world hboth.2⟩

/-- A decision is never replaced. -/
theorem lasting_decided {review : RecoveryReview} (hdecided : review.decision ≠ .unknown) :
    Lasting fun world => review ∈ world.reviews.rows := by
  intro statement world hmem
  rw [Table.mem_rows_iff] at hmem ⊢
  rw [lookup_reviews_execute hmem, reviewEffect_of_decided hdecided]

theorem lasting_safeToRetry (attemptId : String) : Lasting (SafeToRetry attemptId) := by
  rintro statement world ⟨review, hmem, hattempt, hdecision⟩
  have hdecided : review.decision ≠ .unknown := by
    rw [hdecision]
    decide
  exact ⟨review, lasting_decided hdecided statement world hmem, hattempt, hdecision⟩

theorem lasting_aborted (attemptId : String) : Lasting (Aborted attemptId) := by
  rintro statement world ⟨attempt, hlookup, hstate⟩
  have hterminal : attempt.state ∈ ExecutionAttemptState.terminal := by
    rw [hstate]
    decide
  refine ⟨attempt, ?_, hstate⟩
  rw [lookup_attempts_execute hlookup, attemptEffect_of_terminal hterminal]

theorem lasting_reviews (recoveryId attemptId : String) :
    Lasting (Reviews recoveryId attemptId) := by
  rintro statement world ⟨review, hlookup, hattempt⟩
  exact ⟨_, lookup_reviews_execute hlookup statement,
    (reviewEffect_attemptId recoveryId review statement).trans hattempt⟩

theorem lasting_known (attemptId : String) (review : RecoveryReview) :
    Lasting (Known attemptId review) := by
  rintro statement world ⟨hreviews, hdecided⟩
  exact ⟨lasting_reviews _ _ statement world hreviews,
    fun hdecision => lasting_decided hdecision statement world (hdecided hdecision)⟩

theorem Known.safeToRetry {attemptId : String} {review : RecoveryReview} {world : World}
    (hknown : Known attemptId review world) (hdecision : review.decision = .safeToRetry) :
    SafeToRetry attemptId world := by
  obtain ⟨⟨row, hrow, hattempt⟩, hdecided⟩ := hknown
  have hmem : review ∈ world.reviews.rows := hdecided (by rw [hdecision]; decide)
  rw [Table.mem_rows_iff, hrow, Option.some.injEq] at hmem
  rw [hmem] at hrow hattempt
  exact ⟨review, Table.mem_of_lookup hrow, hattempt, hdecision⟩

/-! ## The rules -/

/-- A call that retries an attempt adds attempts when the retry is in order. -/
def Orders (calls : ℕ → Option RecoveryCall) (process : ℕ) (statement : Statement)
    (world : World) : Prop :=
  ∀ attemptId attempt, (calls process).bind RecoveryCall.retries = some attemptId →
    statement = .insertAttempt attempt → SafeToRetry attemptId world ∧ Aborted attemptId world

def Ordered (calls : ℕ → Option RecoveryCall) (history : SystemHistory) : Prop :=
  ∀ event ∈ history.trace, Orders calls event.process event.statement event.found

variable {calls : ℕ → Option RecoveryCall} {history later : SystemHistory} {process : ℕ}
variable {attemptId recoveryId : String} {Value : Type}

theorem Ordered.record {statement : Statement} (hordered : Ordered calls history)
    (horders : Orders calls process statement history.store) :
    Ordered calls (history.record execute process statement) := by
  intro event hevent
  rcases List.mem_cons.mp hevent with rfl | hevent
  · exact horders
  · exact hordered event hevent

def rules (calls : ℕ → Option RecoveryCall) : Rules execute :=
  Rules.ofInvariant execute (Ordered calls) (fun _ _ _ => True)
    (fun process statement history => Orders calls process statement history.store)
    fun hordered _ horders => hordered.record horders

theorem orders_of_ordinary {statement : Statement} {world : World}
    (hordinary : statement.isOrdinary = true) : Orders calls process statement world := by
  rintro _ attempt _ rfl
  cases hordinary

theorem Lasting.rely {holds : World → Prop} (hlasting : Lasting holds)
    (hholds : holds history.store) (hrely : (rules calls).rely process history later) :
    holds later.store :=
  Rules.kept_of_interferes holds hlasting hrely hholds

theorem Lasting.record {holds : World → Prop} (hlasting : Lasting holds)
    (hholds : holds history.store) (statement : Statement) :
    holds (history.record execute process statement).store :=
  hlasting statement history.store hholds

/-- What lasts holds through every program of ordinary statements. -/
theorem safe_ordinary (holds : World → Prop) {program : Action Value}
    (hlasting : Lasting holds) (hholds : holds history.store)
    (hwithin : program.Within fun statement => statement.isOrdinary = true) :
    (rules calls).Safe process (fun _ last => holds last.store)
      (fun _ _ => True) program history := by
  have hsafe := @Rules.safe_of_stable _ _ _ _ _ _ (rules calls) process history
    (fun statement => statement.isOrdinary = true) (fun last => holds last.store)
    (fun _ _ hordinary _ _ _ => orders_of_ordinary hordinary)
    (fun _ _ hlast hrely => hlasting.rely hlast hrely)
    (fun statement _ _ hlast _ _ => hlasting.record hlast statement) program hwithin hholds
  exact hsafe.weaken (fun _ _ _ hlast => hlast) (fun _ _ _ _ => trivial)

theorem safe_clock (now : Option Time) :
    (rules calls).Safe process (fun _ _ => True) (fun _ _ => True) (currentTime now)
      history :=
  safe_ordinary (fun _ => True) (fun _ _ hheld => hheld) trivial
    (within_currentTime (fun _ hordinary => hordinary) now)

/-! ## Reading a review -/

theorem safe_get (hreviews : Reviews recoveryId attemptId history.store) :
    (rules calls).Safe process (fun review last => Known attemptId review last.store)
      (fun _ _ => True) (ExecutionRecoveryStore.get recoveryId) history := by
  apply Rules.Safe.call
  intro reading hrely _ _
  obtain ⟨review, hlookup, hattempt⟩ := (lasting_reviews _ _).rely hreviews hrely
  have hreply : (execute (.selectReview recoveryId) reading.store).1 = some review := hlookup
  obtain rfl := Table.key_of_lookup hlookup
  have hknown : Known attemptId review
      (reading.record execute process (.selectReview review.recoveryId)).store :=
    ⟨⟨review, hlookup, hattempt⟩, fun _ => Table.mem_of_lookup hlookup⟩
  rw [hreply]
  exact ⟨orders_of_ordinary rfl, fun last hlast _ =>
    (lasting_known attemptId review).rely hknown hlast⟩

theorem safe_getByAttempt :
    (rules calls).Safe process
      (fun known last => ∀ review, known = some review → Known attemptId review last.store)
      (fun _ _ => True) (ExecutionRecoveryStore.getByAttempt attemptId) history := by
  apply Rules.Safe.call
  intro reading _ hreading _
  have hreply : (execute (.selectReviewIdByAttempt attemptId) reading.store).1 =
      (reading.store.reviews.rows.find? fun row => row.attemptId = attemptId).map
        RecoveryReview.recoveryId := rfl
  refine ⟨orders_of_ordinary rfl, ?_⟩
  rw [hreply]
  cases hfind : reading.store.reviews.rows.find? fun row => row.attemptId = attemptId with
  | none => exact fun _ _ _ _ hnone => nomatch hnone
  | some row =>
      have hreviews : Reviews row.recoveryId attemptId
          (reading.record execute process (.selectReviewIdByAttempt attemptId)).store :=
        ⟨row, Table.lookup_of_mem (List.mem_of_find?_eq_some hfind),
          by simpa using List.find?_some hfind⟩
      apply (safe_get hreviews).andThen _ (fun _ _ _ _ => trivial)
      · exact hreading.record (orders_of_ordinary rfl)
      · intro review found _ hknown last hlast _ other hother
        obtain rfl := Option.some.inj hother
        exact (lasting_known attemptId review).rely hknown hlast

theorem safe_insertReview {review : RecoveryReview} (hattempt : review.attemptId = attemptId)
    {conflict : Action RecoveryReview}
    (hconflict : ∀ last, Ordered calls last → (rules calls).Safe process
      (fun existing final => Known attemptId existing final.store) (fun _ _ => True) conflict
      last) :
    (rules calls).Safe process (fun opened last => Known attemptId opened last.store)
      (fun _ _ => True)
      ((send (.insertReview review)).bind fun inserted : Bool =>
        if inserted then pure review else conflict) history := by
  apply Rules.Safe.call
  intro inserting _ hinserting _
  have horders : Orders calls process (.insertReview review) inserting.store :=
    orders_of_ordinary rfl
  refine ⟨horders, ?_⟩
  split
  case isTrue hinserted =>
    have hlookup : (execute (.insertReview review) inserting.store).2.reviews.lookup
        review.recoveryId = some review := by
      simp only [execute] at hinserted ⊢
      split at hinserted
      case h_1 after hafter => simp [Table.lookup_insert? hafter]
      case h_2 => cases hinserted
    have hknown : Known attemptId review
        (inserting.record execute process (.insertReview review)).store :=
      ⟨⟨review, hlookup, hattempt⟩, fun _ => Table.mem_of_lookup hlookup⟩
    exact fun last hlast _ => (lasting_known attemptId review).rely hknown hlast
  case isFalse => exact hconflict _ (Ordered.record hinserting horders)

theorem safe_openReview {attempt : ExecutionAttempt} (hattempt : attempt.attemptId = attemptId)
    (now : Option Time) (uuid : String) (hordered : Ordered calls history) :
    (rules calls).Safe process (fun review last => Known attemptId review last.store)
      (fun _ _ => True) (ExecutionRecoveryStore.openReview attempt now uuid) history := by
  apply Rules.Safe.raiseIf (fun _ _ _ _ => trivial)
  intro _
  apply Rules.Safe.raiseIf (fun _ _ _ _ => trivial)
  intro _
  rw [hattempt]
  apply safe_getByAttempt.andThen _ (fun _ _ _ _ => trivial) hordered
  intro existing found hfound hexisting
  cases existing with
  | some review =>
      exact fun last hlast _ => (lasting_known attemptId review).rely (hexisting review rfl) hlast
  | none =>
      apply (safe_clock now).andThen _ (fun _ _ _ _ => trivial) hfound
      intro reviewedAt clocked _ _
      apply safe_insertReview rfl
      intro conflicting hconflicting
      apply safe_getByAttempt.andThen _ (fun _ _ _ _ => trivial) hconflicting
      intro existing found _ hexisting
      cases existing with
      | none => exact fun _ _ _ => trivial
      | some review =>
          exact fun last hlast _ =>
            (lasting_known attemptId review).rely (hexisting review rfl) hlast

theorem safe_resolve {decision : RecoveryDecision} {verifierId outcomeId reason : String}
    {now : Option Time} (hreviews : Reviews recoveryId attemptId history.store)
    (hordered : Ordered calls history) :
    (rules calls).Safe process (fun review last => Known attemptId review last.store)
      (fun _ _ => True)
      (ExecutionRecoveryStore.resolve recoveryId decision verifierId outcomeId reason now)
      history := by
  have hlasting := lasting_reviews recoveryId attemptId
  apply Rules.Safe.raiseIf (fun _ _ _ _ => trivial)
  intro _
  apply Rules.Safe.raiseIf (fun _ _ _ _ => trivial)
  intro _
  apply Rules.Safe.raiseIf (fun _ _ _ _ => trivial)
  intro _
  apply (safe_ordinary _ hlasting hreviews
    (within_getReview (fun _ hordinary => hordinary) recoveryId)).andThen _
      (fun _ _ _ _ => trivial) hordered
  intro current found hfound hreviews
  apply Rules.Safe.raiseIf (fun _ _ _ _ => trivial)
  intro _
  apply (safe_ordinary _ hlasting hreviews
    (within_currentTime (fun _ hordinary => hordinary) now)).andThen _
      (fun _ _ _ _ => trivial) hfound
  intro reviewedAt clocked hclocked hreviews
  apply Rules.Safe.call
  intro writing hrely _ _
  refine ⟨orders_of_ordinary rfl, ?_⟩
  apply Rules.Safe.raiseIf (fun _ _ _ _ => trivial)
  intro _
  exact safe_get (hlasting.record (hlasting.rely hreviews hrely) _)

theorem safe_resolveVerified {verification : ExecutionRecoveryStore.Verification}
    {now : Option Time} (hreviews : Reviews recoveryId attemptId history.store)
    (hordered : Ordered calls history) :
    (rules calls).Safe process (fun review last => Known attemptId review last.store)
      (fun _ _ => True)
      (ExecutionRecoveryStore.resolveVerified recoveryId verification now) history := by
  rw [ExecutionRecoveryStore.resolveVerified]
  -- the unifier would otherwise evaluate the stripped texts
  generalize strip verification.verifier = verifierId
  generalize strip verification.outcomeId = outcomeId
  apply Rules.Safe.raiseIf (fun _ _ _ _ => trivial)
  intro _
  apply Rules.Safe.raiseIf (fun _ _ _ _ => trivial)
  intro _
  apply Rules.Safe.raiseIf (fun _ _ _ _ => trivial)
  intro _
  exact safe_resolve hreviews hordered

/-- An attempt that was read has the id that it was asked for. -/
theorem safe_getAttempt {holds : World → Prop} (hlasting : Lasting holds)
    (hholds : holds history.store) :
    (rules calls).Safe process
      (fun attempt last => attempt.attemptId = attemptId ∧ holds last.store ∧
        (attempt.state = .aborted → Aborted attemptId last.store))
      (fun _ _ => True) (ExecutionAttemptStore.get attemptId) history := by
  apply Rules.Safe.call
  intro reading hrely _ _
  have hheld : holds (reading.record execute process (.selectAttempt attemptId)).store :=
    hlasting.record (hlasting.rely hholds hrely) _
  have hreply : (execute (.selectAttempt attemptId) reading.store).1 =
      reading.store.attempts.lookup attemptId := rfl
  refine ⟨orders_of_ordinary rfl, ?_⟩
  rw [hreply]
  cases hlookup : reading.store.attempts.lookup attemptId with
  | none => exact fun _ _ _ => trivial
  | some attempt =>
      intro last hlast _
      refine ⟨Table.key_of_lookup hlookup, hlasting.rely hheld hlast, fun hstate => ?_⟩
      have haborted : Aborted attemptId
          (reading.record execute process (.selectAttempt attemptId)).store :=
        ⟨attempt, hlookup, hstate⟩
      exact (lasting_aborted attemptId).rely haborted hlast

/-- A review answers what is known of the attempt from then on. -/
theorem safe_review (coordinator : ExecutionRecoveryCoordinator) (request : RetryRequest)
    (hordered : Ordered calls history) :
    (rules calls).Safe process (fun review last => Known attemptId review last.store)
      (fun _ _ => True) (coordinator.review attemptId request) history := by
  have htrue : Lasting fun _ => True := fun _ _ _ => trivial
  apply (safe_getAttempt htrue trivial).andThen _ (fun _ _ _ _ => trivial) hordered
  rintro attempt read hread ⟨hattempt, -, -⟩
  apply (safe_openReview hattempt none _ hread).andThen _ (fun _ _ _ _ => trivial) hread
  intro opened opening hopening hopened
  split
  case isTrue =>
    exact fun last hlast _ => (lasting_known attemptId opened).rely hopened hlast
  case isFalse =>
    have hlasting := lasting_reviews opened.recoveryId attemptId
    apply (safe_ordinary _ hlasting hopened.1
      (within_append (fun _ hordinary => hordinary) _ _ _ _ _ _)).andThen _
        (fun _ _ _ _ => trivial) hopening
    intro _ recorded hrecorded hreviews
    apply Rules.Safe.ofExcept (fun _ _ _ _ _ => trivial)
    intro verification _
    apply (safe_resolveVerified hreviews hrecorded).andThen _ (fun _ _ _ _ => trivial) hrecorded
    intro resolved resolving hresolving hknown
    apply (safe_ordinary _ (lasting_known attemptId resolved) hknown
      (within_append (fun _ hordinary => hordinary) _ _ _ _ _ _)).andThen _
        (fun _ _ _ _ => trivial) hresolving
    intro _ last _ hknown final hfinal _
    exact (lasting_known attemptId resolved).rely hknown hfinal

/-! ## Closing the original attempt -/

/-- The guarded update of an attempt that was written has aborted it. -/
theorem aborted_of_updated {change : AttemptChange} {world : World}
    (hattempt : change.attemptId = attemptId) (hstate : change.newState = .aborted)
    (hwritten : (execute (.updateAttempt change) world).1 = true) :
    Aborted attemptId (execute (.updateAttempt change) world).2 := by
  have hfound : (world.attempts.lookup change.attemptId).any
      (fun row => decide (row.state = change.expected)) = true := hwritten
  obtain ⟨row, hrow, hexpected⟩ := Option.any_eq_true _ _ |>.mp hfound
  rw [hattempt] at hrow
  refine ⟨_, lookup_attempts_execute hrow (.updateAttempt change), ?_⟩
  rw [attemptEffect, if_pos hattempt, AttemptChange.apply,
    if_pos (of_decide_eq_true hexpected)]
  exact hstate

theorem safe_transition {now : Option Time} {fields : ExecutionAttemptStore.TransitionFields}
    (hordered : Ordered calls history) :
    (rules calls).Safe process (fun _ last => Aborted attemptId last.store) (fun _ _ => True)
      (ExecutionAttemptStore.transition attemptId .aborted now fields) history := by
  have htrue : Lasting fun _ => True := fun _ _ _ => trivial
  have haborted := lasting_aborted attemptId
  apply (safe_getAttempt htrue trivial).andThen _ (fun _ _ _ _ => trivial) hordered
  rintro current read hread ⟨hattempt, -, -⟩
  split
  case isFalse => exact fun _ _ _ => trivial
  case isTrue hallowed =>
    apply (safe_clock now).andThen _ (fun _ _ _ _ => trivial) hread
    intro moment clocked _ _
    apply Rules.Safe.call
    intro writing _ hwriting _
    have horders : Orders calls process (.updateAttempt
        (ExecutionAttemptStore.change current .aborted hallowed fields moment)) writing.store :=
      orders_of_ordinary rfl
    refine ⟨horders, ?_⟩
    apply Rules.Safe.raiseIf (fun _ _ _ _ => trivial)
    intro hwritten
    rw [Bool.not_eq_false] at hwritten
    exact safe_ordinary _ haborted (aborted_of_updated hattempt rfl hwritten)
      (within_getAttempt (fun _ hordinary => hordinary) attemptId)

theorem safe_abort (coordinator : ExecutionRecoveryCoordinator) (review : RecoveryReview)
    (now : Option Time) (hordered : Ordered calls history) :
    (rules calls).Safe process (fun _ last => Aborted attemptId last.store) (fun _ _ => True)
      (do
        let _ ← ExecutionAttemptStore.transition attemptId .aborted now
          { error := "recovery_verified_safe_to_retry" }
        let _ ← coordinator.recoveryEvidence.append review.recoveryId attemptId
          "ORIGINAL_ABORTED" [("reason", .text "recovery_verified_safe_to_retry")] now
        pure () : Action Unit) history := by
  have haborted := lasting_aborted attemptId
  apply (safe_transition hordered).andThen _ (fun _ _ _ _ => trivial) hordered
  intro _ closing hclosing haborts
  apply (safe_ordinary _ haborted haborts
    (within_append (fun _ hordinary => hordinary) _ _ _ _ _ _)).andThen _
      (fun _ _ _ _ => trivial) hclosing
  intro _ last _ haborts final hfinal _
  exact haborted.rely haborts hfinal

/-- Once the original attempt is closed it is aborted. -/
theorem safe_closeOriginal (coordinator : ExecutionRecoveryCoordinator) (review : RecoveryReview)
    (now : Option Time) (hordered : Ordered calls history) :
    (rules calls).Safe process (fun _ last => Aborted attemptId last.store) (fun _ _ => True)
      (coordinator.closeOriginal review attemptId now) history := by
  have htrue : Lasting fun _ => True := fun _ _ _ => trivial
  have haborted := lasting_aborted attemptId
  apply (safe_getAttempt htrue trivial).andThen _ (fun _ _ _ _ => trivial) hordered
  rintro current read hread ⟨-, -, hclosed⟩
  split
  case isTrue =>
    apply ((safe_abort coordinator review now hread).mapError hread).andThen _
      (fun _ _ _ _ => trivial) hread
    intro _ last _ haborts final hfinal _
    exact haborted.rely haborts hfinal
  case isFalse =>
    split
    case isTrue => exact fun _ _ _ => trivial
    case isFalse hstate =>
      intro last hlast _
      exact haborted.rely (hclosed (not_not.mp hstate)) hlast

/-! ## Creating the retry -/

/-- From here on every attempt that the call creates is in order. -/
theorem safe_createRetry (coordinator : ExecutionRecoveryCoordinator) (review : RecoveryReview)
    (attempt : ExecutionAttempt) (request : RetryRequest) (now : Option Time)
    (grant : SignedCapabilityGrant)
    (hcall : (calls process).bind RecoveryCall.retries = some attemptId)
    (hsafe : SafeToRetry attemptId history.store) (haborted : Aborted attemptId history.store) :
    (rules calls).Safe process (fun _ _ => True) (fun _ _ => True)
      (coordinator.createRetry review attempt attemptId request now grant) history := by
  have hlasting := (lasting_safeToRetry attemptId).and (lasting_aborted attemptId)
  have hcreate := @Rules.safe_of_stable _ _ _ _ _ _ (rules calls) process history
    (fun _ => True)
    (fun last => SafeToRetry attemptId last.store ∧ Aborted attemptId last.store)
    (fun statement last _ hready _ _ => by
      intro other attempt hother _
      obtain rfl := Option.some.inj (hcall.symm.trans hother)
      exact hready)
    (fun _ _ hready hrely => hlasting.rely hready hrely)
    (fun statement _ _ hready _ _ => hlasting.record hready statement) _
    (Program.within_true (coordinator.createRetry review attempt attemptId request now grant))
    ⟨hsafe, haborted⟩
  exact hcreate.weaken (fun _ _ _ _ => trivial) (fun _ _ _ _ => trivial)

theorem safe_retrySafe (coordinator : ExecutionRecoveryCoordinator) (review : RecoveryReview)
    (request : RetryRequest) (now : Option Time)
    (hcall : (calls process).bind RecoveryCall.retries = some attemptId)
    (hsafe : SafeToRetry attemptId history.store) (hordered : Ordered calls history) :
    (rules calls).Safe process (fun _ _ => True) (fun _ _ => True)
      (coordinator.retrySafe review attemptId request now) history := by
  have hlasting := lasting_safeToRetry attemptId
  apply (safe_ordinary _ hlasting hsafe
    (within_getAttempt (fun _ hordinary => hordinary) attemptId)).andThen _
      (fun _ _ _ _ => trivial) hordered
  intro current read hread hsafe
  apply (safe_ordinary _ hlasting hsafe
    (within_claimRetry (fun _ hordinary => hordinary) review now _)).andThen _
      (fun _ _ _ _ => trivial) hread
  rintro ⟨operation, acquired⟩ claimed hclaimed hsafe
  have htrue : Lasting fun _ => True := fun _ _ _ => trivial
  dsimp only
  split
  · exact safe_ordinary _ htrue trivial (within_getAttempt (fun _ hordinary => hordinary) _)
  · exact safe_ordinary _ htrue trivial (within_getAttempt (fun _ hordinary => hordinary) _)
  · apply (safe_ordinary _ hlasting hsafe
      (within_resumeClaim (fun _ hordinary => hordinary) _ _ _ _ _)).andThen _
        (fun _ _ _ _ => trivial) hclaimed
    intro state resumed hresumed hsafe
    apply (safe_ordinary _ hlasting hsafe
      (within_retryGrant (fun _ hordinary => hordinary) _ _ _ _ _ _ _ _)).andThen _
        (fun _ _ _ _ => trivial) hresumed
    intro grant granted hgranted hsafe
    have hclose := (safe_closeOriginal coordinator review now hgranted).and
      (@safe_ordinary calls granted process _ (SafeToRetry attemptId) _ hlasting hsafe
        (within_closeOriginal (fun _ hordinary => hordinary) coordinator review attemptId now))
    apply hclose.andThen _ (fun _ _ _ _ => trivial) hgranted
    rintro original closed - ⟨haborted, hsafe⟩
    exact safe_createRetry coordinator review original request now grant hcall hsafe haborted

theorem safe_followReview (coordinator : ExecutionRecoveryCoordinator)
    (request : RetryRequest) (now : Option Time) (review : RecoveryReview)
    (hcall : (calls process).bind RecoveryCall.retries = some attemptId)
    (hordered : Ordered calls history) (hknown : Known attemptId review history.store) :
    (rules calls).Safe process (fun _ _ => True) (fun _ _ => True)
      (coordinator.followReview attemptId request now review) history := by
  have htrue : Lasting fun _ => True := fun _ _ _ => trivial
  have hclose := fun state error eventType =>
    @safe_ordinary calls history process _ (fun _ => True) _ htrue trivial
      (within_closeDecided (fun _ hordinary => hordinary) coordinator review attemptId now state
        error eventType)
  rw [ExecutionRecoveryCoordinator.followReview]
  split
  case h_1 => exact hclose _ _ _
  case h_2 => exact hclose _ _ _
  case h_3 => exact fun _ _ _ => trivial
  case h_4 hdecision =>
    apply (safe_retrySafe coordinator review request now hcall (hknown.safeToRetry hdecision)
      hordered).andThen _ (fun _ _ _ _ => trivial) hordered
    exact fun _ _ _ _ _ _ _ => trivial

theorem safe_retryIfSafe (coordinator : ExecutionRecoveryCoordinator) (request : RetryRequest)
    (now : Option Time) (hcall : (calls process).bind RecoveryCall.retries = some attemptId)
    (hordered : Ordered calls history) :
    (rules calls).Safe process (fun _ _ => True) (fun _ _ => True)
      (coordinator.retryIfSafe attemptId request now) history := by
  have htrue : Lasting fun _ => True := fun _ _ _ => trivial
  have hfollows := fun review last (hlast : Ordered calls last)
      (hreviewed : Known attemptId review last.store) =>
    safe_followReview coordinator request now review hcall hlast hreviewed
  apply (safe_getAttempt htrue trivial).andThen _ (fun _ _ _ _ => trivial) hordered
  intro _ read hread _
  apply safe_getByAttempt.andThen _ (fun _ _ _ _ => trivial) hread
  intro known found hfound hknown
  cases known with
  | none =>
      apply (safe_review coordinator request hfound).andThen _ (fun _ _ _ _ => trivial) hfound
      exact fun review last hlast hreviewed => hfollows review last hlast hreviewed
  | some review =>
      dsimp only
      split
      case isTrue =>
        apply (safe_review coordinator request hfound).andThen _ (fun _ _ _ _ => trivial) hfound
        exact fun review last hlast hreviewed => hfollows review last hlast hreviewed
      case isFalse => exact hfollows review found hfound (hknown review rfl)

theorem safe_body {call : RecoveryCall} (hcall : calls process = some call)
    (hordered : Ordered calls history) :
    (rules calls).Safe process (fun _ _ => True) (fun _ _ => True) call.body history := by
  cases hretries : call.retries with
  | none =>
      apply Rules.safe_of_within _ (Program.within_true call.body)
      intro statement last _ _ _ attemptId attempt hother
      rw [hcall, Option.bind_some, hretries] at hother
      cases hother
  | some attemptId =>
      have hprocess : (calls process).bind RecoveryCall.retries = some attemptId := by
        rw [hcall, Option.bind_some, hretries]
      obtain ⟨coordinator, request, now, rfl⟩ : ∃ coordinator request now,
          call = .system (.retryIfSafe coordinator attemptId request now) := by
        unfold RecoveryCall.retries at hretries
        split at hretries
        case h_1 coordinator _ request now =>
          obtain rfl := Option.some.inj hretries
          exact ⟨coordinator, request, now, rfl⟩
        case h_2 => cases hretries
      apply (safe_retryIfSafe coordinator request now hprocess hordered).andThen _
        (fun _ _ _ _ => trivial) hordered
      exact fun _ _ _ _ _ _ _ => trivial

/-! ## Every interleaving -/

/-- Retries are in order: a retried attempt is aborted and its review says
`SAFE_TO_RETRY`, no other decided review has a retry, and decisions stay. -/
theorem retries_in_order {start : World} {pool : RecoveryPool}
    (hreaches : Pool.Reaches execute RecoveryCall.body .unrestricted (Pool.idle start) pool) :
    (∀ attemptId, Retried pool attemptId →
      SafeToRetry attemptId pool.history.store ∧ Aborted attemptId pool.history.store) ∧
    (∀ review ∈ pool.history.store.reviews.rows,
      review.decision = .sideEffectConfirmed ∨ review.decision = .quarantined →
        ¬Retried pool review.attemptId) ∧
    ∀ event ∈ pool.history.trace, ∀ review ∈ event.found.reviews.rows,
      review.decision ≠ .unknown → review ∈ pool.history.store.reviews.rows := by
  have hidle : Ordered pool.call? (⟨start, []⟩ : SystemHistory) := by
    simp [Ordered]
  have hsound : Rules.Sound (rules pool.call?)
      (fun _ (_ : RecoveryCall) (_ : Answer) _ => True) (fun _ _ _ _ => True) pool := by
    refine Rules.Sound.reaches ?_ ?_ (Rules.Sound.idle hidle) hreaches.foreseen
    · exact fun _ _ _ _ => trivial
    · intro before call hstarts hordered _
      exact safe_body hstarts.2 hordered
  have hchained : Chained execute start pool.history.trace pool.history.store :=
    Pool.Reaches.chained hreaches rfl
  have hretried : ∀ attemptId, Retried pool attemptId →
      SafeToRetry attemptId pool.history.store ∧ Aborted attemptId pool.history.store := by
    rintro attemptId ⟨event, hevent, hcreates, hcall⟩
    obtain ⟨attempt, hstatement⟩ := insertAttempt_of_creates hcreates
    have hready := hsound.invariant event hevent attemptId attempt hcall hstatement
    exact ⟨Pool.kept_of_chained _ (lasting_safeToRetry attemptId) hchained hevent hready.1,
      Pool.kept_of_chained _ (lasting_aborted attemptId) hchained hevent hready.2⟩
  refine ⟨hretried, ?_, ?_⟩
  · intro review hreview hdecision hretry
    obtain ⟨⟨safe, hsafe, hattempt, hsafeDecision⟩, -⟩ := hretried _ hretry
    obtain rfl := Table.eq_of_unique_eq hsafe hreview hattempt
    rw [hsafeDecision] at hdecision
    rcases hdecision with hdecision | hdecision <;> cases hdecision
  · intro event hevent review hreview hdecided
    exact Pool.kept_of_chained _ (lasting_decided hdecided) hchained hevent hreview

/-! ## A retry -/

/-- A running attempt of another grant, which a verifier finds safe to retry. -/
def original : ExecutionAttempt :=
  { (⟨"attempt_1", "task-1", "grant-0", "intent-hash", "key-1", 1, 0⟩ : NewAttempt).row with
    state := .running }

def worldWithAttempt : World :=
  { Sample.world with attempts := ⟨[original], by simp, by simp⟩ }

def coordinator : ExecutionRecoveryCoordinator where
  recoveryEvidence := ⟨fun body => body.eventType ++ body.prevHash⟩
  executionGate := some Sample.gate

def retryCall : RecoveryCall :=
  .system (.retryIfSafe coordinator "attempt_1"
    { intent := Sample.intent
      verification := .ok ⟨.safeToRetry, "verifier-1", "outcome-1"⟩
      reauthorize := some fun _ => .granted (Sample.signer.sign Sample.grant)
      recoveryUuid := "1"
      claimUuid := "1"
      attemptUuid := "2" } none)

/-- The coordinator retries the attempt while another caller resolves its review. -/
def retryMoves : List (Move RecoveryCall) :=
  .start retryCall ::
    .start (.resolve "recovery_1" .quarantined "verifier-2" "outcome-2" "" none) ::
      (List.replicate 30 (.advance 0) ++ List.replicate 4 (.advance 1) ++
        List.replicate 60 (.advance 0))

def retryPool : RecoveryPool :=
  (Pool.idle worldWithAttempt).run execute RecoveryCall.body retryMoves

theorem retries_in_order_retryPool :
    Retried retryPool "attempt_1" ∧ SafeToRetry "attempt_1" retryPool.history.store ∧
      Aborted "attempt_1" retryPool.history.store := by
  have hany : (retryPool.history.trace.any fun event => creates event &&
      (retryPool.call? event.process).bind RecoveryCall.retries = some "attempt_1") = true := by
    decide +kernel
  obtain ⟨event, hevent, hcreated⟩ := List.any_eq_true.mp hany
  rw [Bool.and_eq_true, decide_eq_true_eq] at hcreated
  have hretried : Retried retryPool "attempt_1" := ⟨event, hevent, hcreated⟩
  have hreaches : Pool.Reaches execute RecoveryCall.body .unrestricted
      (Pool.idle worldWithAttempt) retryPool := Pool.reaches_run _ _
  exact ⟨hretried, (retries_in_order hreaches).1 "attempt_1" hretried⟩

end AegisForge.Shared.RetryOrdering
