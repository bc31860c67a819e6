import AegisForge.Core.PyValue
import AegisForge.Shared.LiveForest

/-!
# Human reviews

`create_human_review` looks for an open review of the case with the reason as it was
given, and stores a reason that is cut to the bound of descriptions.  Each of the two
calls is one transaction.
-/

namespace AegisForge.Shared.HumanReviews

open AegisForge.Core AegisForge.Concurrency TaskQueue

/-- A row of `pending_human_review`. -/
structure ReviewRow where
  id : String
  caseId : String
  taskId : Option String
  reason : String
  isOpen : Bool
  createdAt : String
  resolvedAt : Option String := none
  resolution : Option String := none
  deriving DecidableEq

abbrev ReviewTable : Type := Table ReviewRow.id ReviewRow.id

/-- `ORDER BY created_at, id`. -/
def precedes (left right : ReviewRow) : Prop :=
  left.createdAt < right.createdAt ∨ left.createdAt = right.createdAt ∧ left.id ≤ right.id

instance : DecidableRel precedes := fun _ _ => inferInstanceAs (Decidable (_ ∨ _ ∧ _))

/-- `WHERE case_id = ? AND reason = ? AND status = 'OPEN'`. -/
def isCandidate (caseId reason : String) (row : ReviewRow) : Bool :=
  row.caseId = caseId && row.reason = reason && row.isOpen

/-- The open review of a case that is stored with a reason, the oldest of several. -/
def openReview (caseId reason : String) (reviews : ReviewTable) : Option ReviewRow :=
  ((reviews.rows.filter (isCandidate caseId reason)).insertionSort precedes).head?

/-- What `create_human_review` stores, with the id that `uuid4` answers. -/
structure NewReview where
  caseId : String
  reason : String
  taskId : Option String
  reviewId : String
  createdAt : String

def NewReview.row (request : NewReview) : ReviewRow where
  id := request.reviewId
  caseId := request.caseId
  taskId := request.taskId
  reason := boundedDescription request.reason
  isOpen := true
  createdAt := request.createdAt

def ReviewRow.resolved (resolvedAt resolution : String) (row : ReviewRow) : ReviewRow :=
  { row with
    isOpen := false
    resolvedAt := some resolvedAt
    resolution := some (boundedDescription resolution) }

theorem ReviewRow.id_resolved (resolvedAt resolution : String) (row : ReviewRow) :
    (row.resolved resolvedAt resolution).id = row.id := rfl

/-! ## The transactions -/

inductive Statement
  | create (request : NewReview)
  | resolve (reviewId resolution resolvedAt : String)

abbrev Statement.Reply : Statement → Type
  | .create _ => Except Raised String
  | .resolve _ _ _ => Bool

def integrityError : Raised :=
  ⟨.integrityError, "UNIQUE constraint failed: pending_human_review.id"⟩

/-- The transaction of `create_human_review`. -/
def createReview (request : NewReview) (reviews : ReviewTable) :
    Except Raised String × ReviewTable :=
  match openReview request.caseId request.reason reviews with
  | some existing => (.ok existing.id, reviews)
  | none =>
      match reviews.insert? request.row with
      | some after => (.ok request.reviewId, after)
      | none => (.error integrityError, reviews)

def execute : Concurrency.Execution Statement.Reply ReviewTable
  | .create request, reviews => createReview request reviews
  | .resolve reviewId resolution resolvedAt, reviews =>
      reviews.updateWhere reviewId ReviewRow.isOpen (ReviewRow.resolved resolvedAt resolution)
        (ReviewRow.id_resolved resolvedAt resolution) (ReviewRow.id_resolved resolvedAt resolution)

inductive Call
  | createHumanReview (caseId reason : PyValue) (taskId : Option PyValue)
      (reviewId createdAt : String)
  | resolveHumanReview (reviewId resolution : PyValue) (resolvedAt : String)

inductive Answer
  | review (id : String)
  | resolved (updated : Bool)

/-- `if not isinstance(value, str) or not value.strip(): raise ValueError(message)`. -/
def filled (value : PyValue) (message : String) : Except Raised String :=
  orRaise (valueError message) (value.text?.filter fun text => !isBlank text)

/-- A call: its checks, and its transaction. -/
def body : Call → Program Statement.Reply Raised Answer
  | .createHumanReview caseId reason taskId reviewId createdAt => do
      let caseId ← Program.ofExcept (filled caseId "human_review_case_id_required")
      let reason ← Program.ofExcept (filled reason "human_review_reason_required")
      let taskId ← Program.ofExcept (taskId.mapM (filled · "human_review_task_id_invalid"))
      let created ← Program.call (.create ⟨caseId, reason, taskId, reviewId, createdAt⟩)
      let id ← Program.ofExcept created
      return .review id
  | .resolveHumanReview reviewId resolution resolvedAt => do
      let reviewId ← Program.ofExcept (filled reviewId "human_review_id_required")
      let resolution ← Program.ofExcept (filled resolution "human_review_resolution_required")
      let updated ← Program.call (.resolve reviewId resolution resolvedAt)
      return .resolved updated

abbrev ReviewHistory : Type := History Statement ReviewTable

/-! ## What reviews were created for -/

/-- A call created the review for the case and the reason that it was given. -/
def CreatedFor (history : ReviewHistory) (caseId reason id : String) : Prop :=
  ∃ event ∈ history.trace, ∃ taskId createdAt,
    event.statement = .create ⟨caseId, reason, taskId, id, createdAt⟩ ∧
      openReview caseId reason event.found = none ∧ event.found.lookup id = none

/-- A review that was created for the case and the reason, and is open. -/
def OpenFor (history : ReviewHistory) (caseId reason id : String) : Prop :=
  CreatedFor history caseId reason id ∧
    ∃ row, history.store.lookup id = some row ∧ row.isOpen = true

/-- A call that creates a review for a case and a reason that have an open one answers
that one. -/
def AnswersOpen (statement : Statement) (history : ReviewHistory) : Prop :=
  ∀ request id, statement = .create request → OpenFor history request.caseId request.reason id →
    (createReview request history.store).1 = .ok id

/-- Every call of a trace did. -/
def AllAnswerOpen : List (Event Statement ReviewTable) → Prop
  | [] => True
  | event :: earlier =>
      AnswersOpen event.statement ⟨event.found, earlier⟩ ∧ AllAnswerOpen earlier

/-- There is never more than one open review that was created for a case and a reason,
and every repeated call while it was open answered it. -/
def OneOpenReview (history : ReviewHistory) : Prop :=
  (∀ caseId reason first second, OpenFor history caseId reason first →
      OpenFor history caseId reason second → first = second) ∧
    AllAnswerOpen history.trace

/-- The reason of a new review is not cut when one is open that was created for it, and
that one is the oldest of the open reviews that are stored with this reason. -/
def ReasonFits (statement : Statement) (history : ReviewHistory) : Prop :=
  ∀ request id, statement = .create request → OpenFor history request.caseId request.reason id →
    request.reason.utf8ByteSize ≤ maxDescriptionBytes ∧
      ∀ row other, history.store.lookup id = some row → other ∈ history.store.rows →
        isCandidate request.caseId request.reason other = true → precedes row other

/-! ## Which review is found -/

theorem precedes_antisymm {left right : ReviewRow} (hleft : precedes left right)
    (hright : precedes right left) : left.id = right.id := by
  rcases hleft with hless | ⟨hsame, hleft⟩
  · rcases hright with hgreater | ⟨hsame, -⟩
    · exact absurd hgreater (not_lt_of_gt hless)
    · exact absurd hless (hsame ▸ lt_irrefl _)
  · rcases hright with hgreater | ⟨-, hright⟩
    · exact absurd hgreater (hsame ▸ lt_irrefl _)
    · exact le_antisymm hleft hright

instance : Std.Total precedes where
  total left right := by
    rcases lt_trichotomy left.createdAt right.createdAt with hless | hsame | hgreater
    · exact Or.inl (Or.inl hless)
    · exact (le_total left.id right.id).imp (fun hle => Or.inr ⟨hsame, hle⟩)
        fun hle => Or.inr ⟨hsame.symm, hle⟩
    · exact Or.inr (Or.inl hgreater)

instance : IsTrans ReviewRow precedes where
  trans first second third hfirst hsecond := by
    rcases hfirst with hless | ⟨hsame, hle⟩
    · rcases hsecond with hless' | ⟨hsame', -⟩
      · exact Or.inl (hless.trans hless')
      · exact Or.inl (hsame' ▸ hless)
    · rcases hsecond with hless' | ⟨hsame', hle'⟩
      · exact Or.inl (hsame ▸ hless')
      · exact Or.inr ⟨hsame.trans hsame', hle.trans hle'⟩

variable {reviews : ReviewTable} {caseId reason : String}

theorem openReview_eq_some_iff {row : ReviewRow} :
    openReview caseId reason reviews = some row ↔
      row ∈ reviews.rows ∧ isCandidate caseId reason row = true ∧
        ∀ other ∈ reviews.rows, isCandidate caseId reason other = true → precedes row other := by
  rw [openReview, head?_insertionSort_eq_some_iff, List.mem_filter, and_assoc]
  · simp only [List.mem_filter, and_imp]
  · intro left hleft right hright hprecedes hfollows
    have hleftRow := Table.lookup_of_mem (List.mem_filter.mp hleft).1
    have hrightRow := Table.lookup_of_mem (List.mem_filter.mp hright).1
    rw [precedes_antisymm hprecedes hfollows] at hleftRow
    exact Option.some.inj (hleftRow.symm.trans hrightRow)

/-! ## What a transaction does -/

/-- A new review is answered with an open one, added, or refused for its id. -/
theorem createReview_cases (request : NewReview) (reviews : ReviewTable) :
    (∃ existing, openReview request.caseId request.reason reviews = some existing ∧
        createReview request reviews = (.ok existing.id, reviews)) ∨
      (∃ after, openReview request.caseId request.reason reviews = none ∧
        reviews.insert? request.row = some after ∧
          createReview request reviews = (.ok request.reviewId, after)) ∨
        (openReview request.caseId request.reason reviews = none ∧
          (reviews.lookup request.reviewId).isSome = true ∧
            createReview request reviews = (.error integrityError, reviews)) := by
  rw [createReview]
  cases hopen : openReview request.caseId request.reason reviews with
  | some existing => exact Or.inl ⟨existing, rfl, rfl⟩
  | none =>
      cases hinsert : reviews.insert? request.row with
      | some after => exact Or.inr (Or.inl ⟨after, rfl, rfl, rfl⟩)
      | none =>
          have htaken := Table.lookup_isSome_of_insert?_eq_none hinsert fun _ hsame => hsame
          exact Or.inr (Or.inr ⟨rfl, htaken, rfl⟩)

/-- A stored review keeps its case and its reason, and is not opened again. -/
theorem lookup_execute (statement : Statement) {id : String} {row : ReviewRow}
    (hrow : reviews.lookup id = some row) :
    ∃ after, (execute statement reviews).2.lookup id = some after ∧
      after.caseId = row.caseId ∧ after.reason = row.reason ∧
        (after.isOpen = true → row.isOpen = true) := by
  cases statement with
  | create request =>
      rcases createReview_cases request reviews with
        ⟨_, -, hcreated⟩ | ⟨_, -, hinsert, hcreated⟩ | ⟨-, -, hcreated⟩
      · exact ⟨row, by rw [execute, hcreated]; exact hrow, rfl, rfl, fun hopen => hopen⟩
      · refine ⟨row, ?_, rfl, rfl, fun hopen => hopen⟩
        rw [execute, hcreated, Table.lookup_insert? hinsert, if_neg]
        · exact hrow
        · rintro rfl
          have hfresh := (Table.insert?_eq_some_iff.mp hinsert).1
          cases hfresh.symm.trans hrow
      · exact ⟨row, by rw [execute, hcreated]; exact hrow, rfl, rfl, fun hopen => hopen⟩
  | resolve reviewId resolution resolvedAt =>
      rw [execute, Table.lookup_updateWhere, hrow, Option.map_some]
      refine ⟨_, rfl, ?_⟩
      split
      · exact ⟨rfl, rfl, fun hopen => by cases hopen⟩
      · exact ⟨rfl, rfl, fun hopen => hopen⟩

/-! ## Runs -/

/-- A review that was created is stored under its case with the bounded reason. -/
def KeepsCreated (history : ReviewHistory) : Prop :=
  ∀ caseId reason id, CreatedFor history caseId reason id →
    ∃ row, history.store.lookup id = some row ∧ row.caseId = caseId ∧
      row.reason = boundedDescription reason

section Steps

variable {history : ReviewHistory} {process : ℕ} {statement : Statement}

theorem createdFor_record_iff {id : String} :
    CreatedFor (history.record execute process statement) caseId reason id ↔
      (∃ taskId createdAt, statement = .create ⟨caseId, reason, taskId, id, createdAt⟩ ∧
        openReview caseId reason history.store = none ∧ history.store.lookup id = none) ∨
          CreatedFor history caseId reason id := by
  rw [CreatedFor, History.record_trace, List.exists_mem_cons_iff]
  rfl

theorem keepsCreated_record (hkeeps : KeepsCreated history) :
    KeepsCreated (history.record execute process statement) := by
  intro caseId reason id hcreated
  rcases createdFor_record_iff.mp hcreated with ⟨taskId, createdAt, rfl, hnone, hfresh⟩ | hbefore
  · rcases createReview_cases ⟨caseId, reason, taskId, id, createdAt⟩ history.store with
      ⟨existing, hopen, -⟩ | ⟨after, -, hinsert, hadded⟩ | ⟨-, htaken, -⟩
    · cases hnone.symm.trans hopen
    · refine ⟨NewReview.row ⟨caseId, reason, taskId, id, createdAt⟩, ?_, rfl, rfl⟩
      rw [History.record_store, execute, hadded, Table.lookup_insert? hinsert]
      exact if_pos rfl
    · rw [hfresh] at htaken
      cases htaken
  · obtain ⟨row, hrow, rfl, hreason⟩ := hkeeps caseId reason id hbefore
    obtain ⟨after, hafter, hcase, hsame, -⟩ := lookup_execute statement hrow
    exact ⟨after, hafter, hcase, hsame.trans hreason⟩

/-- An open review was open before, or has just been created. -/
theorem openFor_of_record (hkeeps : KeepsCreated history) {id : String}
    (hopen : OpenFor (history.record execute process statement) caseId reason id) :
    OpenFor history caseId reason id ∨
      ∃ taskId createdAt, statement = .create ⟨caseId, reason, taskId, id, createdAt⟩ ∧
        openReview caseId reason history.store = none := by
  obtain ⟨hcreated, row, hrow, hisOpen⟩ := hopen
  rcases createdFor_record_iff.mp hcreated with ⟨taskId, createdAt, hcreate, hnone, -⟩ | hbefore
  · exact Or.inr ⟨taskId, createdAt, hcreate, hnone⟩
  · obtain ⟨old, hold, -⟩ := hkeeps caseId reason id hbefore
    obtain ⟨after, hafter, -, -, hreopen⟩ := lookup_execute statement hold
    obtain rfl := Option.some.inj (hafter.symm.trans hrow)
    exact Or.inl ⟨hbefore, old, hold, hreopen hisOpen⟩

/-- A call answers the open review exactly if the reason fits. -/
theorem answersOpen_iff (hkeeps : KeepsCreated history) :
    AnswersOpen statement history ↔ ReasonFits statement history := by
  refine forall_congr' fun request => forall_congr' fun id => forall_congr' fun _ =>
    forall_congr' fun hopen => ?_
  obtain ⟨hcreated, row, hrow, hisOpen⟩ := hopen
  obtain ⟨stored, hstored, hcase, hreason⟩ := hkeeps _ _ _ hcreated
  obtain rfl := Option.some.inj (hrow.symm.trans hstored)
  have hid := Table.key_of_lookup hrow
  constructor
  · intro hanswer
    rcases createReview_cases request history.store with
      ⟨existing, hfound, hadded⟩ | ⟨after, -, hinsert, hadded⟩ | ⟨-, -, hadded⟩
    · rw [hadded] at hanswer
      obtain ⟨hmem, hcandidate, hfirst⟩ := openReview_eq_some_iff.mp hfound
      have hexisting := Table.lookup_of_mem hmem
      rw [Except.ok.inj hanswer, hrow] at hexisting
      obtain rfl := Option.some.inj hexisting
      rw [isCandidate, Bool.and_eq_true, Bool.and_eq_true, decide_eq_true_eq,
        decide_eq_true_eq] at hcandidate
      refine ⟨?_, fun found other hlookup hother hcandidate => ?_⟩
      · rw [← hcandidate.1.2, hreason]
        exact size_boundedDescription_le request.reason
      · obtain rfl := Option.some.inj (hrow.symm.trans hlookup)
        exact hfirst other hother hcandidate
    · rw [hadded] at hanswer
      have hfresh := (Table.insert?_eq_some_iff.mp hinsert).1
      have hsame : request.row.id = id := Except.ok.inj hanswer
      rw [hsame, hrow] at hfresh
      cases hfresh
    · rw [hadded] at hanswer
      cases hanswer
  · rintro ⟨hfits, hfirst⟩
    have hbounded : boundedDescription request.reason = request.reason := if_pos hfits
    have hfound : openReview request.caseId request.reason history.store = some row := by
      refine openReview_eq_some_iff.mpr ⟨Table.mem_of_lookup hrow, ?_, fun other hmem =>
        hfirst row other hrow hmem⟩
      rw [isCandidate, hcase, hreason, hbounded, hisOpen]
      simp
    rw [createReview, hfound]
    exact congrArg Except.ok hid

/-- What was said about all calls so far holds after the next one exactly if its reason
fits. -/
theorem oneOpenReview_record_iff (hkeeps : KeepsCreated history) (hone : OneOpenReview history) :
    OneOpenReview (history.record execute process statement) ↔ ReasonFits statement history := by
  rw [← answersOpen_iff hkeeps]
  refine ⟨fun hafter => hafter.2.1, fun hanswers => ⟨?_, hanswers, hone.2⟩⟩
  have hnew : ∀ caseId reason first second taskId createdAt,
      statement = .create ⟨caseId, reason, taskId, first, createdAt⟩ →
        openReview caseId reason history.store = none →
          ¬OpenFor history caseId reason second := by
    rintro caseId reason first second taskId createdAt rfl hnone hopen
    have hanswer := hanswers _ second rfl hopen
    obtain ⟨hcreated, row, hrow, -⟩ := hopen
    rcases createReview_cases ⟨caseId, reason, taskId, first, createdAt⟩ history.store with
      ⟨existing, hfound, -⟩ | ⟨after, -, hinsert, hadded⟩ | ⟨-, -, hadded⟩
    · cases hnone.symm.trans hfound
    · rw [hadded] at hanswer
      have hfresh := (Table.insert?_eq_some_iff.mp hinsert).1
      rw [NewReview.row, Except.ok.inj hanswer, hrow] at hfresh
      cases hfresh
    · rw [hadded] at hanswer
      cases hanswer
  intro caseId reason first second hfirst hsecond
  rcases openFor_of_record hkeeps hfirst with hfirst | ⟨taskId, createdAt, hcreate, hnone⟩
  · rcases openFor_of_record hkeeps hsecond with hsecond | ⟨taskId, createdAt, hcreate, hnone⟩
    · exact hone.1 caseId reason first second hfirst hsecond
    · exact absurd hfirst (hnew _ _ _ _ _ _ hcreate hnone)
  · rcases openFor_of_record hkeeps hsecond with hsecond | ⟨taskId', createdAt', hcreate', -⟩
    · exact absurd hsecond (hnew _ _ _ _ _ _ hcreate hnone)
    · have hsame := Statement.create.inj (hcreate.symm.trans hcreate')
      exact congrArg NewReview.reviewId hsame

end Steps

/-- Nothing has been created before the first call. -/
theorem keepsCreated_idle : KeepsCreated ⟨.empty, []⟩ := by
  rintro caseId reason id ⟨event, hevent, -⟩
  cases hevent

theorem oneOpenReview_idle : OneOpenReview ⟨.empty, []⟩ := by
  refine ⟨?_, trivial⟩
  rintro caseId reason first second ⟨⟨event, hevent, -⟩, -⟩
  cases hevent

theorem reasonFits_idle (statement : Statement) : ReasonFits statement ⟨.empty, []⟩ := by
  rintro request id - ⟨⟨event, hevent, -⟩, -⟩
  cases hevent

/-- The first call creates an open review. -/
theorem openFor_first (request : NewReview) :
    OpenFor (History.record execute ⟨.empty, []⟩ 0 (.create request)) request.caseId
      request.reason request.reviewId := by
  have hcreated : CreatedFor (History.record execute ⟨.empty, []⟩ 0 (.create request))
      request.caseId request.reason request.reviewId :=
    createdFor_record_iff.mpr (Or.inl ⟨request.taskId, request.createdAt, rfl, rfl, rfl⟩)
  refine ⟨hcreated, ?_⟩
  rcases createReview_cases request .empty with
    ⟨_, hopen, -⟩ | ⟨after, -, hinsert, hadded⟩ | ⟨-, htaken, -⟩
  · cases hopen
  · refine ⟨request.row, ?_, rfl⟩
    rw [History.record_store, execute, hadded, Table.lookup_insert? hinsert]
    exact if_pos rfl
  · cases htaken

/-- Any calls in any order, whose new reviews have reasons that fit. -/
def fitting : Schedule Call Statement.Reply ReviewTable Raised Answer where
  starts := fun _ _ => True
  permits := fun _ statement history => ReasonFits statement history

abbrev ReviewPool : Type := Pool Call Statement.Reply ReviewTable Raised Answer

namespace Sample

/-- One byte more than a stored reason may have. -/
@[irreducible]
def longReason : String := String.ofList (List.replicate 4097 'a')

def call (reason reviewId : String) : Call :=
  .createHumanReview (.text "case-1") (.text reason) none reviewId "2024-01-01T00:00:00+00:00"

def request (reason reviewId : String) : NewReview where
  caseId := "case-1"
  reason := reason
  taskId := none
  reviewId := reviewId
  createdAt := "2024-01-01T00:00:00+00:00"

/-- What a call does with the reply of its transaction. -/
def answer (created : Except Raised String) : Program Statement.Reply Raised Answer :=
  (Program.ofExcept created).bind fun id => .done (.review id)

theorem isBlank_replicate (count : ℕ) :
    isBlank (String.ofList (List.replicate (count + 1) 'a')) = false := by
  rw [isBlank, String.toList_ofList, List.replicate_succ]
  rfl

theorem filled_longReason (message : String) :
    filled (.text longReason) message = .ok longReason := by
  have hblank : isBlank longReason = false := by
    unfold longReason
    exact isBlank_replicate 4096
  rw [filled, PyValue.text?, Option.filter_some, hblank]
  rfl

theorem body_call {reason : String} (reviewId : String)
    (hfilled : filled (.text reason) "human_review_reason_required" = .ok reason) :
    body (call reason reviewId) = .step (.create (request reason reviewId)) answer := by
  have hcase : filled (.text "case-1") "human_review_case_id_required" = .ok "case-1" := by
    decide +kernel
  rw [call, body, hcase, hfilled]
  rfl

/-- A first call and its transaction. -/
def firstPool (reason : String) : ReviewPool :=
  Pool.execute execute (.start body (.idle .empty) (call reason "review-1")) 0
    (call reason "review-1") (.create (request reason "review-1")) answer

theorem reaches_firstPool {reason : String}
    {schedule : Schedule Call Statement.Reply ReviewTable Raised Answer}
    (hfilled : filled (.text reason) "human_review_reason_required" = .ok reason)
    (hstarts : schedule.starts (.idle .empty) (call reason "review-1"))
    (hpermits : schedule.permits 0 (.create (request reason "review-1")) ⟨.empty, []⟩) :
    Pool.Reaches execute body schedule (.idle .empty) (firstPool reason) := by
  refine (Relation.ReflTransGen.single (Pool.Step.start _ hstarts)).tail
    (Pool.Step.execute ?_ hpermits)
  exact congrArg (fun program => some (Process.mk _ program)) (body_call "review-1" hfilled)

theorem size_replicate (count : ℕ) :
    (String.ofList (List.replicate count 'a')).utf8ByteSize = count := by
  induction count with
  | zero => rfl
  | succ count ih =>
      rw [List.replicate_succ, String.ofList_cons, String.utf8ByteSize_append, ih,
        String.utf8ByteSize_singleton, Nat.add_comm]
      rfl

end Sample

end AegisForge.Shared.HumanReviews
