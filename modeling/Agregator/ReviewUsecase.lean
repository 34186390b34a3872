import Agregator.ConcProg
import Agregator.ReviewStore
/-!
# ReviewUsecase — reviews, the outbox worker and the subscriber

`createReview` of the review service, one `tick` of its outbox worker, and the handler with which the venue service follows
the ratings.  The handler's own operations are a type of their own: it runs in a callback that can die between any two.
-/
namespace Agregator

open Rel Conc

/-! ## The operations -/

/-- A transaction: what it has written, which nobody else sees. -/
structure ReviewTx where
  id : ℕ
  began : Time
  reviews : List Review := []
  outbox : List ReviewOutboxRow := []
  ratings : List (TargetType × String × RatingRow) := []
  stamped : List String := []
  published : List String := []
deriving DecidableEq

/-- What the subscriber does to follow a review. -/
inductive HandlerOp where
  | getVenueRating (venueID : String)
  | updateRating (venueID : String) (avgRating : ℚ) (reviewCount : ℤ)
deriving DecidableEq

@[reducible] def HandlerOp.Res : HandlerOp → Type
  | getVenueRating _ => Except Err VenueRating
  | updateRating _ _ _ => Except Err Unit

inductive ReviewOp where
  | hasCompletedBooking (userID venueID : String)
  | hasCompletedMasterBooking (clientUserID masterID : String)
  | beginTx
  | createTx (tx : ReviewTx) (review : Review)
  | outboxCreateTx (tx : ReviewTx) (aggregateID eventType : String) (payload : ReviewCreatedEvent)
  | updateRatingTx (t : TargetType) (tx : ReviewTx) (key : String) (rating : ℤ)
  | commit (tx : ReviewTx)
  | rollback (tx : ReviewTx)
  | claimBatch (tx : ReviewTx) (limit : ℕ)
  | markTx (tx : ReviewTx) (ids : List String)
  | resetStaleLocks
  | publishReviewCreated (event : ReviewCreatedEvent)
  | deliver
  | within (callback step : ℕ) (o : HandlerOp)
  | done (callback : ℕ) (ack : Bool)
deriving DecidableEq

namespace ReviewOp

@[reducible] def Res : ReviewOp → Type
  | hasCompletedBooking _ _ | hasCompletedMasterBooking _ _ => Except Err Bool
  | beginTx | outboxCreateTx _ _ _ _ | updateRatingTx _ _ _ _ | markTx _ _ => Except Err ReviewTx
  | createTx _ _ => Except Err (Review × ReviewTx)
  | commit _ | rollback _ | resetStaleLocks | publishReviewCreated _ => Except Err Unit
  | claimBatch _ _ => Except Err (List ReviewOutboxRow × ReviewTx)
  | deliver => ℕ × Option ReviewCreatedEvent
  | within _ _ o => o.Res
  | done _ _ => Unit

end ReviewOp

abbrev ReviewProg := Prog ReviewOp ReviewOp.Res

abbrev HandlerProg := Prog HandlerOp HandlerOp.Res

abbrev ReviewOp.call (o : ReviewOp) : ReviewProg o.Res := Prog.perform o

abbrev HandlerOp.call (o : HandlerOp) : HandlerProg o.Res := Prog.perform o

/-! ## A review -/

/-- A flag says whether the client or the repository is configured. -/
structure ReviewUseCase where
  outboxRepo : Bool
  masterClient : Bool

structure CreateReviewInput where
  userID : String
  userName : String
  venueID : String
  masterID : String
  rating : ℤ
  text : String
  isAnonymous : Bool
deriving DecidableEq

namespace ReviewUseCase

open ReviewOp (call)

variable (uc : ReviewUseCase)

/-- The row that is to be stored; its identifier and its time are the database's. -/
def CreateReviewInput.review (inp : CreateReviewInput) : Review where
  id := ""
  userID := inp.userID
  userName := inp.userName
  venueID := inp.venueID
  masterID := inp.masterID
  rating := inp.rating
  text := inp.text
  isVerified := true
  isAnonymous := inp.isAnonymous
  createdAt := 0

/-- The event of a review. -/
def reviewCreated (r : Review) : ReviewCreatedEvent where
  reviewID := r.id
  userID := r.userID
  targetType := if r.masterID ≠ "" then .master else .venue
  venueID := r.venueID
  masterID := r.masterID
  rating := r.rating

/-- The deferred rollback of a review that has failed. -/
def abandon {α : Type} (tx : ReviewTx) (err : Err) : ReviewProg (Except Err α) := do
  let _ ← call (.rollback tx)
  return .error err

/-- Whether the user has been at the target. -/
def hasVisited (inp : CreateReviewInput) : ReviewProg (Except Err Bool) :=
  if inp.venueID ≠ "" then call (.hasCompletedBooking inp.userID inp.venueID)
  else if uc.masterClient then call (.hasCompletedMasterBooking inp.userID inp.masterID)
  else return .ok false

/-- The cache of the target, in the transaction of the review. -/
def updateRatingCache (tx : ReviewTx) (inp : CreateReviewInput) : ReviewProg (Except Err ReviewTx) := do
  if inp.venueID ≠ "" then
    match ← call (.updateRatingTx .venue tx inp.venueID inp.rating) with
    | .error _ => abandon tx (.status .internal "failed to update venue rating cache")
    | .ok tx => return .ok tx
  else
    match ← call (.updateRatingTx .master tx inp.masterID inp.rating) with
    | .error _ => abandon tx (.status .internal "failed to update master rating cache")
    | .ok tx => return .ok tx

/-- The outbox entry, the cache and the commit, after the row of the review. -/
def finishReview (inp : CreateReviewInput) (review : Review) (tx : ReviewTx) : ReviewProg (Except Err Review) := do
  match ← updateRatingCache tx inp with
  | .error err => return .error err
  | .ok tx =>
    match ← call (.commit tx) with
    | .error _ => abandon tx (.status .internal "failed to commit transaction")
    | .ok () => return .ok review

def storeReview (inp : CreateReviewInput) : ReviewProg (Except Err Review) := do
  match ← call .beginTx with
  | .error _ => return .error (.status .internal "failed to begin transaction")
  | .ok tx =>
    match ← call (.createTx tx (CreateReviewInput.review inp)) with
    | .error err =>
      if err.code ≠ .unknown then abandon tx err
      else abandon tx (.status .internal "failed to persist review")
    | .ok (review, tx) =>
      if uc.outboxRepo then
        match ← call (.outboxCreateTx tx review.id subjectReviewCreated (reviewCreated review)) with
        | .error _ => abandon tx (.status .internal "failed to write outbox entry")
        | .ok tx => finishReview inp review tx
      else finishReview inp review tx

def createReview (inp : CreateReviewInput) : ReviewProg (Except Err Review) := do
  if inp.rating < 1 ∨ inp.rating > 5 then return .error (.status .invalidArgument "rating must be between 1 and 5")
  else if (inp.venueID != "") == (inp.masterID != "") then
    return .error (.status .invalidArgument "exactly one target is required: venue_id or master_id")
  else
    match ← uc.hasVisited inp with
    | .error err => return .error err
    | .ok false => return .error (.status .failedPrecondition "booking is not confirmed by platform")
    | .ok true => uc.storeReview inp

end ReviewUseCase

/-! ## The outbox worker -/

namespace ReviewWorker

open ReviewOp (call)

def publish (e : ReviewOutboxRow) : ReviewProg (Except Err Unit) := do
  if e.eventType = subjectReviewCreated then call (.publishReviewCreated e.payload)
  else return .error (.plain ("outbox: unknown event type \"" ++ e.eventType ++ "\" (outbox_id=" ++ e.id ++ ")"))

/-- The entries that are published before the first that is not. -/
def publishAll : List ReviewOutboxRow → ReviewProg (List String)
  | [] => return []
  | e :: rest => do
    match ← publish e with
    | .error _ => return []
    | .ok () => return e.id :: (← publishAll rest)

def markPublished (ids : List String) : ReviewProg (Except Err Unit) := do
  match ← call .beginTx with
  | .error err => return .error err
  | .ok tx =>
    match ← call (.markTx tx ids) with
    | .error err =>
      let _ ← call (.rollback tx)
      return .error err
    | .ok tx' =>
      match ← call (.commit tx') with
      | .error err =>
        let _ ← call (.rollback tx)
        return .error err
      | .ok () => return .ok ()

/-- One cycle: claim, publish, mark.  An error is logged. -/
def tick (batchSize : ℕ) : ReviewProg Unit := do
  match ← call .beginTx with
  | .error _ => return ()
  | .ok tx =>
    match ← call (.claimBatch tx batchSize) with
    | .error _ =>
      let _ ← call (.rollback tx)
      return ()
    | .ok (entries, tx') =>
      if entries = [] then
        let _ ← call (.rollback tx)
        return ()
      else
        match ← call (.commit tx') with
        | .error _ =>
          let _ ← call (.rollback tx)
          return ()
        | .ok () =>
          let published ← publishAll entries
          if published = [] then return ()
          else
            let _ ← markPublished published
            return ()

end ReviewWorker

/-! ## The subscriber of the venue service -/

/-- How a message is settled, and whether the metrics count it as handled. -/
structure Handled where
  ack : Bool
  ok : Bool
deriving DecidableEq, Repr

namespace VenueSubscriber

open HandlerOp (call)

/-- `VenueUseCase.UpdateRating`. -/
def updateRating (venueID : String) (avgRating : ℚ) (reviewCount : ℤ) : HandlerProg (Except Err Unit) := do
  if avgRating < 0 ∨ avgRating > 5 then
    return .error (.status .invalidArgument "средняя оценка должна быть в диапазоне 0–5")
  else if reviewCount < 0 then
    return .error (.status .invalidArgument "количество отзывов не может быть отрицательным")
  else
    match ← call (.updateRating venueID avgRating reviewCount) with
    | .error err => return .error (err.wrap "update rating")
    | .ok () => return .ok ()

/-- `none` is a message that cannot be read. -/
def handleReviewCreated : Option ReviewCreatedEvent → HandlerProg Handled
  | none => return ⟨true, false⟩
  | some evt => do
    if evt.targetType ≠ .venue then return ⟨true, true⟩
    else if isUUID evt.venueID = false then return ⟨true, false⟩
    else
      match ← call (.getVenueRating evt.venueID) with
      | .error _ => return ⟨false, false⟩
      | .ok rating =>
        match ← updateRating evt.venueID rating.avgRating rating.reviewCount with
        | .error err =>
          if err.code = .invalidArgument ∨ err.code = .notFound then return ⟨true, true⟩ else return ⟨false, false⟩
        | .ok () => return ⟨true, true⟩

end VenueSubscriber

/-- The steps of a callback, one after the other. -/
def HandlerOp.steps {α : Type} (callback : ℕ) : ℕ → HandlerProg α → ReviewProg α
  | _, .ret a => .ret a
  | n, .call o k => .call (.within callback n o) fun r => steps callback (n + 1) (k r)

/-- A message is delivered to a callback, which settles it. -/
def VenueSubscriber.consume : ReviewProg (Option ReviewCreatedEvent × Handled) := do
  let (callback, msg) ← ReviewOp.call .deliver
  let result ← HandlerOp.steps callback 0 (handleReviewCreated msg)
  let _ ← ReviewOp.call (.done callback result.ack)
  return (msg, result)

end Agregator
