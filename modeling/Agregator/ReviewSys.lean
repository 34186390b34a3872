import Mathlib.Logic.Function.Basic
import Agregator.ConcTrace
import Agregator.ReviewUsecase
/-!
# ReviewSys — the two services at work

Any number of calls at once, over the tables of the review service, its event stream and the venues.  A transaction sees what
is committed when its statement runs; a key it has written is locked until it ends.  Every operation may fail, before or
after its effect, a transaction may be lost with its connection, and the callback of the subscriber may die.
-/
namespace Agregator

open Rel Conc

inductive ReviewLock where
  | review (userID venueID masterID : String)
  | rating (t : TargetType) (key : String)
  | outbox (id : String)
deriving DecidableEq

/-- An open transaction. -/
structure ReviewSession where
  id : ℕ
  locks : List ReviewLock

/-- `callback` is the callback that runs and the steps it has taken. -/
structure ReviewWorld where
  reviews : Table reviewSchema
  ratings : TargetType → String → Option RatingRow
  outbox : List ReviewOutboxRow
  sessions : List ReviewSession
  opened : ℕ
  clock : Time
  stream : List ReviewCreatedEvent
  venues : String → Option VenueRating
  callback : Option (ℕ × ℕ)
  callbacks : ℕ

namespace ReviewWorld

def lockedOut (w : ReviewWorld) (tx : ℕ) (lock : ReviewLock) : Bool :=
  w.sessions.any fun s => s.id != tx && s.locks.contains lock

def isOpen (w : ReviewWorld) (tx : ℕ) : Bool := w.sessions.any (·.id == tx)

def grant (w : ReviewWorld) (tx : ℕ) (locks : List ReviewLock) : ReviewWorld :=
  { w with sessions := w.sessions.map fun s => if s.id = tx then { s with locks := locks ++ s.locks } else s }

def close (w : ReviewWorld) (tx : ℕ) : ReviewWorld := { w with sessions := w.sessions.filter (·.id != tx) }

/-- A wait for a lock that was given up. -/
def gaveUp : Err := .plain "ERROR: canceling statement due to lock timeout (SQLSTATE 55P03)"

/-- A statement of an open transaction, with the locks it takes.  One that runs while another transaction holds a lock has
given up waiting. -/
def within {α : Type} (w : ReviewWorld) (tx : ℕ) (locks : List ReviewLock) (r : Except Err α) : Except Err α × ReviewWorld :=
  if w.isOpen tx = false then (.error (.plain "conn closed"), w)
  else if locks.any (w.lockedOut tx) then (.error gaveUp, w)
  else (r, w.grant tx locks)

end ReviewWorld

/-! ## The statements -/

namespace ReviewRepo

/-- `CreateTx`: the row with its identifier and its time. -/
def createTx (newID : String) (tx : ReviewTx) (review : Review) (w : ReviewWorld) : Except Err (Review × ReviewTx) :=
  let row := { review with id := newID, createdAt := tx.began }
  match w.reviews.insertAll (tx.reviews ++ [row]) with
  | .error .unique => .error (.status .alreadyExists "review already exists for this target")
  | .error .check => .error (.plain "ERROR: new row violates check constraint (SQLSTATE 23514)")
  | .ok _ => .ok (row, { tx with reviews := tx.reviews ++ [row] })

/-- The row a transaction sees: the one it has written, or the one that is committed. -/
def seen (t : TargetType) (tx : ReviewTx) (key : String) (w : ReviewWorld) : Option RatingRow :=
  match tx.ratings.find? fun x => x.1 == t && x.2.1 == key with
  | some x => some x.2.2
  | none => w.ratings t key

def maxInt32 : ℤ := 2147483647

/-- `UpdateVenueRatingTx` and `UpdateMasterRatingTx`. -/
def updateRatingTx (fl : Doubles) (t : TargetType) (tx : ReviewTx) (key : String) (rating : ℤ) (w : ReviewWorld) :
    Except Err ReviewTx :=
  let row := RatingRow.next fl rating (seen t tx key w)
  if maxInt32 < row.count then .error (.plain "ERROR: integer out of range (SQLSTATE 22003)")
  else .ok { tx with ratings := (t, key, row) :: tx.ratings }

/-- `GetVenueRating`. -/
def getVenueRating (venueID : String) (w : ReviewWorld) : VenueRating := VenueRating.of (w.ratings .venue venueID)

end ReviewRepo

namespace ReviewOutbox

/-- `OutboxRepo.CreateTx`. -/
def createTx (newID : String) (tx : ReviewTx) (aggregateID eventType : String) (payload : ReviewCreatedEvent) : ReviewTx :=
  { tx with outbox := tx.outbox ++ [⟨newID, aggregateID, eventType, payload, tx.began, none, none⟩] }

def staleLockThreshold : Time := 120

def isStale (now : Time) (e : ReviewOutboxRow) : Bool := e.lockedAt.any fun l => decide (l < now - staleLockThreshold)

/-- The rows `ClaimBatch` selects; it skips those of other transactions. -/
def claimable (tx : ReviewTx) (limit : ℕ) (w : ReviewWorld) : List ReviewOutboxRow :=
  ((w.outbox.filter fun e => e.publishedAt.isNone && (e.lockedAt.isNone || isStale tx.began e) &&
    !w.lockedOut tx.id (.outbox e.id)).mergeSort fun a b => decide (a.createdAt ≤ b.createdAt)).take limit

/-- What a transaction leaves of a row when it commits. -/
def stamp (tx : ReviewTx) (e : ReviewOutboxRow) : ReviewOutboxRow :=
  if e.id ∈ tx.published then { e with publishedAt := some tx.began, lockedAt := none }
  else if e.id ∈ tx.stamped then { e with lockedAt := some tx.began }
  else e

/-- The rows `ResetStaleLocks` is about. -/
def isLeft (now : Time) (e : ReviewOutboxRow) : Bool := e.publishedAt.isNone && isStale now e

/-- `ResetStaleLocks`. -/
def reset (now : Time) (e : ReviewOutboxRow) : ReviewOutboxRow := if isLeft now e then { e with lockedAt := none } else e

end ReviewOutbox

namespace ReviewWorld

/-- The ratings with the rows a transaction has written, the last one on top. -/
def putRatings (ratings : TargetType → String → Option RatingRow) :
    List (TargetType × String × RatingRow) → TargetType → String → Option RatingRow
  | [] => ratings
  | (t, key, row) :: rest =>
    Function.update (putRatings ratings rest) t (Function.update (putRatings ratings rest t) key (some row))

/-- `Commit`: all that the transaction has written, or nothing. -/
def commit (w : ReviewWorld) (tx : ReviewTx) : Except Err Unit × ReviewWorld :=
  if w.isOpen tx.id = false then (.error (.plain "conn closed"), w)
  else
    match w.reviews.insertAll tx.reviews with
    | .error _ => (.error (.plain "commit unexpectedly resulted in rollback"), w.close tx.id)
    | .ok reviews => (.ok (), { w with
        reviews := reviews
        ratings := putRatings w.ratings tx.ratings
        outbox := w.outbox.map (ReviewOutbox.stamp tx) ++ tx.outbox }.close tx.id)

/-- `UpdateRating` of the venue repository. -/
def updateRating (w : ReviewWorld) (venueID : String) (avgRating : ℚ) (reviewCount : ℤ) : ReviewWorld :=
  { w with venues := Function.update w.venues venueID ((w.venues venueID).map fun _ => ⟨avgRating, reviewCount⟩) }

theorem updateRating_venues (w : ReviewWorld) (venueID : String) (avgRating : ℚ) (reviewCount : ℤ) (v : String) :
    (w.updateRating venueID avgRating reviewCount).venues v =
      if v = venueID then (w.venues venueID).map fun _ => ⟨avgRating, reviewCount⟩ else w.venues v :=
  Function.update_apply _ _ _ _

end ReviewWorld

/-! ## The operations -/

/-- What the environment has in store for an operation. -/
structure ReviewEnv where
  newID : String
  visited : Bool
  duplicate : Bool
  message : Option ReviewCreatedEvent
  fault : Fault Err

/-- An error of the database carries no status. -/
def Err.ofDB (err : Err) : Err := .plain err.text

def HandlerOp.run (env : ReviewEnv) : (o : HandlerOp) → ReviewWorld → o.Res × ReviewWorld
  | getVenueRating venueID, w => env.fault.apply id (fun w => (.ok (ReviewRepo.getVenueRating venueID w), w)) w
  | updateRating venueID avgRating reviewCount, w =>
    env.fault.apply Err.ofDB (fun w => (.ok (), w.updateRating venueID avgRating reviewCount)) w

namespace ReviewOp

/-- An event that is in the stream may be taken for a duplicate. -/
def run (fl : Doubles) (env : ReviewEnv) : (o : ReviewOp) → ReviewWorld → o.Res × ReviewWorld
  | hasCompletedBooking _ _, w | hasCompletedMasterBooking _ _, w => env.fault.apply id (fun w => (.ok env.visited, w)) w
  | beginTx, w => env.fault.apply Err.ofDB (fun w => (.ok { id := w.opened, began := w.clock },
      { w with sessions := w.sessions ++ [⟨w.opened, []⟩], opened := w.opened + 1 })) w
  | createTx tx review, w => env.fault.apply Err.ofDB (fun w =>
      w.within tx.id [.review review.userID review.venueID review.masterID] (ReviewRepo.createTx env.newID tx review w)) w
  | outboxCreateTx tx aggregateID eventType payload, w => env.fault.apply Err.ofDB (fun w =>
      w.within tx.id [] (.ok (ReviewOutbox.createTx env.newID tx aggregateID eventType payload))) w
  | updateRatingTx t tx key rating, w => env.fault.apply Err.ofDB (fun w =>
      w.within tx.id [.rating t key] (ReviewRepo.updateRatingTx fl t tx key rating w)) w
  | commit tx, w => env.fault.apply Err.ofDB (fun w => w.commit tx) w
  | rollback tx, w => env.fault.apply Err.ofDB (fun w => (.ok (), w.close tx.id)) w
  | claimBatch tx limit, w => env.fault.apply Err.ofDB (fun w =>
      let rows := ReviewOutbox.claimable tx limit w
      w.within tx.id (rows.map fun e => .outbox e.id) (.ok (rows, { tx with stamped := rows.map (·.id) }))) w
  | markTx tx ids, w => env.fault.apply Err.ofDB (fun w =>
      w.within tx.id (ids.map .outbox) (.ok { tx with published := ids })) w
  | resetStaleLocks, w => env.fault.apply Err.ofDB (fun w =>
      if w.outbox.any fun e => ReviewOutbox.isLeft w.clock e && w.lockedOut w.opened (.outbox e.id) then (.error ReviewWorld.gaveUp, w)
      else (.ok (), { w with outbox := w.outbox.map (ReviewOutbox.reset w.clock) })) w
  | publishReviewCreated event, w => env.fault.apply id (fun w =>
      (.ok (), if env.duplicate && w.stream.any (·.reviewID == event.reviewID) then w
        else { w with stream := w.stream ++ [event] })) w
  | deliver, w => ((w.callbacks, env.message), { w with callback := some (w.callbacks, 0), callbacks := w.callbacks + 1 })
  | within callback step o, w => ((o.run env w).1, { (o.run env w).2 with callback := some (callback, step + 1) })
  | done _ _, w => ((), { w with callback := none })

/-- One message is handled at a time, by the callback it is delivered to. -/
def Runs (env : ReviewEnv) (w : ReviewWorld) : ReviewOp → Prop
  | deliver => w.callback = none ∧ ∀ event, env.message = some event → event ∈ w.stream
  | within callback step _ => w.callback = some (callback, step)
  | done callback _ => ∃ step, w.callback = some (callback, step)
  | _ => True

def Exec (fl : Doubles) (o : ReviewOp) (w : ReviewWorld) (r : o.Res) (w' : ReviewWorld) : Prop :=
  ∃ env : ReviewEnv, Runs env w o ∧ o.run fl env w = (r, w')

end ReviewOp

/-! ## The system -/

/-- Time passes, a connection or the callback is lost, or a venue is added, of which there is no review yet. -/
inductive ReviewWorld.Changes (w : ReviewWorld) : ReviewWorld → Prop where
  | passes (later : Time) : w.clock ≤ later → Changes w { w with clock := later }
  | lost (tx : ℕ) : Changes w (w.close tx)
  | dies : Changes w { w with callback := none }
  | added (venueID : String) : w.venues venueID = none → (∀ r ∈ w.reviews.rows, r.venueID ≠ venueID) →
      Changes w { w with venues := Function.update w.venues venueID (some ⟨0, 0⟩) }

inductive ReviewCall where
  | createReview (inp : CreateReviewInput)
  | tick (batchSize : ℕ)
  | resetStaleLocks
  | consume
deriving DecidableEq

/-- What a call returns. -/
inductive ReviewAnswer where
  | review (res : Except Err Review)
  | worked
  | consumed (msg : Option ReviewCreatedEvent) (res : Handled)

def ReviewCall.prog (uc : ReviewUseCase) : ReviewCall → ReviewProg ReviewAnswer
  | createReview inp => return .review (← uc.createReview inp)
  | tick batchSize => do
    let _ ← ReviewWorker.tick batchSize
    return .worked
  | resetStaleLocks => do
    let _ ← ReviewOp.call .resetStaleLocks
    return .worked
  | consume => do
    let (msg, res) ← VenueSubscriber.consume
    return .consumed msg res

def reviewSys (fl : Doubles) (uc : ReviewUseCase) : Sys ReviewWorld ReviewCall ReviewOp ReviewOp.Res ReviewAnswer where
  prog := ReviewCall.prog uc
  ready _ _ := True
  exec := ReviewOp.Exec fl
  env := ReviewWorld.Changes

abbrev ReviewConfig := Config ReviewWorld ReviewCall ReviewOp ReviewOp.Res ReviewAnswer

end Agregator
