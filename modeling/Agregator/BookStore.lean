import Agregator.BookDomain
import Agregator.RelTable
import Mathlib.Data.List.Sort
/-!
# BookStore — the booking database

`bookings` and its outbox, and the repository over them.  Every function is one transaction: it returns its answer and
the database after it, unchanged when it fails.  `gen_random_uuid` gives out every identifier once; those given out are
part of the state.
-/
namespace Agregator

open Rel

def bookingSchema : Schema Booking where
  check b := isUUID b.id && isUUID b.userID && isUUID b.venueID && (b.serviceID == "" || isUUID b.serviceID) &&
    (b.paymentID == "" || isUUID b.paymentID) && decide (b.venueName.length ≤ 255) &&
    b.packageServiceIDs.all isUUID && b.hallIDs.all isUUID
  clash a b := a.id == b.id
  clash_comm a b := by simp only [Bool.beq_comm]

structure BookingDB where
  bookings : Table bookingSchema
  outbox : List BookingEvent
  issued : List String

/-- What the text of a failed statement says of the constraint does not matter to any caller. -/
def bookingViolation : Violation → Err
  | .check => .plain "ERROR: value out of the domain of its column (SQLSTATE 22001)"
  | .unique => .plain "ERROR: duplicate key value violates unique constraint (SQLSTATE 23505)"

namespace BookingDB

def find (db : BookingDB) (id : String) : Option Booking := db.bookings.get (·.id == id)

/-- The stored status of a booking, if it is stored. -/
def status (db : BookingDB) (id : String) : Option BookingStatus := (db.find id).map (·.status)

end BookingDB

namespace BookingRepo

def insertOutbox (now : Time) (ev : BookingEvent) (db : BookingDB) : BookingDB :=
  { db with outbox := db.outbox ++ [{ ev with id := nextSerial (db.outbox.map (·.id)), createdAt := now, sentAt := none }] }

/-- `newID` is the key the database draws. -/
def create (now : Time) (newID : String) (b : Booking) (db : BookingDB) : Except Err Booking × BookingDB :=
  let row := { b with
    id := newID, paymentID := "", paymentURL := "", createdAt := now, updatedAt := now, completedEventSentAt := none }
  match db.bookings.insert row with
  | .error v => (.error (bookingViolation v), { db with issued := newID :: db.issued })
  | .ok bookings => (.ok { b with id := newID, createdAt := now, updatedAt := now },
      { db with bookings := bookings, issued := newID :: db.issued })

def delete (id : String) (db : BookingDB) : Except Err Unit × BookingDB :=
  match uuidParam id with
  | .error e => (.error e, db)
  | .ok id => (.ok (), { db with bookings := db.bookings.delete (·.id == id) })

/-- `UPDATE bookings SET … WHERE id = $1`, `NotFound` when there is no such row, then what else the transaction does. -/
def updateByID (id : String) (f : Booking → Booking) (andThen : BookingDB → BookingDB) (db : BookingDB) :
    Except Err Unit × BookingDB :=
  match uuidParam id with
  | .error e => (.error e, db)
  | .ok id =>
    match db.bookings.update (·.id == id) f with
    | .error v => (.error (bookingViolation v), db)
    | .ok bookings =>
      match db.find id with
      | none => (.error (.status .notFound "booking not found"), db)
      | some _ => (.ok (), andThen { db with bookings := bookings })

def setPaymentAndStatus (now : Time) (bookingID paymentID paymentURL : String) (status : BookingStatus)
    (ev : BookingEvent) (db : BookingDB) : Except Err Unit × BookingDB :=
  match uuidParam paymentID with
  | .error e => (.error e, db)
  | .ok paymentID =>
    updateByID bookingID (fun b => { b with
      paymentID := paymentID, paymentURL := paymentURL, status := status, updatedAt := now }) (insertOutbox now ev) db

def cancelWithEvent (now : Time) (id : String) (ev : BookingEvent) (db : BookingDB) : Except Err Unit × BookingDB :=
  updateByID id (fun b => { b with status := .cancelled, updatedAt := now }) (insertOutbox now ev) db

def updateStatus (now : Time) (id : String) (status : BookingStatus) (db : BookingDB) : Except Err Unit × BookingDB :=
  updateByID id (fun b => { b with status := status, updatedAt := now }) (fun db => db) db

def getByID (id : String) (db : BookingDB) : Except Err Booking :=
  match uuidParam id with
  | .error e => .error e
  | .ok id =>
    match db.find id with
    | some b => .ok b
    | none => .error (.status .notFound "booking not found")

/-- The guard of the `UPDATE` of `ConfirmPayment`. -/
def confirmable (id paymentID : String) (b : Booking) : Bool :=
  b.id == id && b.status == .paymentPending && (b.paymentID == "" || b.paymentID == paymentID)

def confirmRow (now : Time) (paymentID : String) (b : Booking) : Booking :=
  { b with status := .confirmed, paymentID := if b.paymentID == "" then paymentID else b.paymentID, updatedAt := now }

/-- The booking, and whether it has just been confirmed. -/
def confirmPayment (now : Time) (bookingID paymentID : String) (subject : BookingSubject) (db : BookingDB) :
    Except Err (Booking × Bool) × BookingDB :=
  match uuidParam bookingID, uuidParam paymentID with
  | .error e, _ => (.error e, db)
  | _, .error e => (.error e, db)
  | .ok bookingID, .ok paymentID =>
    match db.bookings.update (confirmable bookingID paymentID) (confirmRow now paymentID) with
    | .error v => (.error (bookingViolation v), db)
    | .ok bookings =>
      match db.bookings.get (confirmable bookingID paymentID) with
      | some b =>
        (.ok (confirmRow now paymentID b, true),
          insertOutbox now (newBookingEvent subject (confirmRow now paymentID b)) { db with bookings := bookings })
      | none =>
        match db.find bookingID with
        | none => (.error (.status .notFound "booking not found"), db)
        | some b =>
          match b.status with
          | .confirmed | .completed | .cancelled => (.ok (b, false), db)
          | .pending | .paymentPending => (.error (.status .invalidArgument
              ("payment does not match booking: booking has payment_id=" ++ b.paymentID ++ ", got " ++ paymentID)), db)

/-- An `UPDATE` of all rows with a property; the rows it changed. -/
def updateAll (p : Booking → Bool) (f : Booking → Booking) (db : BookingDB) : Except Err (List Booking) × BookingDB :=
  match db.bookings.update p f with
  | .error v => (.error (bookingViolation v), db)
  | .ok bookings => (.ok (db.bookings.select p), { db with bookings := bookings })

/-- A confirmed and paid booking whose visit is over. -/
def visitEnded (now : Time) (loc : Location) (b : Booking) : Bool :=
  b.status == .confirmed && b.paymentID != "" && decide (loc.instant b.date b.timeTo ≤ now)

def autoCompleteVisitEnded (now : Time) (loc : Location) (db : BookingDB) : Except Err (List Booking) × BookingDB :=
  updateAll (visitEnded now loc) (fun b => { b with status := .completed, updatedAt := now }) db

def markCompletedEventSent (now : Time) (bookingID : String) (db : BookingDB) : Except Err Unit × BookingDB :=
  match uuidParam bookingID with
  | .error e => (.error e, db)
  | .ok id =>
    match updateAll (·.id == id) (fun b => { b with completedEventSentAt := some now }) db with
    | (.error e, db) => (.error e, db)
    | (.ok _, db) => (.ok (), db)

/-- `ORDER BY updated_at LIMIT limit`. -/
def oldest (limit : ℕ) (l : List Booking) : List Booking :=
  (l.mergeSort fun a b => decide (a.updatedAt ≤ b.updatedAt)).take limit

def findUnpublishedCompleted (limit : ℕ) (db : BookingDB) : List Booking :=
  oldest limit (db.bookings.select fun b => b.status == .completed && b.completedEventSentAt.isNone)

/-- A booking left pending without a payment. -/
def orphan (now : Time) (olderThanMinutes : ℤ) (b : Booking) : Bool :=
  b.status == .pending && b.paymentID == "" && decide (b.createdAt < now - olderThanMinutes * 60)

def deleteOrphanPending (now : Time) (olderThanMinutes : ℤ) (db : BookingDB) : Except Err ℕ × BookingDB :=
  (.ok (db.bookings.select (orphan now olderThanMinutes)).length,
    { db with bookings := db.bookings.delete (orphan now olderThanMinutes) })

def findExpiredPaymentPending (now : Time) (olderThanMinutes : ℤ) (limit : ℕ) (db : BookingDB) : List String :=
  (oldest limit (db.bookings.select fun b =>
    b.status == .paymentPending && decide (b.updatedAt < now - olderThanMinutes * 60))).map (·.id)

end BookingRepo

end Agregator
