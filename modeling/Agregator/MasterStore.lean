import Agregator.MasterDomain
import Agregator.RelTable
/-!
# MasterStore — the bookings of the masters

`master_bookings` with its exclusion constraint, and the statements on it.  Every function here is one statement.
-/
namespace Agregator

open Rel

/-- `tsrange(…) && tsrange(…)` of two bookings of one date; an empty range overlaps none. -/
def MasterBooking.overlaps (a b : MasterBooking) : Bool :=
  a.date == b.date && decide (a.timeFrom.minutesSinceStart < a.timeTo.minutesSinceStart) &&
    decide (b.timeFrom.minutesSinceStart < b.timeTo.minutesSinceStart) &&
    decide (a.timeFrom.minutesSinceStart < b.timeTo.minutesSinceStart) &&
    decide (b.timeFrom.minutesSinceStart < a.timeTo.minutesSinceStart)

/-- `master_bookings_no_overlap`. -/
def MasterBooking.excludes (a b : MasterBooking) : Bool :=
  a.masterID == b.masterID && a.status != .cancelled && b.status != .cancelled && a.overlaps b

theorem MasterBooking.excludes_comm (a b : MasterBooking) : a.excludes b = b.excludes a := by
  unfold MasterBooking.excludes MasterBooking.overlaps
  rw [Bool.beq_comm (a := a.masterID), Bool.beq_comm (a := a.date)]
  grind

def masterBookingSchema : Schema MasterBooking where
  check b := isUUID b.id && isUUID b.masterID && isUUID b.clientUserID && b.masterServiceID.all isUUID &&
    decide (b.paymentID.length ≤ 64)
  clash a b := a.id == b.id || a.excludes b
  clash_comm a b := by rw [Bool.beq_comm, MasterBooking.excludes_comm]

abbrev MasterDB := Table masterBookingSchema

/-- What the text of a failed statement says does not matter to any caller. -/
def masterViolation : Violation → MasterErr
  | .check => .other (.plain "ERROR: value out of the domain of its column (SQLSTATE 22001)")
  | .unique => .other (.plain "ERROR: conflicting key value violates a constraint (SQLSTATE 23505)")

def MasterDB.find (db : MasterDB) (id : String) : Option MasterBooking := db.get (·.id == id)

/-- The stored status of a booking, if it is stored. -/
def MasterDB.statusOf (db : MasterDB) (id : String) : Option BookingStatus := (db.find id).map (·.status)

namespace MasterRepo

/-- A conflict that is not one of the keys is one of the times. -/
def insertBooking (now : Time) (b : MasterBooking) (db : MasterDB) : Except MasterErr Unit × MasterDB :=
  match db.insert { b with createdAt := now } with
  | .ok db => (.ok (), db)
  | .error .check => (.error (masterViolation .check), db)
  | .error .unique => (.error (if (db.find b.id).isSome then masterViolation .unique else .slotTaken), db)

def deleteBooking (bookingID : String) (db : MasterDB) : Except MasterErr Unit × MasterDB :=
  (.ok (), db.delete (·.id == bookingID))

def getBookingByID (bookingID : String) (db : MasterDB) : Except MasterErr (Option MasterBooking) := .ok (db.find bookingID)

/-- An `UPDATE`, and whether it has changed a row. -/
def updateRows (p : MasterBooking → Bool) (f : MasterBooking → MasterBooking) (db : MasterDB) :
    Except MasterErr Bool × MasterDB :=
  match db.update p f with
  | .error v => (.error (masterViolation v), db)
  | .ok db' => (.ok (db.get p).isSome, db')

def setBookingPayment (bookingID paymentID paymentURL : String) (totalPrice : ℤ) (status : BookingStatus) (db : MasterDB) :
    Except MasterErr Unit × MasterDB :=
  let paymentID := trimSpace paymentID
  let paymentURL := trimSpace paymentURL
  match updateRows (·.id == bookingID) (fun b => { b with
      paymentID := paymentID, paymentURL := paymentURL, totalPrice := totalPrice, status := status }) db with
  | (.error err, db) => (.error err, db)
  | (.ok found, db) => (if found then .ok () else .error .notFound, db)

/-- The guard of the `UPDATE` by a payment. -/
def awaits (bookingID paymentID : String) (b : MasterBooking) : Bool :=
  b.id == bookingID && b.status == .paymentPending && (b.paymentID == "" || b.paymentID == paymentID)

/-- The `UPDATE` of `ConfirmBookingByPayment` and of `CancelBookingByPayment`. -/
def updateByPayment (target : BookingStatus) (bookingID paymentID : String) (db : MasterDB) : Except MasterErr Bool × MasterDB :=
  updateRows (awaits bookingID paymentID) (fun b => { b with status := target, paymentID := paymentID }) db

/-- The `SELECT` of `classifyBookingPaymentNoOp`. -/
def selectPayment (bookingID : String) (db : MasterDB) : Except MasterErr (Option (BookingStatus × String)) :=
  .ok ((db.find bookingID).map fun b => (b.status, b.paymentID))

end MasterRepo

end Agregator
