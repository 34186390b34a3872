import Agregator.BookUsecase
import Agregator.MasterStore
import Agregator.PayDomain
/-!
# MasterUsecase — booking a master, and the events of its payment

`CreateBooking` and the consumer of `payment.completed` and `payment.failed` as programs over their statements and their
requests.  A confirmation is an `UPDATE` and, where that has met no row, a `SELECT` that tells why.
-/
namespace Agregator

open Rel Conc

/-! ## The calls -/

inductive MasterOp where
  | now
  | newUUID
  | getBySlug (slug : String)
  | hasSlotBlockConflict (masterID : String) (date : Date) (timeFrom timeTo : TimeOfDay)
  | createPayment (req : CreatePaymentRequest)
  | insertBooking (b : MasterBooking)
  | deleteBooking (bookingID : String)
  | setBookingPayment (bookingID paymentID paymentURL : String) (totalPrice : ℤ) (status : BookingStatus)
  | getBookingByID (bookingID : String)
  | updateByPayment (target : BookingStatus) (bookingID paymentID : String)
  | selectPayment (bookingID : String)
deriving DecidableEq

namespace MasterOp

@[reducible] def Res : MasterOp → Type
  | now => Time
  | newUUID => String
  | getBySlug _ => Except MasterErr (Option Master)
  | hasSlotBlockConflict _ _ _ _ => Except MasterErr Bool
  | createPayment _ => Except MasterErr CreatedPayment
  | insertBooking _ | deleteBooking _ | setBookingPayment _ _ _ _ _ => Except MasterErr Unit
  | getBookingByID _ => Except MasterErr (Option MasterBooking)
  | updateByPayment _ _ _ => Except MasterErr Bool
  | selectPayment _ => Except MasterErr (Option (BookingStatus × String))

end MasterOp

abbrev MasterProg := Prog MasterOp MasterOp.Res

abbrev MasterOp.call (o : MasterOp) : MasterProg o.Res := Prog.perform o

open MasterOp (call)

/-- `moscowDate` is the date in Moscow; `sha256Hex` the hash of the key of a payment. -/
structure MasterUseCase where
  moscowDate : Time → Date
  sha256Hex : String → String

structure CreateMasterBookingInput where
  clientUserID : String
  masterSlug : String
  serviceID : Option String
  date : String
  timeFrom : String
  timeTo : String
  comment : String
deriving DecidableEq, Repr

/-! ## Creation -/

namespace MasterUseCase

variable (uc : MasterUseCase)

def masterBookingIdempotencyKey (bookingID clientUserID : String) : String :=
  uc.sha256Hex (bookingID ++ ":" ++ clientUserID)

def paymentRequest (b : MasterBooking) : CreatePaymentRequest where
  bookingID := b.id
  amount := b.totalPrice
  description := "Master booking " ++ b.id
  idempotencyKey := uc.masterBookingIdempotencyKey b.id b.clientUserID
  counterpartyType := "master"
  counterpartyID := b.masterID
  serviceAt := none

/-- The checks of a request on the master's profile: its slot and its price. -/
def checkBooking (m : Master) (inp : CreateMasterBookingInput) (now : Time) :
    Except MasterErr ((Date × TimeOfDay × TimeOfDay) × ℤ) :=
  match m.validatePayoutProfile with
  | .error err => .error (.other (.status .invalidArgument err.message))
  | .ok () =>
    match validateBookingSlot (uc.moscowDate now) inp.date inp.timeFrom inp.timeTo with
    | .error err => .error (.other err)
    | .ok slot =>
      match estimateMasterBookingPriceKopecks m inp.serviceID slot with
      | .error err => .error (.other err)
      | .ok totalPrice => .ok (slot, totalPrice)

def MasterErr.wrap (ctx : String) : MasterErr → MasterErr
  | .other err => .other (err.wrap ctx)
  | err => err

/-- The saga: the row, the payment, the payment on the row; the row is deleted when it cannot go on.  The answer is the row
as it is stored then, which is nil when it is gone. -/
def storeBooking (b : MasterBooking) : MasterProg (Except MasterErr (Option MasterBooking)) := do
  match ← call (.insertBooking b) with
  | .error .slotTaken => return .error (.other (.status .aborted "это время уже забронировано — выберите другой слот"))
  | .error err => return .error err
  | .ok () =>
    match ← call (.createPayment (uc.paymentRequest b)) with
    | .error err =>
      let _ ← call (.deleteBooking b.id)
      return .error (MasterErr.wrap "create payment" err)
    | .ok pay =>
      let b := { b with
        paymentID := trimSpace pay.id, paymentURL := trimSpace pay.paymentURL, status := .paymentPending }
      match ← call (.setBookingPayment b.id b.paymentID b.paymentURL b.totalPrice b.status) with
      | .error err =>
        let _ ← call (.deleteBooking b.id)
        return .error (MasterErr.wrap "set booking payment" err)
      | .ok () =>
        match ← call (.getBookingByID b.id) with
        | .error _ => return .ok (some b)
        | .ok fresh => return .ok fresh

def createBooking (inp : CreateMasterBookingInput) : MasterProg (Except MasterErr (Option MasterBooking)) := do
  let comment := trimSpace inp.comment
  if maxBookingCommentLength < comment.length then
    return .error (.other (.status .invalidArgument ("comment must not exceed " ++ toString maxBookingCommentLength ++ " characters")))
  else
    match ← call (.getBySlug inp.masterSlug) with
    | .error err => return .error err
    | .ok none => return .error (.other (.status .notFound "master is not available for booking"))
    | .ok (some m) =>
      if m.status ≠ "active" then return .error (.other (.status .notFound "master is not available for booking"))
      else if inp.serviceID.any fun id => m.services.all (·.id != id) then
        return .error (.other (.status .invalidArgument "unknown service"))
      else
        let now ← call .now
        match uc.checkBooking m inp now with
        | .error err => return .error err
        | .ok (slot, totalPrice) =>
          match ← call (.hasSlotBlockConflict m.id slot.1 slot.2.1 slot.2.2) with
          | .error err => return .error err
          | .ok true => return .error (.other (.status .failedPrecondition "мастер недоступен в выбранное время"))
          | .ok false =>
            let id ← call .newUUID
            uc.storeBooking
              { id := id, masterID := m.id, clientUserID := inp.clientUserID, masterServiceID := inp.serviceID
                date := slot.1, timeFrom := slot.2.1, timeTo := slot.2.2, comment := comment, status := .pending
                totalPrice := totalPrice }

end MasterUseCase

/-! ## By its payment -/

/-- Why no row was met. -/
def classifyBookingPaymentNoOp (target : BookingStatus) (bookingID paymentID : String) : MasterProg (Option MasterErr) := do
  match ← call (.selectPayment bookingID) with
  | .error err => return some err
  | .ok none => return some .notFound
  | .ok (some (curStatus, curPaymentID)) =>
    if curStatus = target then return none
    else if curPaymentID ≠ "" ∧ curPaymentID ≠ paymentID then return some .paymentMismatch
    else return some (.bookingNotPending curStatus.string)

def moveByPayment (target : BookingStatus) (bookingID paymentID : String) : MasterProg (Option MasterErr) :=
  let bid := trimSpace bookingID
  if isUUID bid = false then return some (.invalidArgument "invalid booking_id")
  else do
    let paymentID := trimSpace paymentID
    match ← call (.updateByPayment target bid paymentID) with
    | .error err => return some err
    | .ok true => return none
    | .ok false => classifyBookingPaymentNoOp target bid paymentID

def confirmBookingByPayment (bookingID paymentID : String) : MasterProg (Option MasterErr) :=
  moveByPayment .confirmed bookingID paymentID

def cancelBookingByPayment (bookingID paymentID : String) : MasterProg (Option MasterErr) :=
  moveByPayment .cancelled bookingID paymentID

/-! ## The consumer -/

/-- What the consumer has been given of the use case. -/
structure MasterSubscriber where
  confirmBookingByPayment : String → String → MasterProg (Option MasterErr)
  cancelBookingByPayment : String → String → MasterProg (Option MasterErr)

/-- A conflict is not retried. -/
def MasterErr.answer : MasterErr → Answer
  | .bookingNotPending _ | .paymentMismatch | .invalidArgument _ => .ack
  | .notFound | .slotTaken | .other _ => .nak

namespace MasterSubscriber

/-- A message of one subject; a payload that cannot be read is `none`. -/
def handlePayment (expected : String) (move : String → String → MasterProg (Option MasterErr)) :
    Option PaymentEventPayload → MasterProg Answer
  | none => return .nak
  | some evt =>
    if evt.status ≠ expected then return .ack
    else if evt.bookingID = "" ∨ evt.paymentID = "" then return .ack
    else do
      match ← move evt.bookingID evt.paymentID with
      | some err => return err.answer
      | none => return .ack

def paymentStatusCompleted : String := "completed"

def paymentStatusFailed : String := "failed"

variable (s : MasterSubscriber)

def handlePaymentCompleted (data : Option PaymentEventPayload) : MasterProg Answer :=
  handlePayment paymentStatusCompleted s.confirmBookingByPayment data

def handlePaymentFailed (data : Option PaymentEventPayload) : MasterProg Answer :=
  handlePayment paymentStatusFailed s.cancelBookingByPayment data

end MasterSubscriber

end Agregator
