import Agregator.BookStore
import Agregator.ConcTrace
/-!
# BookUsecase — creating, confirming, completing and cancelling a booking

The operations of the booking service as programs over the calls they make: transactions of its database, requests to the
venue and the payment service, the broker and the clock.  What the other services answer is left to the environment.
-/
namespace Agregator

open Rel Conc

/-! ## The calls -/

structure ReserveSlotRequest where
  venueID : String
  bookingID : String
  date : String
  timeFrom : String
  timeTo : String
  hallIDs : List String
deriving DecidableEq, Repr

structure CreatePaymentRequest where
  bookingID : String
  amount : ℤ
  description : String
  idempotencyKey : String
  counterpartyType : String
  counterpartyID : String
  serviceAt : Option Time
deriving DecidableEq, Repr

/-- What `CreatePayment` answers: the payment and where to pay it. -/
structure CreatedPayment where
  id : String
  paymentURL : String
deriving DecidableEq, Repr

inductive BookOp where
  | getVenue (id : String)
  | checkSlotAvailability (req : ReserveSlotRequest)
  | reserveSlot (req : ReserveSlotRequest)
  | releaseSlot (venueID bookingID : String)
  | createPayment (req : CreatePaymentRequest)
  | publishBookingCompleted (payload : BookingEventPayload)
  | now
  | create (b : Booking)
  | delete (id : String)
  | setPaymentAndStatus (bookingID paymentID paymentURL : String) (status : BookingStatus) (ev : BookingEvent)
  | cancelWithEvent (id : String) (ev : BookingEvent)
  | updateStatus (id : String) (status : BookingStatus)
  | getByID (id : String)
  | confirmPayment (bookingID paymentID : String) (subject : BookingSubject)
  | autoCompleteVisitEnded
  | markCompletedEventSent (bookingID : String)
  | findUnpublishedCompleted (limit : ℕ)
  | deleteOrphanPending (olderThanMinutes : ℤ)
  | findExpiredPaymentPending (olderThanMinutes : ℤ) (limit : ℕ)
deriving DecidableEq

namespace BookOp

@[reducible] def Res : BookOp → Type
  | getVenue _ => Except Err (Option VenueResponse)
  | checkSlotAvailability _ => Except Err Bool
  | reserveSlot _ | releaseSlot _ _ | publishBookingCompleted _ => Except Err Unit
  | createPayment _ => Except Err CreatedPayment
  | now => Time
  | create _ | getByID _ => Except Err Booking
  | delete _ | setPaymentAndStatus _ _ _ _ _ | cancelWithEvent _ _ | updateStatus _ _ | markCompletedEventSent _ =>
      Except Err Unit
  | confirmPayment _ _ _ => Except Err (Booking × Bool)
  | autoCompleteVisitEnded | findUnpublishedCompleted _ => Except Err (List Booking)
  | deleteOrphanPending _ => Except Err ℕ
  | findExpiredPaymentPending _ _ => Except Err (List String)

end BookOp

abbrev BookProg := Prog BookOp BookOp.Res

abbrev BookOp.call (o : BookOp) : BookProg o.Res := Prog.perform o

open BookOp (call)

/-- The configuration; `sha256Hex` is the hash of the key of a payment. -/
structure BookingUseCase where
  loc : Location
  cancelDeadlineHours : ℤ
  sha256Hex : String → String

structure CreateBookingInput where
  userID : String
  venueID : String
  venueName : String
  serviceID : String
  serviceIDs : List String
  hallIDs : List String
  date : String
  timeFrom : String
  timeTo : String
  guests : ℤ
  comment : String
deriving DecidableEq, Repr

/-- `status.FromError(err)` of an error that came over the wire: its text without the code. -/
def Err.message (e : Err) : String :=
  String.ofList (e.text.toList.drop ("rpc error: code = " ++ e.code.name ++ " desc = ").length)

def invalidArgument (msg : String) : Err := .status .invalidArgument msg

/-! ## Creation -/

def parseTimeOfDay (ctx s : String) : Except Err TimeOfDay :=
  match TimeOfDay.parse s with
  | some t => .ok t
  | none => .error (invalidArgument (ctx ++ "неверный формат времени \"" ++ s ++ "\", ожидается ЧЧ:ММ"))

/-- The times of a draft and its length in minutes. -/
def CreateBookingInput.slot (input : CreateBookingInput) : Except Err (TimeOfDay × TimeOfDay × ℤ) :=
  match parseTimeOfDay "неверное время начала: " input.timeFrom with
  | .error err => .error err
  | .ok timeFrom =>
    match parseTimeOfDay "неверное время окончания: " input.timeTo with
    | .error err => .error err
    | .ok timeTo =>
      match timeFrom.minutesUntil timeTo with
      | none => .error (invalidArgument "время окончания должно быть позже времени начала")
      | some minutes =>
        if minutes < 30 then .error (invalidArgument "минимальная длительность брони 30 минут")
        else if 720 < minutes then .error (invalidArgument "максимальная длительность брони 12 часов")
        else .ok (timeFrom, timeTo, minutes)

/-- The draft a venue's answer makes of a request. -/
def CreateBookingInput.draft (input : CreateBookingInput) (v : VenueResponse) (slot : TimeOfDay × TimeOfDay × ℤ) :
    Except Err Booking :=
  let effectiveIDs := normalizeBookingServiceIDs input.serviceIDs input.serviceID
  let hallIDs := normalizeBookingHallIDs input.hallIDs
  match validateHallIDs v hallIDs with
  | .error err => .error err
  | .ok () =>
    match Date.parse input.date with
    | none => .error (invalidArgument "invalid date format, expected YYYY-MM-DD")
    | some date =>
      match computeBookingTotalPriceMulti v effectiveIDs hallIDs slot.2.2 date.isWeekendDay with
      | .error err => .error err
      | .ok totalPrice => .ok
        { id := "", userID := input.userID, venueID := input.venueID, venueName := input.venueName
          serviceID := (persistServiceFields effectiveIDs).1, packageServiceIDs := (persistServiceFields effectiveIDs).2
          hallIDs := hallIDs, date := date, timeFrom := slot.1, timeTo := slot.2.1, guests := input.guests
          comment := input.comment, status := .pending, totalPrice := totalPrice }

namespace BookingUseCase

variable (uc : BookingUseCase)

def idempotencyKey (bookingID userID : String) : String := uc.sha256Hex (bookingID ++ ":" ++ userID)

def paymentRequest (b : Booking) : CreatePaymentRequest where
  bookingID := b.id
  amount := b.totalPrice
  description := "Booking " ++ b.id
  idempotencyKey := uc.idempotencyKey b.id b.userID
  counterpartyType := "venue"
  counterpartyID := b.venueID
  serviceAt := some (b.timeFrom.toTimeIn b.date uc.loc)

/-- The compensation of a booking that cannot go on. -/
def undoBooking (b : Booking) (err : Err) : BookProg (Except Err Booking) := do
  let _ ← call (.releaseSlot b.venueID b.id)
  let _ ← call (.delete b.id)
  return .error err

/-- Steps 1 to 4: the row, the slot, the payment, the payment on the row. -/
def storeBooking (draft : Booking) (req : String → ReserveSlotRequest) : BookProg (Except Err Booking) := do
  match ← call (.create draft) with
  | .error err => return .error (err.wrap "create booking")
  | .ok b =>
    match ← call (.reserveSlot (req b.id)) with
    | .error err =>
      let _ ← call (.delete b.id)
      return .error (if err.code = .invalidArgument then invalidArgument err.message else err.wrap "reserve slot")
    | .ok () =>
      match ← call (.createPayment (uc.paymentRequest b)) with
      | .error err => undoBooking b (err.wrap "create payment")
      | .ok pay =>
        let b := { b with status := .paymentPending, paymentID := pay.id, paymentURL := pay.paymentURL }
        match ← call (.setPaymentAndStatus b.id pay.id pay.paymentURL .paymentPending (newBookingEvent .created b)) with
        | .error err => undoBooking b (err.wrap "finalize booking")
        | .ok () => return .ok b

def createBooking (input : CreateBookingInput) : BookProg (Except Err Booking) := do
  match input.slot with
  | .error err => return .error err
  | .ok slot =>
    match ← call (.getVenue input.venueID) with
    | .error err => return .error (err.wrap "get venue")
    | .ok none => return .error (.status .notFound "заведение не найдено")
    | .ok (some v) =>
      match input.draft v slot with
      | .error err => return .error err
      | .ok draft =>
        let req (bookingID : String) : ReserveSlotRequest :=
          { venueID := input.venueID, bookingID := bookingID, date := input.date, timeFrom := input.timeFrom
            timeTo := input.timeTo, hallIDs := draft.hallIDs }
        match ← call (.checkSlotAvailability (req "")) with
        | .error err => return .error (err.wrap "check slot")
        | .ok false => return .error (invalidArgument "выбранное время уже занято, выберите другое")
        | .ok true =>
          let now ← call .now
          if uc.loc.instant draft.date ⟨0, 0⟩ < uc.loc.instant (uc.loc.dateAt now) ⟨0, 0⟩ then
            return .error (invalidArgument "дата визита не может быть в прошлом")
          else
            uc.storeBooking draft req

/-! ## Cancellation, confirmation, completion -/

/-- Whether it is too late to cancel; no deadline, no look at the clock. -/
def pastDeadline (b : Booking) : BookProg Bool := do
  if 0 < uc.cancelDeadlineHours then
    let now ← call .now
    return decide (b.timeFrom.toTimeIn b.date uc.loc - uc.cancelDeadlineHours * 3600 < now)
  else return false

/-- `CancelWithEvent` of a booking as it was read, then its slot. -/
def storeCancelled (id : String) (b : Booking) : BookProg (Except Err Booking) := do
  let b := { b with status := .cancelled }
  match ← call (.cancelWithEvent id (newBookingEvent .cancelled b)) with
  | .error err => return .error err
  | .ok () =>
    let _ ← call (.releaseSlot b.venueID b.id)
    return .ok b

def cancelBooking (id userID : String) : BookProg (Except Err Booking) := do
  match ← call (.getByID id) with
  | .error err => return .error err
  | .ok b =>
    if b.userID ≠ userID then return .error (.status .permissionDenied "not your booking")
    else if b.canCancel = false then
      return .error (invalidArgument "booking cannot be cancelled in current status")
    else if ← uc.pastDeadline b then
      return .error (invalidArgument ("отмена невозможна: до начала визита менее " ++ toString uc.cancelDeadlineHours ++ " ч."))
    else
      storeCancelled id b

def confirmBooking (id paymentID : String) : BookProg (Option Err) := do
  match ← call (.confirmPayment id paymentID .confirmed) with
  | .error err => return some err
  | .ok _ => return none

def completeBooking (id : String) : BookProg (Except Err Booking) := do
  match ← call (.getByID id) with
  | .error err => return .error err
  | .ok b =>
    if b.canComplete = false then
      return .error (invalidArgument "only confirmed bookings with payment can be completed")
    else
      match ← call (.updateStatus id .completed) with
      | .error err => return .error err
      | .ok () => return .ok { b with status := .completed }

def cancelBookingByPayment (bookingID : String) : BookProg (Option Err) := do
  match ← call (.getByID bookingID) with
  | .error err => if err.code = .notFound then return none else return some err
  | .ok b =>
    if b.status ≠ .paymentPending then return none
    else
      match ← storeCancelled bookingID b with
      | .error err => return some err
      | .ok _ => return none

/-! ## The tickers -/

/-- `booking.completed` for each row, which carries no more of it than its keys; how many were published. -/
def publishCompleted : List Booking → BookProg ℕ
  | [] => return 0
  | ref :: refs => do
    let payload : BookingEventPayload :=
      { bookingID := ref.id, userID := ref.userID, venueID := ref.venueID, status := BookingStatus.completed.string
        totalPrice := 0, date := "0001-01-01", guests := 0 }
    match ← call (.publishBookingCompleted payload) with
    | .error _ => publishCompleted refs
    | .ok () =>
      let _ ← call (.markCompletedEventSent ref.id)
      let n ← publishCompleted refs
      return n + 1

def orphanPendingMaxAgeMinutes : ℤ := 15

def autoCompletePastVisits : BookProg (Except Err ℕ) := do
  match ← call .autoCompleteVisitEnded with
  | .error err => return .error err
  | .ok refs =>
    let published ← publishCompleted refs
    let catchUp ← call (.findUnpublishedCompleted 100)
    let published' ← publishCompleted (catchUp.toOption.getD [])
    let _ ← call (.deleteOrphanPending orphanPendingMaxAgeMinutes)
    return .ok (published + published')

def unpaidBookingMaxAgeMinutes : ℤ := 15

/-- An error of one booking does not keep the others. -/
def expireEach : List String → BookProg ℕ
  | [] => return 0
  | id :: ids => do
    match ← cancelBookingByPayment id with
    | some _ => expireEach ids
    | none =>
      let n ← expireEach ids
      return n + 1

def expireUnpaidBookings : BookProg (Except Err ℕ) := do
  match ← call (.findExpiredPaymentPending unpaidBookingMaxAgeMinutes 100) with
  | .error err => return .error err
  | .ok ids =>
    let expired ← expireEach ids
    return .ok expired

end BookingUseCase

/-! ## What the calls do -/

/-- What the environment has in store for a call: the time, the key the database draws, whether the transaction is lost,
and the answers of the other services. -/
structure BookEnv where
  now : Time
  newID : String
  fault : Fault String
  getVenue : Except Err (Option VenueResponse)
  checkSlot : Except Err Bool
  reserveSlot : Except Err Unit
  releaseSlot : Except Err Unit
  createPayment : Except Err CreatedPayment
  publish : Except Err Unit

namespace BookOp

def run (loc : Location) (env : BookEnv) : (o : BookOp) → BookingDB → o.Res × BookingDB
  | getVenue _, db => (env.getVenue, db)
  | checkSlotAvailability _, db => (env.checkSlot, db)
  | reserveSlot _, db => (env.reserveSlot, db)
  | releaseSlot _ _, db => (env.releaseSlot, db)
  | createPayment _, db => (env.createPayment, db)
  | publishBookingCompleted _, db => (env.publish, db)
  | now, db => (env.now, db)
  | create b, db => env.fault.apply Err.plain (BookingRepo.create env.now env.newID b) db
  | delete id, db => env.fault.apply Err.plain (BookingRepo.delete id) db
  | setPaymentAndStatus id pid url st ev, db => env.fault.apply Err.plain
      (BookingRepo.setPaymentAndStatus env.now id pid url st ev) db
  | cancelWithEvent id ev, db => env.fault.apply Err.plain (BookingRepo.cancelWithEvent env.now id ev) db
  | updateStatus id st, db => env.fault.apply Err.plain (BookingRepo.updateStatus env.now id st) db
  | getByID id, db => env.fault.apply Err.plain (fun db => (BookingRepo.getByID id db, db)) db
  | confirmPayment id pid subject, db => env.fault.apply Err.plain (BookingRepo.confirmPayment env.now id pid subject) db
  | autoCompleteVisitEnded, db => env.fault.apply Err.plain (BookingRepo.autoCompleteVisitEnded env.now loc) db
  | markCompletedEventSent id, db => env.fault.apply Err.plain (BookingRepo.markCompletedEventSent env.now id) db
  | findUnpublishedCompleted limit, db => env.fault.apply Err.plain
      (fun db => (.ok (BookingRepo.findUnpublishedCompleted limit db), db)) db
  | deleteOrphanPending age, db => env.fault.apply Err.plain (BookingRepo.deleteOrphanPending env.now age) db
  | findExpiredPaymentPending age limit, db => env.fault.apply Err.plain
      (fun db => (.ok (BookingRepo.findExpiredPaymentPending env.now age limit db), db)) db

/-- A call in some environment, whose next key has not been given out before. -/
def Exec (loc : Location) (o : BookOp) (db : BookingDB) (r : o.Res) (db' : BookingDB) : Prop :=
  ∃ env : BookEnv, env.newID ∉ db.issued ∧ o.run loc env db = (r, db')

end BookOp

/-! ## The service -/

inductive BookCall where
  | createBooking (input : CreateBookingInput)
  | cancelBooking (id userID : String)
  | confirmBooking (id paymentID : String)
  | completeBooking (id : String)
  | cancelBookingByPayment (bookingID : String)
  | autoCompletePastVisits
  | expireUnpaidBookings
deriving DecidableEq

/-- The error of an answer. -/
def Except.err? {α : Type} : Except Err α → Option Err
  | .ok _ => none
  | .error e => some e

def BookCall.prog (uc : BookingUseCase) : BookCall → BookProg (Option Err)
  | createBooking input => return Except.err? (← uc.createBooking input)
  | cancelBooking id userID => return Except.err? (← uc.cancelBooking id userID)
  | confirmBooking id paymentID => BookingUseCase.confirmBooking id paymentID
  | completeBooking id => return Except.err? (← BookingUseCase.completeBooking id)
  | cancelBookingByPayment bookingID => BookingUseCase.cancelBookingByPayment bookingID
  | autoCompletePastVisits => return Except.err? (← BookingUseCase.autoCompletePastVisits)
  | expireUnpaidBookings => return Except.err? (← BookingUseCase.expireUnpaidBookings)

/-- The booking service: any of its operations, any number of them at once. -/
def bookSys (uc : BookingUseCase) : Sys BookingDB BookCall BookOp BookOp.Res (Option Err) where
  prog := BookCall.prog uc
  ready _ _ := True
  exec := BookOp.Exec uc.loc
  env _ _ := False

end Agregator
