import Agregator.GoBase
/-!
# BookDomain — bookings, their statuses and their price

The entity of the booking service with its checks on the status, the `booking.*` events, and the price of a draft.  A
column that may be `NULL` is read back as the empty string or list, and is that here.
-/
namespace Agregator

/-! ## Statuses -/

inductive BookingStatus where
  | pending
  | paymentPending
  | confirmed
  | completed
  | cancelled
deriving DecidableEq, Repr

namespace BookingStatus

def string : BookingStatus → String
  | pending => "pending"
  | paymentPending => "payment_pending"
  | confirmed => "confirmed"
  | completed => "completed"
  | cancelled => "cancelled"

def isTerminal : BookingStatus → Bool
  | completed | cancelled => true
  | pending | paymentPending | confirmed => false

/-- The transitions of the service: pending, payment_pending, confirmed, completed in this order, and cancelled from
each but the last. -/
def next : BookingStatus → BookingStatus → Bool
  | pending, paymentPending | pending, confirmed | pending, cancelled => true
  | paymentPending, confirmed | paymentPending, cancelled => true
  | confirmed, completed | confirmed, cancelled => true
  | _, _ => false

theorem next_of_terminal {s s' : BookingStatus} (h : s.isTerminal = true) : s.next s' = false := by
  cases s <;> cases s' <;> simp_all [isTerminal, next]

end BookingStatus

/-! ## Bookings -/

/-- A booking, with the column `completed_event_sent_at` that only the store reads. -/
structure Booking where
  id : String
  userID : String
  venueID : String
  venueName : String
  serviceID : String
  packageServiceIDs : List String
  hallIDs : List String
  date : Date
  timeFrom : TimeOfDay
  timeTo : TimeOfDay
  guests : ℤ
  comment : String
  status : BookingStatus
  totalPrice : ℤ
  paymentID : String := ""
  paymentURL : String := ""
  createdAt : Time := 0
  updatedAt : Time := 0
  completedEventSentAt : Option Time := none
deriving DecidableEq, Repr

namespace Booking

variable (b : Booking)

def isTerminal : Bool := b.status.isTerminal

def canCancel : Bool := !b.isTerminal

def canComplete : Bool := b.status == .confirmed && b.paymentID != ""

end Booking

inductive BookingSubject where
  | created
  | confirmed
  | cancelled
  | completed
deriving DecidableEq, Repr

structure BookingEventPayload where
  bookingID : String
  userID : String
  venueID : String
  status : String
  totalPrice : ℤ
  date : String
  guests : ℤ
deriving DecidableEq, Repr

/-- A row of `outbox_events`. -/
structure BookingEvent where
  id : ℤ := 0
  subject : BookingSubject
  payload : BookingEventPayload
  createdAt : Time := 0
  sentAt : Option Time := none
deriving DecidableEq, Repr

/-- The payload is made of strings and numbers, which always marshal. -/
def newBookingEvent (subject : BookingSubject) (b : Booking) : BookingEvent where
  subject := subject
  payload :=
    { bookingID := b.id, userID := b.userID, venueID := b.venueID, status := b.status.string
      totalPrice := b.totalPrice, date := b.date.string, guests := b.guests }

/-! ## What a draft costs -/

structure VenueHallInfo where
  id : String
  priceFrom : ℤ
  priceWeekend : ℤ
deriving DecidableEq, Repr

structure VenueServiceItem where
  id : String
  price : ℤ
deriving DecidableEq, Repr

/-- What `GetVenue` tells a booking. -/
structure VenueResponse where
  priceFrom : ℤ
  priceWeekend : ℤ
  services : List VenueServiceItem
  halls : List VenueHallInfo
deriving DecidableEq, Repr

def weekendRate (weekday weekend : ℤ) (isWeekend : Bool) : ℤ :=
  if isWeekend && decide (0 < weekend) then weekend else weekday

def hourlyTotal (priceFrom minutes : ℤ) : ℤ :=
  if minutes ≤ 0 ∨ priceFrom ≤ 0 then 0 else int64 (priceFrom * max ((minutes + 59) / 60) 1)

/-- The identifiers trimmed, without the empty ones and the repeated ones. -/
def normalizeIDs (fromList : List String) : List String :=
  fromList.foldl (fun out raw =>
    let id := trimSpace raw
    if id == "" || out.contains id then out else out ++ [id]) []

def normalizeBookingHallIDs (fromList : List String) : List String := normalizeIDs fromList

def normalizeBookingServiceIDs (fromList : List String) (legacy : String) : List String :=
  match normalizeIDs fromList with
  | [] => if trimSpace legacy != "" then [trimSpace legacy] else []
  | out => out

def validateHallIDs (v : VenueResponse) (ids : List String) : Except Err Unit :=
  if ids.all fun id => v.halls.any (·.id == id) then .ok ()
  else .error (.status .invalidArgument "выбранный зал не найден в этом заведении")

/-- Of halls with one id the last one counts, and a hall that is not there costs nothing. -/
def hallRate (v : VenueResponse) (isWeekend : Bool) (id : String) : ℤ :=
  match v.halls.reverse.find? (·.id == id) with
  | some h => weekendRate h.priceFrom h.priceWeekend isWeekend
  | none => 0

def effectiveHourlyPriceFromVenueAndHalls (v : VenueResponse) (hallIDs : List String) (isWeekend : Bool) : ℤ :=
  hallIDs.foldl (fun base raw =>
    let hid := trimSpace raw
    if hid == "" then base else max base (hallRate v isWeekend hid)) (weekendRate v.priceFrom v.priceWeekend isWeekend)

/-- The sum over the services, and how many of them are paid by the hour. -/
def sumServices (v : VenueResponse) (hourly : ℤ) : List String → ℤ → ℕ → Except Err (ℤ × ℕ)
  | [], sum, hourlyParts => .ok (sum, hourlyParts)
  | raw :: rest, sum, hourlyParts =>
    let sid := trimSpace raw
    if sid == "" then sumServices v hourly rest sum hourlyParts
    else
      match v.services.find? (·.id == sid) with
      | none => .error (.status .invalidArgument "выбранная услуга не найдена у этого заведения")
      | some s =>
        if 0 < s.price then sumServices v hourly rest (int64 (sum + s.price)) hourlyParts
        else sumServices v hourly rest (int64 (sum + hourly)) (hourlyParts + 1)

def computeBookingTotalPriceMulti (v : VenueResponse) (serviceIDs hallIDs : List String) (minutes : ℤ)
    (isWeekend : Bool) : Except Err ℤ :=
  let hourly := hourlyTotal (effectiveHourlyPriceFromVenueAndHalls v hallIDs isWeekend) minutes
  if serviceIDs.isEmpty then .ok hourly
  else
    match sumServices v hourly serviceIDs 0 0 with
    | .error err => .error err
    | .ok (sum, hourlyParts) =>
      if 1 < hourlyParts then
        .error (.status .invalidArgument "в одной брони можно не более одной услуги без фиксированной цены — выберите пакеты с ценой или только почасовой тариф")
      else .ok sum

/-- One service stands in its own column, several in the list. -/
def persistServiceFields : List String → String × List String
  | [] => ("", [])
  | [id] => (id, [])
  | ids => ("", ids)

end Agregator
