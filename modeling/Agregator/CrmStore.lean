import Agregator.BookDomain
import Agregator.ConcProg
import Agregator.RankSelect
import Agregator.RelTable
/-!
# CrmStore — the guest projection

`crm_guest_booking_facts` and `crm_guest_profiles`, the transaction that applies a fact, and the consumer of `booking.*`.  A
`DATE` is the number of its day.  The columns take integers of their widths only; a profile that does not fit makes the
transaction fail.
-/
namespace Agregator

open Rel Conc

/-! ## Facts -/

/-- Terminal statuses share the top rank; what is not known has the lowest. -/
def bookingStatusRank (status : String) : ℕ :=
  if status = "completed" ∨ status = "cancelled" then 3
  else if status = "confirmed" then 2
  else 1

structure BookingFact where
  bookingID : String
  venueID : String
  userID : String
  status : String
  statusRank : ℕ
  totalPrice : ℤ
  visitDate : Option ℤ
  guests : ℤ
deriving DecidableEq, Repr

/-- A date that is not one is left out. -/
def bookingEventToFact (evt : BookingEventPayload) : Except Err BookingFact :=
  match parseUUID evt.bookingID, parseUUID evt.venueID, parseUUID evt.userID with
  | .ok bookingID, .ok venueID, .ok userID => .ok
    { bookingID := bookingID, venueID := venueID, userID := userID, status := evt.status
      statusRank := bookingStatusRank evt.status, totalPrice := evt.totalPrice
      visitDate := (Date.parse evt.date).map fun d => (d.dayNumber : ℤ), guests := evt.guests }
  | .error err, _, _ | _, .error err, _ | _, _, .error err => .error err

/-! ## Tables -/

/-- A row of `crm_guest_booking_facts`. -/
structure StoredFact extends BookingFact where
  createdAt : Time
  updatedAt : Time
deriving DecidableEq, Repr

/-- A value of a column of `bits` bits. -/
def fitsInt (bits : ℕ) (x : ℤ) : Bool := decide (-2 ^ (bits - 1) ≤ x) && decide (x < 2 ^ (bits - 1))

def factSchema : Schema StoredFact where
  check f := fitsInt 64 f.totalPrice && fitsInt 32 f.guests && fitsInt 16 f.statusRank
  clash a b := a.bookingID == b.bookingID
  clash_comm a b := by simp only [Bool.beq_comm]

/-- What a profile counts of the bookings of its guest. -/
structure GuestCounts where
  bookingsCount : ℕ
  visitsCount : ℕ
  cancellationsCount : ℕ
  totalSpent : ℤ
  firstVisitAt : Option ℤ
  lastVisitAt : Option ℤ
deriving DecidableEq, Repr

structure GuestProfile extends GuestCounts where
  venueID : String
  userID : String
  noShowCount : ℕ := 0
  lastBookingAt : Option Time
  updatedAt : Time
deriving DecidableEq, Repr

def profileSchema : Schema GuestProfile where
  check p := fitsInt 32 p.bookingsCount && fitsInt 32 p.visitsCount && fitsInt 32 p.cancellationsCount &&
    fitsInt 64 p.totalSpent
  clash a b := a.venueID == b.venueID && a.userID == b.userID
  clash_comm a b := by simp only [Bool.beq_comm]

structure CrmDB where
  facts : Table factSchema
  profiles : Table profileSchema

def crmViolation (ctx : String) : Violation → Err
  | .check => (Err.plain "ERROR: value out of range (SQLSTATE 22003)").wrap ctx
  | .unique => (Err.plain "ERROR: duplicate key value violates unique constraint (SQLSTATE 23505)").wrap ctx

namespace CrmDB

def fact (db : CrmDB) (bookingID : String) : Option StoredFact := db.facts.get (·.bookingID == bookingID)

/-- The facts of a guest at a venue. -/
def guestFacts (db : CrmDB) (venueID userID : String) : List StoredFact :=
  db.facts.select fun f => f.venueID == venueID && f.userID == userID

def profile (db : CrmDB) (venueID userID : String) : Option GuestProfile :=
  db.profiles.get fun p => p.venueID == venueID && p.userID == userID

end CrmDB

/-! ## One fact -/

/-- The aggregates of the recomputation. -/
def GuestCounts.ofFacts (facts : List BookingFact) : GuestCounts :=
  let completed := facts.filter (·.status == "completed")
  { bookingsCount := facts.length
    visitsCount := completed.length
    cancellationsCount := (facts.filter (·.status == "cancelled")).length
    totalSpent := (completed.map (·.totalPrice)).sum
    firstVisitAt := (completed.filterMap (·.visitDate)).min?
    lastVisitAt := (completed.filterMap (·.visitDate)).max? }

namespace CrmRepo

/-- The row of a booking takes a fact of a rank not lower than its own; its guest and venue stay. -/
def upsertFact (now : Time) (f : BookingFact) (facts : Table factSchema) : Except Violation (Table factSchema) :=
  match facts.get (·.bookingID == f.bookingID) with
  | none => facts.insert { f with createdAt := now, updatedAt := now }
  | some _ => facts.update (fun r => r.bookingID == f.bookingID && decide (r.statusRank ≤ f.statusRank)) fun r => { r with
      status := f.status, statusRank := f.statusRank, totalPrice := f.totalPrice, visitDate := f.visitDate
      guests := f.guests, updatedAt := now }

/-- The profile of a guest, from all the facts; `no_show_count` is left as it is. -/
def recomputeProfile (now : Time) (venueID userID : String) (facts : List StoredFact) (profiles : Table profileSchema) :
    Except Violation (Table profileSchema) :=
  let counts := GuestCounts.ofFacts (facts.map (·.toBookingFact))
  let lastBookingAt := (facts.map (·.createdAt)).max?
  match profiles.get (fun p => p.venueID == venueID && p.userID == userID) with
  | none => profiles.insert
    { counts with venueID := venueID, userID := userID, lastBookingAt := lastBookingAt, updatedAt := now }
  | some _ => profiles.update (fun p => p.venueID == venueID && p.userID == userID) fun p =>
    { p with toGuestCounts := counts, lastBookingAt := lastBookingAt, updatedAt := now }

def applyBookingFact (now : Time) (f : BookingFact) (db : CrmDB) : Except Err Unit × CrmDB :=
  match upsertFact now f db.facts with
  | .error v => (.error (crmViolation "upsert booking fact" v), db)
  | .ok facts =>
    match recomputeProfile now f.venueID f.userID
        (facts.select fun r => r.venueID == f.venueID && r.userID == f.userID) db.profiles with
    | .error v => (.error (crmViolation "recompute guest profile" v), db)
    | .ok profiles => (.ok (), ⟨facts, profiles⟩)

end CrmRepo

/-- A call of `ApplyBookingFact`: its fact, the time, and whether the transaction is lost. -/
structure FactCall where
  fact : BookingFact
  now : Time
  fault : Fault String

def FactCall.run (c : FactCall) (db : CrmDB) : Except Err Unit × CrmDB :=
  c.fault.apply Err.plain (CrmRepo.applyBookingFact c.now c.fact) db

/-- The projection after the calls. -/
def CrmDB.after (db : CrmDB) (calls : List FactCall) : CrmDB := calls.foldl (fun db c => (c.run db).2) db

def CrmDB.empty : CrmDB := ⟨Table.empty _, Table.empty _⟩

/-! ## The consumer -/

/-- A message of `booking.*`; a payload that cannot be read is `none`.  `apply` is `ApplyBookingFact`. -/
def CrmSubscriber.handle (apply : BookingFact → CrmDB → Except Err Unit × CrmDB) (data : Option BookingEventPayload)
    (db : CrmDB) : Answer × CrmDB :=
  match data with
  | none => (.ack, db)
  | some evt =>
    if evt.bookingID = "" then (.ack, db)
    else
      match bookingEventToFact evt with
      | .error _ => (.ack, db)
      | .ok fact =>
        match apply fact db with
        | (.error _, db) => (.nak, db)
        | (.ok (), db) => (.ack, db)

end Agregator
