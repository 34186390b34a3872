import Agregator.GoBase
import Agregator.RelTable
import Mathlib.Data.List.Sort
/-!
# VenueStore — venues, their halls and the slots reserved

`venues`, `venue_halls` and `reserved_slots`, and the repository over them.  A `DATE` is its day number and a `TIME` its
microseconds since midnight, up to a whole day.  Every function is one transaction, or one statement of a transaction; it
returns its answer and the database after it, unchanged when it fails.
-/
namespace Agregator

open Rel

/-! ## Venues and halls -/

inductive BookingMode where
  | whole
  | perHall
deriving DecidableEq, Repr

namespace BookingMode

def string : BookingMode → String
  | whole => "whole"
  | perHall => "per_hall"

def parse (s : String) : Option BookingMode :=
  if s = "whole" then some whole else if s = "per_hall" then some perHall else none

end BookingMode

inductive VenueStatus where
  | draft
  | pendingReview
  | active
  | rejected
  | suspended
deriving DecidableEq, Repr

structure Venue where
  id : String
  ownerID : String
  status : VenueStatus
  isActive : Bool
  moderationComment : String
  moderatedAt : Option Time
  moderatedBy : String
  bookingMode : BookingMode
  priceFrom : ℤ
  priceWeekend : ℤ
  capacity : ℤ
  amenities : List String
  updatedAt : Time
deriving DecidableEq, Repr

structure VenueHall where
  id : String
  venueID : String
  name : String
  priceFrom : ℤ
  priceWeekend : ℤ
  capacity : ℤ
  amenities : List String
  sortOrder : ℤ
  description : String
  steamType : String
  updatedAt : Time
deriving DecidableEq, Repr

structure VenueHallUpsert where
  id : Option String
  name : String
  priceFrom : ℤ
  priceWeekend : ℤ
  capacity : ℤ
  amenities : List String
  description : String
  steamType : String
deriving DecidableEq, Repr

def venueSchema : Schema Venue where
  check v := isUUID v.id && isUUID v.ownerID
  clash a b := a.id == b.id
  clash_comm a b := by simp only [Bool.beq_comm]

def venueHallSchema : Schema VenueHall where
  check h := isUUID h.id && isUUID h.venueID && decide (h.name.length ≤ 255)
  clash a b := a.id == b.id
  clash_comm a b := by simp only [Bool.beq_comm]

/-! ## Reserved slots -/

abbrev PgDate := ℤ

abbrev PgTime := ℕ

/-- How the database reads a `DATE` and a `TIME` from text, and `strings.ToLower`. -/
structure TextRules where
  date : String → Option PgDate
  time : String → Option PgTime
  toLower : String → String

/-- A row of `reserved_slots`: without a booking it is a manual block, without a hall it takes the whole venue. -/
structure ReservedSlot where
  id : String
  venueID : String
  bookingID : Option String
  hallID : Option String
  date : PgDate
  timeFrom : PgTime
  timeTo : PgTime
  blockNote : String
deriving DecidableEq, Repr

/-- A whole day in microseconds. -/
def fullDay : ℕ := 24 * 60 * 60 * 1000000

namespace ReservedSlot

variable (s : ReservedSlot)

/-- `COALESCE(hall_id, venue_id)`. -/
def key : String := s.hallID.getD s.venueID

/-- The bounds of the generated column `slot_ts`. -/
def slotTs : ℤ × ℤ := (s.date * fullDay + s.timeFrom, s.date * fullDay + s.timeTo)

end ReservedSlot

/-- `&&` of two ranges that are closed below and open above: an empty one overlaps nothing. -/
def rangesOverlap (a b : ℤ × ℤ) : Bool := decide (max a.1 b.1 < min a.2 b.2)

theorem rangesOverlap_comm (a b : ℤ × ℤ) : rangesOverlap a b = rangesOverlap b a := by
  unfold rangesOverlap
  rw [max_comm, min_comm]

/-- The constraint `reserved_slots_no_overlap`. -/
def reservedSlotSchema : Schema ReservedSlot where
  check s := isUUID s.venueID && s.bookingID.all isUUID && s.hallID.all isUUID && decide (s.timeFrom ≤ s.timeTo) &&
    decide (s.timeTo ≤ fullDay)
  clash a b := a.key == b.key && rangesOverlap a.slotTs b.slotTs
  clash_comm a b := by rw [rangesOverlap_comm, Bool.beq_comm]

structure VenueDB where
  venues : Table venueSchema
  halls : Table venueHallSchema
  reserved : Table reservedSlotSchema
  /-- `venue_staff`: the venue and the user. -/
  staff : List (String × String)

/-- The errors of the repository that its callers tell apart, and all others. -/
inductive VenueErr where
  | venueNotFound
  | ownershipMismatch
  | hallNotFound
  | hallNotInVenue
  | hallNameRequired
  | slotUnavailable
  | modeHasReservations
  | other (e : Err)
deriving DecidableEq, Repr

/-- `fmt.Errorf("ctx: %w", err)` of an error of the database. -/
def storeErr (ctx text : String) : VenueErr := .other ((Err.plain text).wrap ctx)

def noRows : String := "no rows in result set"

/-- What the text of a failed statement says of the constraint does not matter to any caller. -/
def venueViolation (ctx : String) : Violation → VenueErr
  | .check => storeErr ctx "ERROR: value out of the domain of its column (SQLSTATE 22001)"
  | .unique => storeErr ctx "ERROR: duplicate key value violates unique constraint (SQLSTATE 23505)"

structure ManualSlotBlock where
  id : String
  venueID : String
  hallID : Option String
  date : String
  timeFrom : String
  timeTo : String
  note : String
deriving DecidableEq, Repr

namespace VenueDB

def venue (db : VenueDB) (id : String) : Option Venue := db.venues.get (·.id == id)

def hallsOf (db : VenueDB) (venueID : String) : List VenueHall := db.halls.select (·.venueID == venueID)

end VenueDB

/-! ## The repository -/

namespace VenueRepo

def bookingMode (venueID : String) (db : VenueDB) : Except VenueErr BookingMode :=
  match db.venue venueID with
  | some v => .ok v.bookingMode
  | none => .error (storeErr "booking mode" noRows)

def hallIDs (venueID : String) (db : VenueDB) : List String := (db.hallsOf venueID).map (·.id)

def isVenueMember (venueID userID : String) (db : VenueDB) : Bool :=
  match db.venue venueID with
  | some v => v.ownerID == userID || db.staff.contains (venueID, userID)
  | none => false

/-! ### Reservations -/

/-- The halls of the rows of a reservation. -/
def reservedHalls : List String → List (Option String)
  | [] => [none]
  | hallIDs => hallIDs.map some

/-- The rows of a reservation, each with the key the database draws for it. -/
def slotRows (newID : ℕ → String) (venueID : String) (bookingID : Option String) (hallIDs : List String) (date : PgDate)
    (timeFrom timeTo : PgTime) (note : String) : List ReservedSlot :=
  (reservedHalls hallIDs).zipIdx.map fun (hallID, i) =>
    { id := newID i, venueID := venueID, bookingID := bookingID, hallID := hallID, date := date, timeFrom := timeFrom
      timeTo := timeTo, blockNote := note }

theorem slotRows_row {newID : ℕ → String} {venueID : String} {bookingID : Option String} {hallIDs : List String} {d : PgDate}
    {tf tt : PgTime} {note : String} {s : ReservedSlot} (h : s ∈ slotRows newID venueID bookingID hallIDs d tf tt note) :
    s.venueID = venueID ∧ s.bookingID = bookingID ∧ s.date = d ∧ s.timeFrom = tf ∧ s.timeTo = tt ∧
      ∀ hall, s.hallID = some hall → hall ∈ hallIDs := by
  obtain ⟨⟨hallID, i⟩, hmem, rfl⟩ := List.mem_map.1 h
  refine ⟨rfl, rfl, rfl, rfl, rfl, fun hall hhall => ?_⟩
  have hres := List.fst_mem_of_mem_zipIdx hmem
  dsimp only at hhall hres
  cases hallIDs with
  | nil =>
    rw [hhall] at hres
    cases List.mem_singleton.1 hres
  | cons first rest =>
    obtain ⟨x, hx, hsome⟩ := List.mem_map.1 hres
    rw [hhall] at hsome
    cases hsome
    exact hx

/-- `$4::date`, `$5::time` and `$6::time`. -/
def interval (text : TextRules) (date timeFrom timeTo : String) : Except String (PgDate × PgTime × PgTime) :=
  match text.date date, text.time timeFrom, text.time timeTo with
  | some d, some tf, some tt => .ok (d, tf, tt)
  | none, _, _ => .error ("ERROR: invalid input syntax for type date: \"" ++ date ++ "\" (SQLSTATE 22007)")
  | _, none, _ => .error ("ERROR: invalid input syntax for type time: \"" ++ timeFrom ++ "\" (SQLSTATE 22007)")
  | _, _, none => .error ("ERROR: invalid input syntax for type time: \"" ++ timeTo ++ "\" (SQLSTATE 22007)")

/-- `reserveSlotErr` and `manualBlockErr`: a violated exclusion constraint is an error of its own. -/
def slotErr (ctx : String) : Violation → VenueErr
  | .check => venueViolation ctx .check
  | .unique => .slotUnavailable

/-- The rows of a reservation in one transaction. -/
def insertSlots (ctx : String) (text : TextRules) (rows : PgDate → PgTime → PgTime → List ReservedSlot)
    (date timeFrom timeTo : String) (db : VenueDB) : Except VenueErr (List ReservedSlot) × VenueDB :=
  match interval text date timeFrom timeTo with
  | .error e => (.error (storeErr ctx e), db)
  | .ok (d, tf, tt) =>
    match db.reserved.insertAll (rows d tf tt) with
    | .error v => (.error (slotErr ctx v), db)
    | .ok reserved => (.ok (rows d tf tt), { db with reserved := reserved })

def reserveSlot (text : TextRules) (newID : ℕ → String) (venueID bookingID date timeFrom timeTo : String)
    (hallIDs : List String) (db : VenueDB) : Except VenueErr Unit × VenueDB :=
  match insertSlots "reserve slot" text (fun d tf tt => slotRows newID venueID (some bookingID) hallIDs d tf tt "")
      date timeFrom timeTo db with
  | (.error e, db) => (.error e, db)
  | (.ok _, db) => (.ok (), db)

/-- `trim` of the database, which takes blanks only. -/
def pgTrim (s : String) : String :=
  String.ofList ((s.toList.dropWhile (· == ' ')).reverse.dropWhile (· == ' ')).reverse

def createManualSlotBlock (text : TextRules) (newID : ℕ → String) (venueID : String) (hallIDs : List String)
    (date timeFrom timeTo note : String) (db : VenueDB) : Except VenueErr (List ManualSlotBlock) × VenueDB :=
  match insertSlots "create manual slot block" text
      (fun d tf tt => slotRows newID venueID none hallIDs d tf tt (pgTrim note)) date timeFrom timeTo db with
  | (.error e, db) => (.error e, db)
  | (.ok rows, db) => (.ok (rows.map fun s =>
      { id := s.id, venueID := venueID, hallID := s.hallID, date := date, timeFrom := timeFrom, timeTo := timeTo
        note := s.blockNote }), db)

def releaseSlot (venueID bookingID : String) (db : VenueDB) : VenueDB :=
  { db with reserved := db.reserved.delete fun s => s.venueID == venueID && s.bookingID == some bookingID }

/-- Whether a block was deleted. -/
def deleteManualSlotBlock (venueID blockID : String) (db : VenueDB) : Bool × VenueDB :=
  let p (s : ReservedSlot) : Bool := s.id == blockID && s.venueID == venueID && s.bookingID.isNone
  (!(db.reserved.select p).isEmpty, { db with reserved := db.reserved.delete p })

/-! ### The booking mode -/

/-- The rows dated today or later. -/
def upcoming (today : PgDate) (venueID : String) (db : VenueDB) : List ReservedSlot :=
  db.reserved.select fun s => s.venueID == venueID && decide (today ≤ s.date)

/-- `UPDATE venues SET … WHERE id = $1`. -/
def updateVenue (ctx venueID : String) (f : Venue → Venue) (db : VenueDB) : Except VenueErr Unit × VenueDB :=
  match db.venues.update (·.id == venueID) f with
  | .error v => (.error (venueViolation ctx v), db)
  | .ok venues => (.ok (), { db with venues := venues })

def updateBookingMode (venueID : String) (mode : BookingMode) (db : VenueDB) : Except VenueErr Unit × VenueDB :=
  updateVenue "set booking mode" venueID (fun v => { v with bookingMode := mode }) db

/-! ### The halls -/

def leastPositive (price least : ℤ) : ℤ := if 0 < price ∧ (least = 0 ∨ price < least) then price else least

/-- What a venue shows of its halls: the least rates, the greatest capacity, the amenities by their first spelling. -/
def derivedVenueFieldsFromHalls (toLower : String → String) (halls : List VenueHall) : ℤ × ℤ × ℤ × List String :=
  let priceFrom := halls.foldl (fun least h => leastPositive h.priceFrom least) 0
  let priceWeekend := halls.foldl (fun least h =>
    leastPositive (if h.priceWeekend = 0 then h.priceFrom else h.priceWeekend) least) 0
  let capacity := halls.foldl (fun most h => if most < h.capacity then h.capacity else most) 0
  let amenities := (halls.flatMap (·.amenities)).foldl (fun out a =>
    let t := trimSpace a
    if t == "" || out.any (fun x => toLower x == toLower t) then out else out ++ [t]) []
  (priceFrom, priceWeekend, capacity, amenities.mergeSort fun a b => !decide (b < a))

/-- The halls of a request, in its order: one with an id is updated, one without is added.  Those that are kept. -/
def upsertHalls (now : Time) (newID : ℕ → String) (venueID : String) :
    ℕ → List VenueHallUpsert → Table venueHallSchema → Except VenueErr (List String × Table venueHallSchema)
  | _, [], halls => .ok ([], halls)
  | i, it :: items, halls =>
    let name := trimSpace it.name
    if name = "" then .error .hallNameRequired
    else
      match it.id with
      | some id =>
        match halls.get (·.id == id) with
        | none => .error .hallNotFound
        | some h =>
          if h.venueID ≠ venueID then .error .hallNotInVenue
          else
            match halls.update (fun h => h.id == id && h.venueID == venueID) (fun h => { h with
              name := name, priceFrom := it.priceFrom, capacity := it.capacity, amenities := it.amenities, sortOrder := i
              priceWeekend := it.priceWeekend, description := it.description, steamType := it.steamType
              updatedAt := now }) with
            | .error v => .error (venueViolation "update venue_hall" v)
            | .ok halls =>
              match upsertHalls now newID venueID (i + 1) items halls with
              | .error e => .error e
              | .ok (kept, halls) => .ok (id :: kept, halls)
      | none =>
        match halls.insert
          { id := newID i, venueID := venueID, name := name, priceFrom := it.priceFrom, priceWeekend := it.priceWeekend
            capacity := it.capacity, amenities := it.amenities, sortOrder := i, description := it.description
            steamType := it.steamType, updatedAt := now } with
        | .error v => .error (venueViolation "insert venue_hall" v)
        | .ok halls =>
          match upsertHalls now newID venueID (i + 1) items halls with
          | .error e => .error e
          | .ok (kept, halls) => .ok (newID i :: kept, halls)

/-- `resetToPendingReviewTx`. -/
def resetToPendingReview (now : Time) (v : Venue) : Venue :=
  if v.status = .active ∨ v.status = .rejected then
    { v with
      status := .pendingReview, moderationComment := "", isActive := false, moderatedAt := none, moderatedBy := ""
      updatedAt := now }
  else v

/-- The statements of `ReplaceVenueHalls` once the venue is locked. -/
def replaceHalls (text : TextRules) (now : Time) (newID : ℕ → String) (venueID : String) (items : List VenueHallUpsert)
    (db : VenueDB) : Except VenueErr Unit × VenueDB :=
  match upsertHalls now newID venueID 0 items db.halls with
  | .error e => (.error e, db)
  | .ok (kept, halls) =>
    -- with no hall kept the array is `NULL`, and `NOT (id = ANY(NULL))` holds of no row
    let halls := halls.delete fun h => h.venueID == venueID && !kept.isEmpty && !kept.contains h.id
    let hallRows := halls.select (·.venueID == venueID)
    let (pf, pw, capacity, am) := derivedVenueFieldsFromHalls text.toLower hallRows
    match updateVenue "update venue derived from halls" venueID (fun v => resetToPendingReview now { v with
        priceFrom := if hallRows.isEmpty then v.priceFrom else pf
        priceWeekend := if hallRows.isEmpty then v.priceWeekend else pw
        capacity := capacity, amenities := am, updatedAt := now }) { db with halls := halls } with
    | (.error e, _) => (.error e, db)
    | (.ok (), db) => (.ok (), db)

/-- `lockVenueForOwner`, of the venue it locks. -/
def checkOwner (ownerID : String) : Option Venue → Except VenueErr Unit
  | none => .error .venueNotFound
  | some v => if v.ownerID ≠ ownerID then .error .ownershipMismatch else .ok ()

end VenueRepo

def sampleText : TextRules where
  date s := (Date.parse s).map fun d => d.dayNumber
  time s := (TimeOfDay.parse s).map fun t => (t.h * 60 + t.m) * 60000000
  toLower s := s

end Agregator
