import Mathlib.Data.Prod.Lex
import Mathlib.Data.String.Basic
import Agregator.Base64
import Agregator.BookStore
import Agregator.Keyset
/-!
# BookList — the lists of bookings

`ListByUser` in pages, `ListByVenue` by cursors, and the staff notes.  The signature of a cursor is taken as a function of what
is signed, and how the database reads the text of a date, a time or an identifier as one of its bytes.
-/
namespace Agregator

open Rel

/-- The bytes of a string. -/
def bytesOf (s : String) : List UInt8 := s.toList.flatMap String.utf8EncodeChar

structure BookingStaffNote where
  id : String
  bookingID : String
  venueID : String
  authorUserID : String
  body : String
  createdAt : Time
deriving DecidableEq, Repr

/-- The booking database with its staff notes. -/
structure NotedDB extends BookingDB where
  notes : List BookingStaffNote

/-- How the database reads the text of a parameter. -/
structure PgText where
  date : List UInt8 → Except Err Date
  time : List UInt8 → Except Err TimeOfDay
  uuid : List UInt8 → Except Err String

/-- A day of a year of four digits. -/
def Date.Valid (d : Date) : Prop :=
  1 ≤ d.year ∧ d.year ≤ 9999 ∧ 1 ≤ d.month ∧ d.month ≤ 12 ∧ 1 ≤ d.day ∧ d.day ≤ daysIn d.year d.month

instance (d : Date) : Decidable d.Valid := inferInstanceAs (Decidable (_ ∧ _))

def TimeOfDay.Valid (t : TimeOfDay) : Prop := t.h < 24 ∧ t.m < 60

instance (t : TimeOfDay) : Decidable t.Valid := inferInstanceAs (Decidable (_ ∧ _))

/-- What the database prints, it reads. -/
structure PgText.Lawful (pg : PgText) : Prop where
  date_string : ∀ d : Date, d.Valid → pg.date (bytesOf d.string) = .ok d
  time_string : ∀ t : TimeOfDay, t.Valid → pg.time (bytesOf t.string) = .ok t
  uuid_id : ∀ id, isUUID id = true → pg.uuid (bytesOf id) = .ok id

/-! ## Cursors -/

/-- All before and after the last occurrence of a byte. -/
def cutLast (c : UInt8) : List UInt8 → Option (List UInt8 × List UInt8)
  | [] => none
  | x :: xs =>
    match cutLast c xs with
    | some (a, b) => some (x :: a, b)
    | none => if x = c then some ([], xs) else none

/-- All before and after the first occurrence of a byte. -/
def cutFirst (c : UInt8) : List UInt8 → Option (List UInt8 × List UInt8)
  | [] => none
  | x :: xs => if x = c then some ([], xs) else (cutFirst c xs).map fun (a, b) => (x :: a, b)

def hexDigit (n : ℕ) : UInt8 := UInt8.ofNat (if n < 10 then 48 + n else 87 + n)

/-- `hex.EncodeToString`. -/
def hexEncode (bytes : List UInt8) : List UInt8 := bytes.flatMap fun b => [hexDigit (b.toNat / 16), hexDigit (b.toNat % 16)]

def dot : UInt8 := 46

def bar : UInt8 := 124

/-- `mac` is the keyed HMAC-SHA256. -/
structure CursorCodec where
  mac : List UInt8 → List UInt8

namespace CursorCodec

variable (codec : CursorCodec)

def sig (payload : List UInt8) : List UInt8 := hexEncode ((codec.mac payload).take 8)

def encodeCursor (date timeFrom id : List UInt8) : String :=
  let payload := date ++ bar :: timeFrom ++ bar :: id
  Base64.encode (payload ++ dot :: codec.sig payload)

def decodeCursor (cursor : String) : Except Err (List UInt8 × List UInt8 × List UInt8) :=
  match Base64.decode cursor with
  | none => .error (.plain "malformed cursor")
  | some raw =>
    match cutLast dot raw with
    | none => .error (.plain "malformed cursor: missing mac")
    | some (payload, gotSig) =>
      if gotSig ≠ codec.sig payload then .error (.plain "invalid cursor signature")
      else
        match cutFirst bar payload with
        | none => .error (.plain "malformed cursor: wrong payload structure")
        | some (date, rest) =>
          match cutFirst bar rest with
          | none => .error (.plain "malformed cursor: wrong payload structure")
          | some (timeFrom, id) => .ok (date, timeFrom, id)

end CursorCodec

/-! ## The lists -/

abbrev BookingKey := ℕ ×ₗ ℕ ×ₗ ℕ ×ₗ ℕ ×ₗ ℕ ×ₗ String

/-- The row value `(date, time_from, id)`. -/
def bookingKey (d : Date) (t : TimeOfDay) (id : String) : BookingKey :=
  toLex (d.year, toLex (d.month, toLex (d.day, toLex (t.h, toLex (t.m, id)))))

def Booking.key (b : Booking) : BookingKey := bookingKey b.date b.timeFrom b.id

/-- What `ListByVenue` selects by; an empty text is no condition. -/
structure VenueFilter where
  venueID : String
  status : String
  date : String
  dateFrom : String
  dateTo : String
deriving DecidableEq, Repr

/-- Chronological order. -/
def Date.le (a b : Date) : Bool :=
  decide (toLex (a.year, toLex (a.month, a.day)) ≤ (toLex (b.year, toLex (b.month, b.day)) : ℕ ×ₗ ℕ ×ₗ ℕ))

namespace BookingRepo

def dateParam (pg : PgText) (s : String) : Except Err (Option Date) :=
  if s = "" then .ok none else (pg.date (bytesOf s)).map some

/-- The `WHERE` of `ListByVenue` but for the cursor: an exact day takes precedence over a range. -/
def venueWhere (pg : PgText) (f : VenueFilter) : Except Err (Booking → Bool) := do
  let venueID ← uuidParam f.venueID
  let date ← dateParam pg f.date
  let bound (s : String) : Except Err (Option Date) := if f.date = "" then dateParam pg s else .ok none
  let dateFrom ← bound f.dateFrom
  let dateTo ← bound f.dateTo
  return fun b => b.venueID == venueID && (f.status == "" || b.status.string == f.status) &&
    date.all (b.date == ·) && dateFrom.all (fun d => d.le b.date) && dateTo.all fun d => b.date.le d

/-- What a cursor says, none when there is no cursor. -/
def cursorParts (codec : CursorCodec) (cursor : String) : Except Err (Option (List UInt8 × List UInt8 × List UInt8)) :=
  if cursor = "" then .ok none
  else
    match codec.decodeCursor cursor with
    | .error _ => .error (.status .invalidArgument "invalid cursor")
    | .ok parts => .ok (some parts)

/-- The row value after which a page begins. -/
def cursorKey (pg : PgText) : Option (List UInt8 × List UInt8 × List UInt8) → Except Err (Option BookingKey)
  | none => .ok none
  | some (date, timeFrom, id) => do
    let date ← pg.date date
    let timeFrom ← pg.time timeFrom
    let id ← pg.uuid id
    return some (bookingKey date timeFrom id)

structure VenuePage where
  bookings : List (Booking × ℕ)
  total : ℕ
  nextCursor : String
deriving DecidableEq, Repr

def staffNotesCount (db : NotedDB) (b : Booking) : ℕ := (db.notes.filter (·.bookingID == b.id)).length

/-- The total is that of the rows the query is about. -/
def listByVenue (codec : CursorCodec) (pg : PgText) (f : VenueFilter) (cursor : String) (limit : ℕ) (db : NotedDB) :
    Except Err VenuePage := do
  let parts ← cursorParts codec cursor
  let p ← venueWhere pg f
  let after ← cursorKey pg parts
  let matching := Keyset.after Booking.key (db.bookings.select p) after
  let found := matching.take (limit + 1)
  let bookings := if limit < found.length then found.take limit else found
  return {
    bookings := bookings.map fun b => (b, staffNotesCount db b)
    total := matching.length
    nextCursor :=
      if limit < found.length then
        match bookings.getLast? with
        | some last => codec.encodeCursor (bytesOf last.date.string) (bytesOf last.timeFrom.string) (bytesOf last.id)
        | none => ""
      else "" }

/-- Newest first, rows of one time as they are stored; the total is read from the rows of the page. -/
def listByUser (userID status : String) (offset limit : ℕ) (db : NotedDB) : Except Err (List Booking × ℕ) := do
  let userID ← uuidParam userID
  let matching := (db.bookings.select fun b => b.userID == userID && (status == "" || b.status.string == status)).insertionSort
    fun a b => b.createdAt ≤ a.createdAt
  let rows := (matching.drop offset).take limit
  return (rows, if rows.isEmpty then 0 else matching.length)

def listBookingStaffNotes (bookingID : String) (db : NotedDB) : Except Err (List BookingStaffNote) := do
  let bookingID ← uuidParam bookingID
  return (db.notes.filter (·.bookingID == bookingID)).insertionSort fun a b => a.createdAt ≤ b.createdAt

/-- `newID` is the key the database draws. -/
def addBookingStaffNote (now : Time) (newID : String) (n : BookingStaffNote) (db : NotedDB) :
    Except Err BookingStaffNote × NotedDB :=
  match uuidParam n.bookingID, uuidParam n.venueID, uuidParam n.authorUserID with
  | .ok _, .ok _, .ok _ =>
    let n := { n with id := newID, createdAt := now }
    (.ok n, { db with notes := db.notes ++ [n] })
  | .error e, _, _ | _, .error e, _ | _, _, .error e => (.error e, db)

end BookingRepo

/-- The pages from a cursor on, until one has no next cursor; at most so many. -/
def traverse (page : String → Except Err BookingRepo.VenuePage) : ℕ → String → Option (Except Err (List (Booking × ℕ)))
  | 0, _ => none
  | n + 1, cursor =>
    match page cursor with
    | .error err => some (.error err)
    | .ok res =>
      if res.nextCursor = "" then some (.ok res.bookings)
      else (traverse page n res.nextCursor).map fun rest => rest.map (res.bookings ++ ·)

end Agregator
