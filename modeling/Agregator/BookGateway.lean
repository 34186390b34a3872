import Agregator.BookList
import Agregator.BookUsecase
import Agregator.Gateway
/-!
# BookGateway — booking requests, from the gateway to the booking service and back

The handlers of the gateway over the booking routes, the RPCs they call and the use cases under these.  What other services know
of users and venues is a parameter; the store of bookings is the state.
-/
namespace Agregator

open Rel

/-! ## The booking service -/

/-- What the service is made of but for its store. -/
structure BookingService where
  uc : BookingUseCase
  codec : CursorCodec
  pg : PgText
  crm : CRMDB

namespace BookingService

variable (svc : BookingService)

def getBooking (id : String) (db : NotedDB) : Except Err Booking := BookingRepo.getByID id db.toBookingDB

/-- The bounds of the gateway keep the offset in 32 bits. -/
def listUserBookings (userID statusFilter : String) (page pageSize : ℤ) (db : NotedDB) : Except Err (List Booking × ℕ) :=
  let pageSize := if pageSize ≤ 0 then 20 else pageSize
  let page := if page ≤ 0 then 1 else page
  BookingRepo.listByUser userID statusFilter ((page - 1) * pageSize).toNat pageSize.toNat db

def requireVenueCRMAccess (venueID userID : String) : Except Err Unit :=
  if trimSpace userID = "" then .error (invalidArgument "user id is required")
  else
    match svc.crm.getManagementAccess venueID userID with
    | .error err => .error err
    | .ok access =>
      if trimSpace access = "" then .error (.status .permissionDenied "no venue management access") else .ok ()

def listVenueBookings (requesterUserID : String) (f : VenueFilter) (cursor : String) (pageSize : ℤ) (db : NotedDB) :
    Except Err BookingRepo.VenuePage := do
  svc.requireVenueCRMAccess f.venueID requesterUserID
  BookingRepo.listByVenue svc.codec svc.pg f cursor (if pageSize ≤ 0 then 20 else pageSize).toNat db

def maxBookingStaffNoteRunes : ℕ := 4000

/-- The booking of a request about its notes. -/
def managedBooking (bookingID requesterUserID : String) (db : NotedDB) : Except Err Booking := do
  let b ← BookingRepo.getByID bookingID db.toBookingDB
  svc.requireVenueCRMAccess b.venueID requesterUserID
  return b

def listBookingStaffNotes (bookingID requesterUserID : String) (db : NotedDB) : Except Err (List BookingStaffNote) := do
  let _ ← svc.managedBooking bookingID requesterUserID db
  BookingRepo.listBookingStaffNotes bookingID db

/-- The text of a note as it is stored. -/
def noteBody (body : String) : Except Err String :=
  let body := trimSpace body
  if body = "" then .error (invalidArgument "текст заметки обязателен")
  else if maxBookingStaffNoteRunes < body.length then .error (invalidArgument "текст заметки слишком длинный")
  else .ok body

def addBookingStaffNote (env : BookEnv) (bookingID requesterUserID body : String) (db : NotedDB) :
    Except Err BookingStaffNote × NotedDB :=
  let checked : Except Err BookingStaffNote := do
    let body ← noteBody body
    let b ← svc.managedBooking bookingID requesterUserID db
    return { id := "", bookingID := b.id, venueID := b.venueID, authorUserID := requesterUserID, body := body, createdAt := 0 }
  match checked with
  | .error err => (.error err, db)
  | .ok n => BookingRepo.addBookingStaffNote env.now env.newID n db

/-- `CancelBooking` when no statement is lost. -/
def cancelBooking (env : BookEnv) (id userID : String) (db : NotedDB) : Except Err Booking × NotedDB :=
  let (res, booked) := (svc.uc.cancelBooking id userID).eval (BookOp.run svc.uc.loc { env with fault := .none }) db.toBookingDB
  (res, { db with toBookingDB := booked })

end BookingService

/-! ## The RPCs -/

structure BookingResponse where
  id : String
  userID : String
  venueID : String
  venueName : String
  serviceID : String
  date : String
  timeFrom : String
  timeTo : String
  guests : ℤ
  comment : String
  status : String
  totalPrice : ℤ
  paymentURL : String
  createdAt : Time
  packageServiceIDs : List String
  hallIDs : List String
  staffNotesCount : ℕ
deriving DecidableEq, Repr

/-- The one service of a package stands for it. -/
def toProto (b : Booking) (staffNotesCount : ℕ) : BookingResponse :=
  let services : String × List String :=
    match b.packageServiceIDs with
    | [] => (b.serviceID, [])
    | [s] => (s, [])
    | l => ("", l)
  { id := b.id, userID := b.userID, venueID := b.venueID, venueName := b.venueName, serviceID := services.1
    date := b.date.string, timeFrom := b.timeFrom.string, timeTo := b.timeTo.string, guests := b.guests, comment := b.comment
    status := b.status.string, totalPrice := b.totalPrice, paymentURL := b.paymentURL, createdAt := b.createdAt
    packageServiceIDs := services.2, hallIDs := b.hallIDs, staffNotesCount := staffNotesCount }

structure ListBookingsResponse where
  bookings : List BookingResponse
  total : ℤ
  nextCursor : String
deriving DecidableEq, Repr

/-- The caller of an RPC, as the gateway passes it on. -/
def callerOf (userID : String) : Except Err String :=
  if trimSpace userID = "" then .error (.status .unauthenticated "missing caller identity") else .ok (trimSpace userID)

namespace BookingServer

variable (svc : BookingService)

def getBooking (id : String) (db : NotedDB) : Except Err BookingResponse := do
  let b ← BookingService.getBooking id db
  return toProto b 0

def listUserBookings (userID status : String) (page pageSize : ℤ) (db : NotedDB) : Except Err ListBookingsResponse := do
  let callerID ← callerOf userID
  let (bookings, total) ← BookingService.listUserBookings callerID status page pageSize db
  return ⟨bookings.map (toProto · 0), int32 total, ""⟩

def listVenueBookings (userID : String) (f : VenueFilter) (cursor : String) (pageSize : ℤ) (db : NotedDB) :
    Except Err ListBookingsResponse := do
  let callerID ← callerOf userID
  let res ← svc.listVenueBookings callerID f cursor pageSize db
  return ⟨res.bookings.map fun b => toProto b.1 b.2, int32 res.total, res.nextCursor⟩

def listBookingStaffNotes (userID bookingID : String) (db : NotedDB) : Except Err (List BookingStaffNote) := do
  let callerID ← callerOf userID
  svc.listBookingStaffNotes bookingID callerID db

def addBookingStaffNote (env : BookEnv) (userID bookingID body : String) (db : NotedDB) :
    Except Err BookingStaffNote × NotedDB :=
  match callerOf userID with
  | .error err => (.error err, db)
  | .ok callerID => svc.addBookingStaffNote env bookingID callerID body db

def cancelBooking (env : BookEnv) (userID id : String) (db : NotedDB) : Except Err BookingResponse × NotedDB :=
  match callerOf userID with
  | .error err => (.error err, db)
  | .ok callerID =>
    let (res, db) := svc.cancelBooking env id callerID db
    (res.map (toProto · 0), db)

end BookingServer

/-! ## The handlers -/

/-- The object of a booking; a field that is left out is `none`. -/
structure BookingJSON where
  id : String
  userID : String
  userName : Option String
  venueID : String
  venueName : String
  serviceID : String
  date : String
  time : String
  timeFrom : String
  timeTo : String
  guests : ℤ
  comment : String
  status : String
  totalPrice : ℤ
  createdAt : Time
  packageServiceIDs : Option (List String)
  hallIDs : Option (List String)
  paymentURL : Option String
  staffNotesCount : Option ℕ
deriving DecidableEq, Repr

def bookingToJSON (b : BookingResponse) : BookingJSON where
  id := b.id
  userID := b.userID
  userName := none
  venueID := b.venueID
  venueName := b.venueName
  serviceID := b.serviceID
  date := b.date
  time := if b.timeTo = "" then b.timeFrom else b.timeFrom ++ "–" ++ b.timeTo
  timeFrom := b.timeFrom
  timeTo := b.timeTo
  guests := b.guests
  comment := b.comment
  status := b.status
  totalPrice := b.totalPrice
  createdAt := b.createdAt
  packageServiceIDs := if b.packageServiceIDs = [] then none else some b.packageServiceIDs
  hallIDs := if b.hallIDs = [] then none else some b.hallIDs
  paymentURL := if b.paymentURL = "" then none else some b.paymentURL
  staffNotesCount := if b.staffNotesCount = 0 then none else some b.staffNotesCount

inductive Body where
  | booking (b : BookingJSON)
  | bookings (bs : List BookingJSON) (total : ℤ) (nextCursor : Option String)
  | notes (ns : List BookingStaffNote)
  | note (n : BookingStaffNote)
deriving DecidableEq, Repr

inductive Response where
  | json (http : ℕ) (body : Body)
  | catalog (e : Entry)
  | forbidden
deriving DecidableEq, Repr

/-- What a caller may ask for; the body of a note is what `ReadJSON` makes of it. -/
inductive BookingRequest where
  | get (id : String)
  | listMy (status page pageSize : String)
  | listVenueBookings (f : VenueFilter) (cursor pageSize : String)
  | listBookingStaffNotes (bookingID : String)
  | addBookingStaffNote (bookingID : String) (body : Except Entry String)
  | cancel (id : String)

namespace BookingHandler

/-- An answer, or an error as the gateway reports it. -/
def respond {α : Type} (http : ℕ) (body : α → Body) (res : Except Err α) : Response :=
  match res with
  | .error err => .catalog err.pgErrToStatus.toHTTP
  | .ok a => .json http (body a)

/-- The names of the guests, each asked for once; one that cannot be had is left out. -/
def resolveUserNames (users : String → Except Err String) (bookings : List BookingJSON) : List (String × String) :=
  ((bookings.map (·.userID)).filter (· ≠ "")).dedup.filterMap fun uid =>
    match users uid with
    | .ok name => if name = "" then none else some (uid, name)
    | .error _ => none

def withUserName (names : List (String × String)) (b : BookingJSON) : BookingJSON :=
  match names.find? fun n => n.1 == b.userID with
  | some (_, name) => { b with userName := some name }
  | none => b

def get (id : String) (db : NotedDB) : Response :=
  respond 200 (fun b => .booking (bookingToJSON b)) (BookingServer.getBooking id db)

def listMy (caller : Caller) (status page pageSize : String) (db : NotedDB) : Response :=
  if caller.userID = "" then .catalog .authUnauthorized
  else
    match queryInt "page" page 0 0 10000 with
    | .error e => .catalog e
    | .ok page =>
      match queryInt "page_size" pageSize 0 0 200 with
      | .error e => .catalog e
      | .ok pageSize => respond 200 (fun res => .bookings (res.bookings.map bookingToJSON) res.total none)
          (BookingServer.listUserBookings caller.userID status page pageSize db)

variable (svc : BookingService)

def listVenueBookings (users : String → Except Err String) (caller : Caller) (f : VenueFilter) (cursor pageSize : String)
    (db : NotedDB) : Response :=
  if caller.userID = "" then .catalog .authUnauthorized
  else
    match queryInt "page_size" pageSize 20 1 200 with
    | .error e => .catalog e
    | .ok pageSize => respond 200
        (fun res =>
          let out := res.bookings.map bookingToJSON
          .bookings (out.map (withUserName (resolveUserNames users out))) res.total
            (if res.nextCursor = "" then none else some res.nextCursor))
        (BookingServer.listVenueBookings svc caller.userID f cursor pageSize db)

def listBookingStaffNotes (caller : Caller) (bookingID : String) (db : NotedDB) : Response :=
  if caller.userID = "" then .catalog .authUnauthorized
  else respond 200 .notes (BookingServer.listBookingStaffNotes svc caller.userID bookingID db)

def addBookingStaffNote (env : BookEnv) (caller : Caller) (bookingID : String) (body : Except Entry String) (db : NotedDB) :
    Response × NotedDB :=
  if caller.userID = "" then (.catalog .authUnauthorized, db)
  else
    match body with
    | .error e => (.catalog e, db)
    | .ok body =>
      let (res, db) := BookingServer.addBookingStaffNote svc env caller.userID bookingID body db
      (respond 201 .note res, db)

def cancel (env : BookEnv) (caller : Caller) (id : String) (db : NotedDB) : Response × NotedDB :=
  if caller.userID = "" then (.catalog .authUnauthorized, db)
  else
    let (res, db) := BookingServer.cancelBooking svc env caller.userID id db
    (respond 200 (fun b => .booking (bookingToJSON b)) res, db)

/-- A request and what the environment has in store for it, by the route that takes it. -/
def serve (users : String → Except Err String) (caller : Caller) (req : BookingRequest × BookEnv) (db : NotedDB) :
    Response × NotedDB :=
  match req.1 with
  | .get id => (get id db, db)
  | .listMy status page pageSize => (listMy caller status page pageSize db, db)
  | .listVenueBookings f cursor pageSize =>
    if ownerCabinet caller.role then (listVenueBookings svc users caller f cursor pageSize db, db) else (.forbidden, db)
  | .listBookingStaffNotes bookingID =>
    if ownerCabinet caller.role then (listBookingStaffNotes svc caller bookingID db, db) else (.forbidden, db)
  | .addBookingStaffNote bookingID body =>
    if ownerCabinet caller.role then addBookingStaffNote svc req.2 caller bookingID body db else (.forbidden, db)
  | .cancel id => cancel svc req.2 caller id db

end BookingHandler

end Agregator
