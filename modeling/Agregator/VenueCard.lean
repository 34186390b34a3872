import Agregator.VenueStore
import Mathlib.Data.Rat.Defs
/-!
# VenueCard — the card of a venue and the statements on it

The columns of `venues` that the slots have no use for, with the services, halls and photos of a card.  What holds the row of
the venue locked is one statement here.  The videos and the photos of the halls are written besides: of such an edit only what
it does to the status is kept.
-/
namespace Agregator

open Rel

/-! ## The card -/

structure VenueCard extends Venue where
  slug : String
  name : String
  type : String
  description : String
  address : String
  city : String
  latitude : ℚ
  longitude : ℚ
  workingHours : String
  phone : String
  avgRating : ℚ
  reviewCount : ℤ
  legalEntityName : String
  inn : String
  ogrn : String
  publicListingURL : String
  verificationNote : String
  socialLinks : String
  payoutLegalForm : String
deriving DecidableEq, Repr

structure VenueService where
  id : String
  venueID : String
  name : String
  durationMin : ℤ
  price : ℤ
  description : String
  sortOrder : ℤ
deriving DecidableEq, Repr

structure VenuePhoto where
  id : String
  venueID : String
  url : String
  sortOrder : ℤ
  isCover : Bool
deriving DecidableEq, Repr

def venueTypes : List String := ["banya", "sauna", "hammam", "fitobochka"]

def payoutLegalForms : List String := ["", "ip", "ooo", "self_employed", "gph"]

def venueCardSchema : Schema VenueCard where
  check v := isUUID v.id && isUUID v.ownerID && decide (v.slug.length ≤ 255) && decide (v.name.length ≤ 255) &&
    venueTypes.contains v.type && decide (v.phone.length ≤ 20) && decide (v.city.length ≤ 100) && decide (v.inn.length ≤ 12) &&
    decide (v.ogrn.length ≤ 15) && payoutLegalForms.contains v.payoutLegalForm
  clash a b := a.id == b.id || a.slug == b.slug
  clash_comm a b := by simp only [Bool.beq_comm]

def venueServiceSchema : Schema VenueService where
  check s := isUUID s.id && isUUID s.venueID && decide (s.name.length ≤ 255)
  clash a b := a.id == b.id
  clash_comm a b := by simp only [Bool.beq_comm]

def venuePhotoSchema : Schema VenuePhoto where
  check p := isUUID p.id && isUUID p.venueID
  clash a b := a.id == b.id || (a.venueID == b.venueID && a.isCover && b.isCover)
  clash_comm a b := by
    rw [Bool.beq_comm, Bool.beq_comm (a := a.venueID), Bool.and_right_comm]

structure CardDB where
  venues : Table venueCardSchema
  services : Table venueServiceSchema
  halls : Table venueHallSchema
  photos : Table venuePhotoSchema

def CardDB.empty : CardDB := ⟨.empty _, .empty _, .empty _, .empty _⟩

namespace CardDB

variable (db : CardDB) (venueID : String)

def venue : Option VenueCard := db.venues.get (·.id == venueID)

def servicesOf : List VenueService := db.services.select (·.venueID == venueID)

def hallsOf : List VenueHall := db.halls.select (·.venueID == venueID)

def photosOf : List VenuePhoto := db.photos.select (·.venueID == venueID)

end CardDB

/-- `ORDER BY sort_order ASC, id ASC`. -/
def inOrder {α : Type} (sortOrder : α → ℤ) (id : α → String) (rows : List α) : List α :=
  rows.insertionSort fun a b => sortOrder a < sortOrder b ∨ (sortOrder a = sortOrder b ∧ id a ≤ id b)

/-- What is looked up outside: `slug.Make`, `strings.ToLower`, `url.Parse` (scheme, host and host name), whether a text is JSON
and an object, and the text of a `JSONB` column. -/
structure CardRules where
  slug : String → String
  lower : String → String
  url : String → Option (String × String × String)
  json : String → Option Bool
  jsonb : String → Option String

/-- What the database has in store for a statement: its clock, the keys it draws, and the order it reads rows in. -/
structure DbEnv where
  now : Time
  newID : ℕ → String
  order : List VenueHall → List VenueHall

/-! ## The repository -/

namespace CardRepo

variable (rules : CardRules) (env : DbEnv)

/-- An `UPDATE` of the venues, with the number of its rows. -/
def updateRows (ctx : String) (p : VenueCard → Bool) (f : VenueCard → VenueCard) (db : CardDB) : Except VenueErr ℤ × CardDB :=
  match db.venues.update p f with
  | .error v => (.error (venueViolation ctx v), db)
  | .ok venues => (.ok (db.venues.select p).length, { db with venues := venues })

def resetToPendingReview (now : Time) (v : VenueCard) : VenueCard :=
  { v with toVenue := VenueRepo.resetToPendingReview now v.toVenue }

def invalidJSON (ctx : String) : VenueErr := storeErr ctx "ERROR: invalid input syntax for type json (SQLSTATE 22P02)"

def setDerived (priceFrom priceWeekend capacity : ℤ) (amenities : List String) (v : VenueCard) : VenueCard :=
  { v with priceFrom := priceFrom, priceWeekend := priceWeekend, capacity := capacity, amenities := amenities }

def serviceRows (newID : ℕ → String) (venueID : String) (services : List VenueService) : List VenueService :=
  services.zipIdx.map fun (s, i) => { s with id := newID i, venueID := venueID, sortOrder := i }

def hallRows (now : Time) (newID : ℕ → String) (venueID : String) (halls : List VenueHall) : List VenueHall :=
  halls.zipIdx.map fun (h, i) => { h with id := newID i, venueID := venueID, sortOrder := i, updatedAt := now }

/-- `Create`, with the slug already settled.  The keys are drawn for the venue, its services and its halls in turn. -/
def create (v : VenueCard) (services : List VenueService) (halls : List VenueHall) (db : CardDB) :
    Except VenueErr VenueCard × CardDB :=
  match rules.jsonb (if v.workingHours = "" then "{}" else v.workingHours),
      rules.jsonb (if v.socialLinks = "" then "{}" else v.socialLinks) with
  | some workingHours, some socialLinks =>
    let v : VenueCard := { v with
      id := env.newID 0, isActive := true, bookingMode := .whole, moderationComment := ""
      moderatedAt := none, moderatedBy := "", avgRating := 0, reviewCount := 0, updatedAt := env.now
      workingHours := workingHours, socialLinks := socialLinks }
    match db.venues.insert v with
    | .error e => (.error (venueViolation "insert venue" e), db)
    | .ok venues =>
      match db.services.insertAll (serviceRows (fun i => env.newID (i + 1)) v.id services) with
      | .error e => (.error (venueViolation "insert venue_service" e), db)
      | .ok services' =>
        match db.halls.insertAll (hallRows env.now (fun i => env.newID (i + services.length + 1)) v.id halls) with
        | .error e => (.error (venueViolation "insert venue_hall" e), db)
        | .ok halls' =>
          if halls.isEmpty then (.ok v, { db with venues := venues, services := services', halls := halls' })
          else
            let (pf, pw, capacity, am) := VenueRepo.derivedVenueFieldsFromHalls rules.lower halls
            match venues.update (·.id == v.id) (setDerived pf pw capacity am) with
            | .error e => (.error (venueViolation "update venue derived from halls" e), db)
            | .ok venues => (.ok (setDerived pf pw capacity am v), { db with venues := venues, services := services', halls := halls' })
  | _, _ => (.error (invalidJSON "insert venue"), db)

/-- The row that `Update` makes of `r`: the card `v` in all its columns, sent back to the moderators where it was shown or
rejected. -/
def edited (now : Time) (v : VenueCard) (workingHours socialLinks : String) (r : VenueCard) : VenueCard :=
  resetToPendingReview now
    { r with
      name := v.name, description := v.description, address := v.address, city := v.city, latitude := v.latitude
      longitude := v.longitude, priceFrom := v.priceFrom, capacity := v.capacity, amenities := v.amenities
      workingHours := workingHours, phone := v.phone, legalEntityName := v.legalEntityName, inn := v.inn, ogrn := v.ogrn
      publicListingURL := v.publicListingURL, socialLinks := socialLinks, verificationNote := v.verificationNote
      payoutLegalForm := v.payoutLegalForm, priceWeekend := v.priceWeekend, updatedAt := now }

def update (v : VenueCard) (db : CardDB) : Except VenueErr ℤ × CardDB :=
  match rules.jsonb (if v.workingHours = "" then "{}" else v.workingHours),
      rules.jsonb (if v.socialLinks = "" then "{}" else v.socialLinks) with
  | some workingHours, some socialLinks =>
    updateRows "update venue" (·.id == v.id) (edited env.now v workingHours socialLinks) db
  | _, _ => (.error (invalidJSON "update venue"), db)

def moderated (now : Time) (status : VenueStatus) (comment moderatedBy : String) (v : VenueCard) : VenueCard :=
  { v with
    status := status, moderationComment := comment, isActive := status == .active, moderatedAt := some now
    moderatedBy := moderatedBy, updatedAt := now }

def updateStatus (venueID : String) (status : VenueStatus) (comment moderatedBy : String) (db : CardDB) :
    Except VenueErr ℤ × CardDB :=
  updateRows "update status" (·.id == venueID) (moderated env.now status comment moderatedBy) db

def suspended (now : Time) (v : VenueCard) : VenueCard := { v with status := .suspended, isActive := false, updatedAt := now }

def suspendByOwner (ownerID : String) (db : CardDB) : Except VenueErr ℤ × CardDB :=
  updateRows "suspend venues by owner" (fun v => v.ownerID == ownerID && v.status != .suspended) (suspended env.now) db

def submitted (now : Time) (v : VenueCard) : VenueCard :=
  { v with
    status := .pendingReview, isActive := false, moderationComment := "", moderatedAt := none, moderatedBy := ""
    updatedAt := now }

def submitDraftForReview (venueID ownerID : String) (db : CardDB) : Except VenueErr ℤ × CardDB :=
  updateRows "submit draft for review" (fun v => v.id == venueID && v.ownerID == ownerID && v.status == .draft)
    (submitted env.now) db

def updateRating (venueID : String) (avgRating : ℚ) (reviewCount : ℤ) (db : CardDB) : Except VenueErr ℤ × CardDB :=
  updateRows "update rating" (·.id == venueID)
    (fun v => { v with avgRating := avgRating, reviewCount := reviewCount, updatedAt := env.now }) db

/-- `SetBookingMode` at a venue that has no reservation to come. -/
def setBookingMode (venueID : String) (mode : BookingMode) (db : CardDB) : Except VenueErr ℤ × CardDB :=
  updateRows "set booking mode" (·.id == venueID) (fun v => { v with bookingMode := mode }) db

/-- The statements of a transaction that has locked the venue for its owner, the last of them being the reset. -/
def lockedEdit (venueID ownerID : String) (body : CardDB → Except VenueErr Unit × CardDB) (db : CardDB) :
    Except VenueErr Unit × CardDB :=
  match VenueRepo.checkOwner ownerID ((db.venue venueID).map (·.toVenue)) with
  | .error e => (.error e, db)
  | .ok () =>
    match body db with
    | (.error e, _) => (.error e, db)
    | (.ok (), db') =>
      match updateRows "reset to pending_review" (·.id == venueID) (resetToPendingReview env.now) db' with
      | (.error e, _) => (.error e, db)
      | (.ok _, db') => (.ok (), db')

/-- What is written of videos and of the photos of halls, for all the card knows. -/
def editMedia (venueID ownerID : String) (db : CardDB) : Except VenueErr Unit × CardDB :=
  lockedEdit env venueID ownerID (fun db => (.ok (), db)) db

def maxVenuePhotos : ℕ := 24

def photosLimit : VenueErr := .other (.plain "venue photos limit reached")

def photoNotFound : VenueErr := .other (.plain "photo not found")

def addVenuePhoto (venueID ownerID url : String) (db : CardDB) : Except VenueErr Unit × CardDB :=
  lockedEdit env venueID ownerID (fun db =>
    let photos := db.photosOf venueID
    if maxVenuePhotos ≤ photos.length then (.error photosLimit, db)
    else
      match db.photos.insert
        { id := env.newID 0, venueID := venueID, url := url, sortOrder := photos.foldl (fun m p => max m p.sortOrder) (-1) + 1
          isCover := photos.isEmpty } with
      | .error e => (.error (venueViolation "insert venue_photo" e), db)
      | .ok photos => (.ok (), { db with photos := photos })) db

/-- The covers of a venue set anew: the photo with the key, if there is one, and no other. -/
def recover (venueID : String) (cover : Option String) (db : CardDB) : Except VenueErr Unit × CardDB :=
  match db.photos.update (·.venueID == venueID) (fun p => { p with isCover := some p.id == cover }) with
  | .error e => (.error (venueViolation "set cover" e), db)
  | .ok photos => (.ok (), { db with photos := photos })

/-- `ORDER BY sort_order ASC LIMIT 1`. -/
def firstPhoto (photos : List VenuePhoto) : Option String :=
  (photos.foldl (fun (best : Option VenuePhoto) p =>
    match best with
    | none => some p
    | some b => if p.sortOrder < b.sortOrder then some p else some b) none).map (·.id)

def deleteVenuePhoto (venueID ownerID photoID : String) (db : CardDB) : Except VenueErr Unit × CardDB :=
  lockedEdit env venueID ownerID (fun db =>
    let p (x : VenuePhoto) : Bool := x.id == photoID && x.venueID == venueID
    if (db.photos.select p).isEmpty then (.error photoNotFound, db)
    else
      let db := { db with photos := db.photos.delete p }
      recover venueID (firstPhoto (db.photosOf venueID)) db) db

def setVenueCoverPhoto (venueID ownerID photoID : String) (db : CardDB) : Except VenueErr Unit × CardDB :=
  lockedEdit env venueID ownerID (fun db =>
    if (db.photos.select fun x => x.id == photoID && x.venueID == venueID).isEmpty then (.error photoNotFound, db)
    else recover venueID (some photoID) db) db

/-- `ReplaceVenueServices`: no statement on the venue itself. -/
def replaceVenueServices (venueID ownerID : String) (services : List VenueService) (db : CardDB) :
    Except VenueErr Unit × CardDB :=
  match VenueRepo.checkOwner ownerID ((db.venue venueID).map (·.toVenue)) with
  | .error e => (.error e, db)
  | .ok () =>
    match (db.services.delete (·.venueID == venueID)).insertAll (serviceRows env.newID venueID services) with
    | .error e => (.error (venueViolation "insert venue_service" e), db)
    | .ok services => (.ok (), { db with services := services })

/-- `ReplaceVenueHalls`: the halls are written, the card takes its rates, capacity and amenities from them as they are read
back, and goes to the moderators. -/
def replaceVenueHalls (venueID ownerID : String) (items : List VenueHallUpsert) (db : CardDB) : Except VenueErr Unit × CardDB :=
  lockedEdit env venueID ownerID (fun db =>
    match VenueRepo.upsertHalls env.now env.newID venueID 0 items db.halls with
    | .error e => (.error e, db)
    | .ok (kept, halls) =>
      -- with no hall kept the array is `NULL`, and `NOT (id = ANY(NULL))` holds of no row
      let halls := halls.delete fun h => h.venueID == venueID && !kept.isEmpty && !kept.contains h.id
      let rows := env.order (halls.select (·.venueID == venueID))
      let (pf, pw, capacity, am) := VenueRepo.derivedVenueFieldsFromHalls rules.lower rows
      match updateRows "update venue derived from halls" (·.id == venueID) (fun v => { v with
          priceFrom := if rows.isEmpty then v.priceFrom else pf
          priceWeekend := if rows.isEmpty then v.priceWeekend else pw
          capacity := capacity, amenities := am, updatedAt := env.now }) { db with halls := halls } with
      | (.error e, _) => (.error e, db)
      | (.ok _, db) => (.ok (), db)) db

end CardRepo

/-! ## The statements -/

inductive CardSql where
  | getVenue (venueID : String)
  | getServices (venueID : String)
  | getPhotos (venueID : String)
  | getHalls (venueID : String)
  | getBySlug (slug : String)
  | listByOwner (ownerID : String)
  | create (v : VenueCard) (services : List VenueService) (halls : List VenueHall)
  | update (v : VenueCard)
  | updateStatus (venueID : String) (status : VenueStatus) (comment moderatedBy : String)
  | suspendByOwner (ownerID : String)
  | submitDraftForReview (venueID ownerID : String)
  | updateRating (venueID : String) (avgRating : ℚ) (reviewCount : ℤ)
  | setBookingMode (venueID : String) (mode : BookingMode)
  | editMedia (venueID ownerID : String)
  | addVenuePhoto (venueID ownerID url : String)
  | deleteVenuePhoto (venueID ownerID photoID : String)
  | setVenueCoverPhoto (venueID ownerID photoID : String)
  | replaceVenueServices (venueID ownerID : String) (services : List VenueService)
  | replaceVenueHalls (venueID ownerID : String) (items : List VenueHallUpsert)
deriving DecidableEq

namespace CardSql

@[reducible] def Ans : CardSql → Type
  | getVenue _ | getBySlug _ => Option VenueCard
  | getServices _ => List VenueService
  | getPhotos _ => List VenuePhoto
  | getHalls _ => List VenueHall
  | listByOwner _ => List VenueCard
  | create .. => VenueCard
  | update .. | updateStatus .. | suspendByOwner .. | submitDraftForReview .. | updateRating .. | setBookingMode .. => ℤ
  | _ => Unit

open CardRepo in
def run (rules : CardRules) (env : DbEnv) : (s : CardSql) → CardDB → Except VenueErr s.Ans × CardDB
  | getVenue venueID, db => (.ok (db.venue venueID), db)
  | getServices venueID, db => (.ok (inOrder (·.sortOrder) (·.id) (db.servicesOf venueID)), db)
  | getPhotos venueID, db => (.ok (inOrder (·.sortOrder) (·.id) (db.photosOf venueID)), db)
  | getHalls venueID, db => (.ok (inOrder (·.sortOrder) (·.id) (db.hallsOf venueID)), db)
  | getBySlug slug, db => (.ok (db.venues.get (·.slug == slug)), db)
  | listByOwner ownerID, db => (.ok (db.venues.select (·.ownerID == ownerID)), db)
  | create v services halls, db => CardRepo.create rules env v services halls db
  | update v, db => CardRepo.update rules env v db
  | updateStatus venueID status comment moderatedBy, db => CardRepo.updateStatus env venueID status comment moderatedBy db
  | suspendByOwner ownerID, db => CardRepo.suspendByOwner env ownerID db
  | submitDraftForReview venueID ownerID, db => CardRepo.submitDraftForReview env venueID ownerID db
  | updateRating venueID avgRating reviewCount, db => CardRepo.updateRating env venueID avgRating reviewCount db
  | setBookingMode venueID mode, db => CardRepo.setBookingMode venueID mode db
  | editMedia venueID ownerID, db => CardRepo.editMedia env venueID ownerID db
  | addVenuePhoto venueID ownerID url, db => CardRepo.addVenuePhoto env venueID ownerID url db
  | deleteVenuePhoto venueID ownerID photoID, db => CardRepo.deleteVenuePhoto env venueID ownerID photoID db
  | setVenueCoverPhoto venueID ownerID photoID, db => CardRepo.setVenueCoverPhoto env venueID ownerID photoID db
  | replaceVenueServices venueID ownerID services, db => CardRepo.replaceVenueServices env venueID ownerID services db
  | replaceVenueHalls venueID ownerID items, db => CardRepo.replaceVenueHalls rules env venueID ownerID items db

end CardSql

end Agregator
