import Agregator.ConcDue
import Agregator.VenuePlay
/-!
# VenueCache — the two copies of a venue

A venue is kept in the cache under its key and under its slug.  A read stores what it has found in the tables, and a write
deletes the copies after its transaction.  The operations of the cache succeed, and copies expire; the statements may fail
before or after their effect.
-/
namespace Agregator

open Rel Conc

inductive CacheKey where
  | id (venueID : String)
  | slug (s : String)
deriving DecidableEq, Repr

/-- The row that is looked up. -/
def CacheKey.holds : CacheKey → VenueCard → Bool
  | id venueID, r => r.id == venueID
  | slug s, r => r.slug == s

inductive VenueOp where
  | sql (s : CardSql)
  | cacheGet (key : CacheKey)
  | cacheSet (key : CacheKey) (v : VenueDetails)
  | cacheDel (key : CacheKey)
  | enter (key : CacheKey)
  | leave (key : CacheKey) (n : ℕ) (res : Except Err (Option VenueDetails))
  | await (n : ℕ)
  | geocode (query : String)
  | uuid

@[reducible] def VenueOp.Res : VenueOp → Type
  | sql s => Except VenueErr s.Ans
  | cacheGet _ => Option VenueDetails
  | enter _ => Flight
  | await _ => Except Err (Option VenueDetails)
  | geocode _ => Option (ℚ × ℚ)
  | uuid => String
  | _ => Unit

abbrev VenueProg := Prog VenueOp VenueOp.Res

structure VenueWorld where
  db : CardDB
  copies : CacheKey → Option VenueDetails
  flights : List (Option (Except Err (Option VenueDetails)))
  flying : CacheKey → Option ℕ
  clock : Time

/-- What the environment has in store for an operation. -/
structure VenueEnv where
  db : DbEnv
  fault : Fault VenueErr
  point : Option (ℚ × ℚ)
  newID : String

/-- An operation, if it can be performed: a read under way is waited for. -/
def VenueWorld.run (rules : CardRules) (env : VenueEnv) : (o : VenueOp) → VenueWorld → Option (o.Res × VenueWorld)
  | .sql s, w =>
    let (r, db) := env.fault.apply id (s.run rules env.db) w.db
    some (r, { w with db := db })
  | .cacheGet key, w => some (w.copies key, w)
  | .cacheSet key v, w => some ((), { w with copies := Function.update w.copies key (some v) })
  | .cacheDel key, w => some ((), { w with copies := Function.update w.copies key none })
  | .enter key, w =>
    match w.flying key with
    | some n => some (.follow n, w)
    | none => some (.lead w.flights.length,
        { w with flights := w.flights ++ [none], flying := Function.update w.flying key (some w.flights.length) })
  | .leave key n res, w =>
    some ((), { w with flights := w.flights.set n (some res), flying := Function.update w.flying key none })
  | .await n, w =>
    match w.flights[n]? with
    | some (some res) => some (res, w)
    | _ => none
  | .geocode _, w => some (env.point, w)
  | .uuid, w => some (env.newID, w)

def VenueWorld.Exec (rules : CardRules) (o : VenueOp) (w : VenueWorld) (r : o.Res) (w' : VenueWorld) : Prop :=
  ∃ env : VenueEnv, env.db.now = w.clock ∧ (∀ l, (env.db.order l).Perm l) ∧ isUUID env.newID = true ∧
    w.run rules env o = some (r, w')

/-- Time passes, and copies expire. -/
def VenueWorld.Passes (w w' : VenueWorld) : Prop :=
  ∃ later copies, w.clock ≤ later ∧ (∀ key, copies key = w.copies key ∨ copies key = none) ∧
    w' = { w with clock := later, copies := copies }

/-! ## The calls -/

/-- An operation on the cards, where the copies have keys. -/
def CardOp.keyed : CardOp → VenueOp
  | sql s => .sql s
  | cacheGet venueID => .cacheGet (.id venueID)
  | cacheSet v => .cacheSet (.id v.card.id) v
  | cacheDel venueID => .cacheDel (.id venueID)
  | enter venueID => .enter (.id venueID)
  | leave venueID n res => .leave (.id venueID) n res
  | await n => .await n
  | geocode query => .geocode query
  | uuid => .uuid

def CardOp.ofKeyed : (o : CardOp) → o.keyed.Res → o.Res
  | sql _, r | cacheGet _, r | cacheSet _, r | cacheDel _, r | enter _, r | leave _ _ _, r | await _, r | geocode _, r
  | uuid, r => r

namespace CachedVenue

abbrev query (s : CardSql) : VenueProg (Except VenueErr s.Ans) := Prog.perform (VenueOp.sql s)

def selectVenue : CacheKey → VenueProg (Except VenueErr (Option VenueCard))
  | .id venueID => query (.getVenue venueID)
  | .slug slug => query (.getBySlug slug)

/-- `attachVenueDetails`, statement by statement. -/
def attachDetails (card : VenueCard) : VenueProg (Except Err (Option VenueDetails)) := do
  match ← query (.getServices card.id) with
  | .error e => return .error e.err
  | .ok services =>
    match ← query (.getPhotos card.id) with
    | .error e => return .error e.err
    | .ok photos =>
      match ← query (.getHalls card.id) with
      | .error e => return .error e.err
      | .ok halls => return .ok (some ⟨card, services, photos, halls⟩)

/-- `repo.GetByID` and `repo.GetBySlug`. -/
def repoGet (key : CacheKey) : VenueProg (Except Err (Option VenueDetails)) := do
  match ← selectVenue key with
  | .error e => return .error e.err
  | .ok none => return .ok none
  | .ok (some card) => attachDetails card

def getUncached (key : CacheKey) : VenueProg (Except Err (Option VenueDetails)) := do
  match ← Prog.perform (VenueOp.cacheGet key) with
  | some v => return .ok (some v)
  | none =>
    match ← repoGet key with
    | .ok (some v) => do
      Prog.perform (VenueOp.cacheSet key v)
      return .ok (some v)
    | res => return res

/-- One read of a key serves all who ask for it meanwhile. -/
def get (key : CacheKey) : VenueProg (Except Err (Option VenueDetails)) := do
  match ← Prog.perform (VenueOp.enter key) with
  | .follow n => Prog.perform (VenueOp.await n)
  | .lead n => do
    let res ← getUncached key
    Prog.perform (VenueOp.leave key n res)
    return res

def getByID (venueID : String) : VenueProg (Except Err (Option VenueDetails)) := get (.id venueID)

def getBySlug (slug : String) : VenueProg (Except Err (Option VenueDetails)) := get (.slug slug)

def invalidateCache (venueID slug : String) : VenueProg Unit := do
  Prog.perform (VenueOp.cacheDel (.id venueID))
  if slug = "" then return () else Prog.perform (VenueOp.cacheDel (.slug slug))

/-- A read of a venue there is to be, past the cache. -/
def readVenue (venueID : String) : VenueProg (Except Err VenueDetails) := do
  match ← repoGet (.id venueID) with
  | .error e => return .error e
  | .ok none => return .error venueNotFound
  | .ok (some v) => return .ok v

/-- The writes that read the venue, check it and run one transaction. -/
def edit (venueID : String) (check : VenueDetails → Except Err CardSql) (writeErr : VenueErr → Err) :
    VenueProg (Except Err Unit) := do
  match ← readVenue venueID with
  | .error e => return .error e
  | .ok v =>
    match check v with
    | .error e => return .error e
    | .ok s =>
      match ← query s with
      | .error e => return .error (writeErr e)
      | .ok _ => do
        invalidateCache venueID v.card.slug
        return .ok ()

/-- The owner alone may write. -/
def owned (ownerID : String) (s : CardSql) (v : VenueDetails) : Except Err CardSql :=
  if v.card.ownerID ≠ ownerID then .error notVenueOwner else .ok s

def replaceVenueServices (venueID ownerID : String) (services : List VenueService) : VenueProg (Except Err Unit) := do
  match VenueUseCase.checkServices services with
  | .error e => return .error e
  | .ok () =>
    edit venueID (owned ownerID (.replaceVenueServices venueID ownerID (services.map fun s =>
      { s with name := trimSpace s.name, description := trimSpace s.description }))) venueWriteGuardErr

def replaceVenueHalls (venueID ownerID : String) (items : List VenueHallUpsert) : VenueProg (Except Err Unit) :=
  edit venueID (fun v =>
    match owned ownerID (.replaceVenueHalls venueID ownerID items) v with
    | .error e => .error e
    | .ok s => if VenueUseCase.maxVenueHalls < items.length then .error (invalidVenue "превышен лимит залов") else .ok s)
    VenueUseCase.hallsErr

def addVenuePhoto (venueID ownerID url : String) : VenueProg (Except Err Unit) :=
  edit venueID (fun v =>
    match owned ownerID (.addVenuePhoto venueID ownerID url) v with
    | .error e => .error e
    | .ok s =>
      if CardRepo.maxVenuePhotos ≤ v.photos.length then .error (invalidVenue "достигнут лимит фотографий") else .ok s)
    VenueUseCase.photosErr

def deleteVenuePhoto (venueID ownerID photoID : String) : VenueProg (Except Err Unit) :=
  edit venueID (owned ownerID (.deleteVenuePhoto venueID ownerID photoID)) VenueUseCase.photosErr

def setVenueCoverPhoto (venueID ownerID photoID : String) : VenueProg (Except Err Unit) :=
  edit venueID (owned ownerID (.setVenueCoverPhoto venueID ownerID photoID)) VenueUseCase.photosErr

/-- The edits of videos and of the photos of halls, for all the card knows. -/
def editMedia (venueID ownerID : String) : VenueProg (Except Err Unit) :=
  edit venueID (owned ownerID (.editMedia venueID ownerID)) VenueUseCase.photosErr

def create (rules : CardRules) (v : VenueCard) (services : List VenueService) (halls : List VenueHall) :
    VenueProg (Except Err Unit) := do
  match normalizeCard rules (validateVenueVerificationCore rules) v with
  | .error e => return .error e
  | .ok v =>
    if VenueUseCase.maxVenueHalls < halls.length then return .error (invalidVenue "превышен лимит залов")
    else
      match VenueUseCase.trimHalls halls with
      | .error e => return .error e
      | .ok halls => do
        let v ← (VenueUseCase.resolveCoordinates v).lift CardOp.keyed CardOp.ofKeyed
        match ← (VenueUseCase.repoCreate rules v services halls).lift CardOp.keyed CardOp.ofKeyed with
        | .error e => return .error e
        | .ok v => do
          invalidateCache v.id v.slug
          return .ok ()

def update (rules : CardRules) (v : VenueCard) : VenueProg (Except Err Unit) := do
  match normalizeCard rules (validateVenueVerificationForUpdate rules) v with
  | .error e => return .error e
  | .ok v => do
    let v ← (VenueUseCase.resolveCoordinates v).lift CardOp.keyed CardOp.ofKeyed
    match ← query (.update v) with
    | .error e => return .error e.err
    | .ok _ => do
      invalidateCache v.id v.slug
      return .ok ()

def submitVenueForReview (rules : CardRules) (venueID ownerID : String) : VenueProg (Except Err Unit) := do
  match ← readVenue venueID with
  | .error e => return .error e
  | .ok v =>
    if v.card.ownerID ≠ ownerID ∨ v.card.status ≠ .draft then return .error VenueUseCase.notSubmittable
    else
      match validateVenueDraftReadyForReview rules v with
      | .error e => return .error e
      | .ok () =>
        match ← query (.submitDraftForReview venueID ownerID) with
        | .error e => return .error e.err
        | .ok n =>
          if n = 0 then return .error VenueUseCase.notSubmittable
          else
            match ← readVenue venueID with
            | .error e => return .error e
            | .ok v => do
              invalidateCache venueID v.card.slug
              return .ok ()

/-- `Moderate`, on what the action and the comment come to. -/
def moderateAs (venueID action comment moderatedBy : String) : VenueProg (Except Err Unit) := do
  match ← readVenue venueID with
  | .error e => return .error e
  | .ok existing =>
    match VenueUseCase.newStatus existing.card.status action with
    | .error e => return .error e
    | .ok status =>
      if (action = "reject" ∨ action = "suspend") ∧ comment = "" then
        return .error (invalidVenue "комментарий обязателен для этого действия")
      else
        match ← query (.updateStatus venueID status comment moderatedBy) with
        | .error e => return .error e.err
        | .ok _ =>
          match ← readVenue venueID with
          | .error e => return .error e
          | .ok v => do
            invalidateCache venueID v.card.slug
            return .ok ()

def moderate (rules : CardRules) (venueID action comment moderatedBy : String) : VenueProg (Except Err Unit) :=
  moderateAs venueID (trimSpace (rules.lower action)) (trimSpace comment) moderatedBy

def dropCopies : List VenueCard → VenueProg Unit
  | [] => .ret ()
  | v :: vs => (invalidateCache v.id v.slug).bind fun () => dropCopies vs

def suspendByOwner (ownerID : String) : VenueProg (Except Err Unit) := do
  match ← query (.listByOwner ownerID) with
  | .error e => return .error e.err
  | .ok venues =>
    match ← query (.suspendByOwner ownerID) with
    | .error e => return .error e.err
    | .ok _ => do
      dropCopies venues
      return .ok ()

/-- The copy under the slug is left. -/
def updateRating (venueID : String) (avgRating : ℚ) (reviewCount : ℤ) : VenueProg (Except Err Unit) := do
  if avgRating < 0 ∨ 5 < avgRating then return .error (invalidVenue "средняя оценка должна быть в диапазоне 0–5")
  else if reviewCount < 0 then return .error (invalidVenue "количество отзывов не может быть отрицательным")
  else
    match ← query (.updateRating venueID avgRating reviewCount) with
    | .error e => return .error e.err
    | .ok _ => do
      invalidateCache venueID ""
      return .ok ()

end CachedVenue

inductive CacheCall where
  | getByID (venueID : String)
  | getBySlug (slug : String)
  | create (v : VenueCard) (services : List VenueService) (halls : List VenueHall)
  | update (v : VenueCard)
  | replaceVenueServices (venueID ownerID : String) (services : List VenueService)
  | replaceVenueHalls (venueID ownerID : String) (items : List VenueHallUpsert)
  | addVenuePhoto (venueID ownerID url : String)
  | deleteVenuePhoto (venueID ownerID photoID : String)
  | setVenueCoverPhoto (venueID ownerID photoID : String)
  | editMedia (venueID ownerID : String)
  | submitVenueForReview (venueID ownerID : String)
  | moderate (venueID action comment moderatedBy : String)
  | suspendByOwner (ownerID : String)
  | updateRating (venueID : String) (avgRating : ℚ) (reviewCount : ℤ)

/-- A call returns the venue that was read, or no more than that it was written. -/
abbrev CacheAnswer := Except Err (Option VenueDetails)

open CachedVenue in
def CacheCall.prog (rules : CardRules) : CacheCall → VenueProg CacheAnswer
  | getByID venueID => CachedVenue.getByID venueID
  | getBySlug slug => CachedVenue.getBySlug slug
  | create v services halls => written (CachedVenue.create rules v services halls)
  | update v => written (CachedVenue.update rules v)
  | replaceVenueServices venueID ownerID services => written (CachedVenue.replaceVenueServices venueID ownerID services)
  | replaceVenueHalls venueID ownerID items => written (CachedVenue.replaceVenueHalls venueID ownerID items)
  | addVenuePhoto venueID ownerID url => written (CachedVenue.addVenuePhoto venueID ownerID url)
  | deleteVenuePhoto venueID ownerID photoID => written (CachedVenue.deleteVenuePhoto venueID ownerID photoID)
  | setVenueCoverPhoto venueID ownerID photoID => written (CachedVenue.setVenueCoverPhoto venueID ownerID photoID)
  | editMedia venueID ownerID => written (CachedVenue.editMedia venueID ownerID)
  | submitVenueForReview venueID ownerID => written (CachedVenue.submitVenueForReview rules venueID ownerID)
  | moderate venueID action comment moderatedBy => written (CachedVenue.moderate rules venueID action comment moderatedBy)
  | suspendByOwner ownerID => written (CachedVenue.suspendByOwner ownerID)
  | updateRating venueID avgRating reviewCount => written (CachedVenue.updateRating venueID avgRating reviewCount)
where
  written (p : VenueProg (Except Err Unit)) : VenueProg CacheAnswer := p.bind fun res => .ret (res.map fun _ => none)

/-- A venue has the key and the slug. -/
def CardDB.Has (db : CardDB) (venueID slug : String) : Prop := ∃ r ∈ db.venues.rows, r.id = venueID ∧ r.slug = slug

/-- `UpdateVenue` changes neither the key nor the slug of the card that it has read. -/
def CacheCall.Ready : CacheCall → VenueWorld → Prop
  | update v, w => w.db.Has v.id v.slug
  | _, _ => True

def cacheSys (rules : CardRules) : Sys VenueWorld CacheCall VenueOp VenueOp.Res CacheAnswer where
  prog := CacheCall.prog rules
  ready := CacheCall.Ready
  exec := VenueWorld.Exec rules
  env := VenueWorld.Passes

/-! ## What the tables show -/

namespace CardDB

def details (db : CardDB) (r : VenueCard) : VenueDetails :=
  ⟨r, inOrder (·.sortOrder) (·.id) (db.servicesOf r.id), inOrder (·.sortOrder) (·.id) (db.photosOf r.id),
    inOrder (·.sortOrder) (·.id) (db.hallsOf r.id)⟩

def view (db : CardDB) (key : CacheKey) : Option VenueDetails := (db.venues.get key.holds).map db.details

end CardDB

/-- **Every copy is what the tables show.** -/
def VenueWorld.Coherent (w : VenueWorld) : Prop := ∀ key v, w.copies key = some v → w.db.view key = some v

end Agregator
