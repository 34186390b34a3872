import Agregator.RelOrder
import Agregator.VenueCard
import Mathlib.Data.String.Basic
/-!
# VenueBatch — a venue read alone and among others

`GetByID` attaches the details of one venue by a statement for each kind; `GetByIDs` reads them for all its venues at once and
collects them by venue.  The database answers a statement in any order its `ORDER BY` admits.  The two agree on a venue exactly
when it has no video, for the batch reads none, and no two photos at one place (`getByIDs_agrees_iff`).
-/
namespace Agregator

open Rel

/-! ## The store -/

structure VenueVideo where
  id : String
  venueID : String
  url : String
  sortOrder : ℤ
deriving DecidableEq, Repr

structure VenueHallPhoto where
  id : String
  hallID : String
  url : String
  sortOrder : ℤ
  isCover : Bool
deriving DecidableEq, Repr

def venueVideoSchema : Schema VenueVideo where
  check v := isUUID v.id && isUUID v.venueID
  clash a b := a.id == b.id
  clash_comm a b := by simp only [Bool.beq_comm]

def venueHallPhotoSchema : Schema VenueHallPhoto where
  check p := isUUID p.id && isUUID p.hallID
  clash a b := a.id == b.id || (a.hallID == b.hallID && a.isCover && b.isCover)
  clash_comm a b := by
    rw [Bool.beq_comm, Bool.beq_comm (a := a.hallID), Bool.and_right_comm]

structure DetailDB extends CardDB where
  hallPhotos : Table venueHallPhotoSchema
  videos : Table venueVideoSchema

namespace DetailDB

variable (db : DetailDB)

def videosOf (venueID : String) : List VenueVideo := db.videos.select (·.venueID == venueID)

def photosOfHall (hallID : String) : List VenueHallPhoto := db.hallPhotos.select (·.hallID == hallID)

end DetailDB

/-! ## The answers -/

structure HallDetails where
  hall : VenueHall
  photos : List VenueHallPhoto
deriving DecidableEq, Repr

/-- `domain.Venue`.  The row is here whole, with the columns no statement of these selects. -/
structure VenueFull where
  venue : VenueCard
  services : List VenueService
  photos : List VenuePhoto
  videos : List VenueVideo
  halls : List HallDetails
deriving DecidableEq, Repr

/-- The scan of a row: the details are nil. -/
def VenueFull.scan (v : VenueCard) : VenueFull := ⟨v, [], [], [], []⟩

inductive ReadStmt where
  | getVenue
  | getVenues
  | getServices
  | getPhotos
  | getVideos
  | getServicesByVenueIDs
  | getPhotosByVenueIDs
  | getHalls
  | getHallPhotos
deriving DecidableEq, Repr

/-- How the database answers the statements of a call: the error of one that fails, and the order of the rows. -/
structure ReadEnv where
  down : ReadStmt → Option Err
  venues : OrderBy fun _ : VenueCard => ()
  services : OrderBy fun s : VenueService => toLex (s.sortOrder, s.id)
  photos : OrderBy fun p : VenuePhoto => p.sortOrder
  videos : OrderBy fun v : VenueVideo => v.sortOrder
  servicesBatch : OrderBy fun s : VenueService => toLex (s.venueID, toLex (s.sortOrder, s.id))
  photosBatch : OrderBy fun p : VenuePhoto => toLex (p.venueID, toLex (p.sortOrder, p.id))
  halls : OrderBy fun h : VenueHall => toLex (h.venueID, toLex (h.sortOrder, h.id))
  hallPhotos : OrderBy fun p : VenueHallPhoto => toLex (p.hallID, toLex (p.sortOrder, p.id))

/-- No statement fails, and rows that may come in any order come as they were stored. -/
def ReadEnv.stable : ReadEnv where
  down _ := none
  venues := .stable _
  services := .stable _
  photos := .stable _
  videos := .stable _
  servicesBatch := .stable _
  photosBatch := .stable _
  halls := .stable _
  hallPhotos := .stable _

/-! ## The repository -/

namespace DetailRepo

variable (env : ReadEnv)

def read {α : Type} (s : ReadStmt) (rows : List α) : Except Err (List α) :=
  match env.down s with
  | some e => .error e
  | none => .ok rows

def getServices (venueID : String) (db : DetailDB) : Except Err (List VenueService) :=
  read env .getServices (env.services.run (db.services.rows.filter fun s => s.venueID = venueID))

def getPhotos (venueID : String) (db : DetailDB) : Except Err (List VenuePhoto) :=
  read env .getPhotos (env.photos.run (db.photos.rows.filter fun p => p.venueID = venueID))

def getVideos (venueID : String) (db : DetailDB) : Except Err (List VenueVideo) :=
  read env .getVideos (env.videos.run (db.videos.rows.filter fun v => v.venueID = venueID))

def getServicesByVenueIDs (venueIDs : List String) (db : DetailDB) : Except Err (String → List VenueService) := do
  if venueIDs = [] then return fun _ => []
  let rows ← read env .getServicesByVenueIDs (env.servicesBatch.run (db.services.rows.filter fun s => s.venueID ∈ venueIDs))
  return collect (·.venueID) rows

def getPhotosByVenueIDs (venueIDs : List String) (db : DetailDB) : Except Err (String → List VenuePhoto) := do
  if venueIDs = [] then return fun _ => []
  let rows ← read env .getPhotosByVenueIDs (env.photosBatch.run (db.photos.rows.filter fun p => p.venueID ∈ venueIDs))
  return collect (·.venueID) rows

def getHallsWithPhotosByVenueIDs (venueIDs : List String) (db : DetailDB) : Except Err (String → List HallDetails) := do
  if venueIDs = [] then return fun _ => []
  let flat ← read env .getHalls (env.halls.run (db.halls.rows.filter fun h => h.venueID ∈ venueIDs))
  if flat = [] then return fun _ => []
  let hallIDs := flat.map (·.id)
  let photos ← read env .getHallPhotos (env.hallPhotos.run (db.hallPhotos.rows.filter fun p => p.hallID ∈ hallIDs))
  let byHall := collect (·.hallID) photos
  return collect (·.hall.venueID) (flat.map fun h => ⟨h, byHall h.id⟩)

def getHallsWithPhotos (venueID : String) (db : DetailDB) : Except Err (List HallDetails) := do
  let m ← getHallsWithPhotosByVenueIDs env [venueID] db
  return m venueID

def attachVenueDetails (v : VenueFull) (db : DetailDB) : Except Err VenueFull := do
  let services ← (getServices env v.venue.id db).mapError (·.wrap "attach venue services")
  let photos ← (getPhotos env v.venue.id db).mapError (·.wrap "attach venue photos")
  let videos ← (getVideos env v.venue.id db).mapError (·.wrap "attach venue videos")
  let halls ← (getHallsWithPhotos env v.venue.id db).mapError (·.wrap "attach venue halls")
  return { v with services := services, photos := photos, videos := videos, halls := halls }

def getByID (id : String) (db : DetailDB) : Except Err (Option VenueFull) :=
  match env.down .getVenue with
  | some e => .error (e.wrap "get venue")
  | none =>
    match db.venue id with
    | none => .ok none
    | some v => (attachVenueDetails env (.scan v) db).map some

def attachVenueDetailsBatch (venues : List VenueFull) (db : DetailDB) : Except Err (List VenueFull) := do
  if venues = [] then return []
  let ids := venues.map (·.venue.id)
  let svcBy ← getServicesByVenueIDs env ids db
  let photosBy ← getPhotosByVenueIDs env ids db
  let hallsBy ← getHallsWithPhotosByVenueIDs env ids db
  return venues.map fun v =>
    { v with services := svcBy v.venue.id, photos := photosBy v.venue.id, halls := hallsBy v.venue.id }

def getByIDs (ids : List String) (db : DetailDB) : Except Err (List VenueFull) := do
  if ids = [] then return []
  let rows ← read env .getVenues (env.venues.run (db.venues.rows.filter fun v => v.id ∈ ids))
  attachVenueDetailsBatch env (rows.map .scan) db

/-! ## What the statements answer -/

section Answers

variable {env : ReadEnv} {db : DetailDB} {ids : List String}

theorem of_read {α : Type} {s : ReadStmt} {rows r : List α} (h : read env s rows = .ok r) : r = rows := by
  unfold read at h
  split at h
  · cases h
  · exact (Except.ok.inj h).symm

/-- Rows by `sort_order` and `id`. -/
def servicesIn (db : DetailDB) (venueID : String) : List VenueService :=
  (OrderBy.stable fun s : VenueService => toLex (s.sortOrder, s.id)).run (db.services.rows.filter fun s => s.venueID = venueID)

def photosIn (db : DetailDB) (venueID : String) : List VenuePhoto :=
  (OrderBy.stable fun p : VenuePhoto => toLex (p.sortOrder, p.id)).run (db.photos.rows.filter fun p => p.venueID = venueID)

def hallPhotosIn (db : DetailDB) (hallID : String) : List VenueHallPhoto :=
  (OrderBy.stable fun p : VenueHallPhoto => toLex (p.sortOrder, p.id)).run
    (db.hallPhotos.rows.filter fun p => p.hallID = hallID)

def hallsIn (db : DetailDB) (venueID : String) : List HallDetails :=
  ((OrderBy.stable fun h : VenueHall => toLex (h.sortOrder, h.id)).run
    (db.halls.rows.filter fun h => h.venueID = venueID)).map fun h => ⟨h, hallPhotosIn db h.id⟩

theorem id_of_key {m n : ℤ} {a b : String} (h : toLex (m, a) = toLex (n, b)) : a = b :=
  (Prod.mk.inj (toLex.injective h)).2

theorem service_key {a b : VenueService} (ha : a ∈ db.services.rows) (hb : b ∈ db.services.rows)
    (h : toLex (a.sortOrder, a.id) = toLex (b.sortOrder, b.id)) : a = b :=
  db.services.eq_of_clash ha hb (beq_iff_eq.2 (id_of_key h))

theorem hall_key {a b : VenueHall} (ha : a ∈ db.halls.rows) (hb : b ∈ db.halls.rows)
    (h : toLex (a.sortOrder, a.id) = toLex (b.sortOrder, b.id)) : a = b :=
  db.halls.eq_of_clash ha hb (beq_iff_eq.2 (id_of_key h))

theorem photo_key {a b : VenuePhoto} (ha : a ∈ db.photos.rows) (hb : b ∈ db.photos.rows)
    (h : toLex (a.sortOrder, a.id) = toLex (b.sortOrder, b.id)) : a = b :=
  db.photos.eq_of_clash ha hb (Bool.or_eq_true_iff.2 (.inl (beq_iff_eq.2 (id_of_key h))))

theorem hallPhoto_key {a b : VenueHallPhoto} (ha : a ∈ db.hallPhotos.rows) (hb : b ∈ db.hallPhotos.rows)
    (h : toLex (a.sortOrder, a.id) = toLex (b.sortOrder, b.id)) : a = b :=
  db.hallPhotos.eq_of_clash ha hb (Bool.or_eq_true_iff.2 (.inl (beq_iff_eq.2 (id_of_key h))))

theorem getServices_ok {venueID : String} {r : List VenueService} (h : getServices env venueID db = .ok r) :
    r = servicesIn db venueID := by
  rw [of_read h]
  refine OrderBy.eq_run (env.services.perm _) (env.services.sorted _) fun a ha b hb => ?_
  exact service_key (List.mem_filter.1 ha).1 (List.mem_filter.1 hb).1

theorem servicesByVenueIDs_ok {m : String → List VenueService} (h : getServicesByVenueIDs env ids db = .ok m) :
    ∀ k ∈ ids, m k = servicesIn db k := by
  intro k hk
  unfold getServicesByVenueIDs at h
  rw [if_neg (List.ne_nil_of_mem hk)] at h
  obtain ⟨rows, hrows, h⟩ := Except.of_bind h
  cases h
  rw [of_read hrows]
  exact OrderBy.collect_run hk fun a ha b hb _ _ => service_key ha hb

theorem photosByVenueIDs_ok {m : String → List VenuePhoto} (h : getPhotosByVenueIDs env ids db = .ok m) :
    ∀ k ∈ ids, m k = photosIn db k := by
  intro k hk
  unfold getPhotosByVenueIDs at h
  rw [if_neg (List.ne_nil_of_mem hk)] at h
  obtain ⟨rows, hrows, h⟩ := Except.of_bind h
  cases h
  rw [of_read hrows]
  exact OrderBy.collect_run hk fun a ha b hb _ _ => photo_key ha hb

/-- **The halls of a venue with their photos**, whatever venues are read with it. -/
theorem hallsByVenueIDs_ok {m : String → List HallDetails} (h : getHallsWithPhotosByVenueIDs env ids db = .ok m) :
    ∀ k ∈ ids, m k = hallsIn db k := by
  intro k hk
  unfold getHallsWithPhotosByVenueIDs at h
  rw [if_neg (List.ne_nil_of_mem hk)] at h
  obtain ⟨flat, hflat, h⟩ := Except.of_bind h
  have hflat := of_read hflat
  have hhalls : collect (·.venueID) flat k =
      (OrderBy.stable fun h : VenueHall => toLex (h.sortOrder, h.id)).run (db.halls.rows.filter fun h => h.venueID = k) := by
    rw [hflat]
    exact OrderBy.collect_run hk fun a ha b hb _ _ => hall_key ha hb
  by_cases hnil : flat = []
  · rw [if_pos hnil] at h
    cases h
    rw [hnil] at hhalls
    unfold hallsIn
    rw [← hhalls]
    rfl
  · rw [if_neg hnil] at h
    obtain ⟨photos, hphotos, h⟩ := Except.of_bind h
    cases h
    have hphotos := of_read hphotos
    rw [collect_map]
    unfold hallsIn
    rw [← hhalls]
    refine List.map_congr_left fun hall hmem => ?_
    have hin : hall.id ∈ flat.map (·.id) := by
      rw [collect_eq] at hmem
      exact List.mem_map.2 ⟨hall, (List.mem_filter.1 hmem).1, rfl⟩
    rw [hphotos]
    exact congrArg _ (OrderBy.collect_run hin fun a ha b hb _ _ => hallPhoto_key ha hb)

/-- **A venue read alone.** -/
theorem getByID_ok {id : String} {r : Option VenueFull} (h : getByID env id db = .ok r) :
    r = (db.venue id).map fun v =>
      ⟨v, servicesIn db v.id, env.photos.run (db.photos.rows.filter fun p => p.venueID = v.id),
        env.videos.run (db.videos.rows.filter fun x => x.venueID = v.id), hallsIn db v.id⟩ := by
  unfold getByID at h
  split at h
  · cases h
  cases hv : db.venue id with
  | none =>
    rw [hv] at h
    cases h
    rfl
  | some v =>
    rw [hv] at h
    dsimp only at h
    cases hfull : attachVenueDetails env (.scan v) db with
    | error e =>
      rw [hfull] at h
      cases h
    | ok full =>
      rw [hfull] at h
      cases h
      unfold attachVenueDetails at hfull
      obtain ⟨services, hservices, hfull⟩ := Except.of_bind hfull
      obtain ⟨photos, hphotos, hfull⟩ := Except.of_bind hfull
      obtain ⟨videos, hvideos, hfull⟩ := Except.of_bind hfull
      obtain ⟨halls, hhalls, hfull⟩ := Except.of_bind hfull
      cases hfull
      obtain ⟨m, hm, hhalls⟩ := Except.of_bind (Except.of_mapError hhalls)
      cases hhalls
      rw [getServices_ok (Except.of_mapError hservices), of_read (Except.of_mapError hphotos),
        of_read (Except.of_mapError hvideos), hallsByVenueIDs_ok hm _ (List.mem_singleton.2 rfl)]
      rfl

/-- A row of the batch. -/
def batchFull (db : DetailDB) (v : VenueCard) : VenueFull := ⟨v, servicesIn db v.id, photosIn db v.id, [], hallsIn db v.id⟩

/-- **Venues read together**: each that is asked for and is there, once, and without its videos. -/
theorem getByIDs_ok {vs : List VenueFull} (h : getByIDs env ids db = .ok vs) :
    ∃ rows : List VenueCard, rows.Perm (db.venues.rows.filter fun v => v.id ∈ ids) ∧ vs = rows.map (batchFull db) := by
  unfold getByIDs at h
  by_cases hids : ids = []
  · rw [if_pos hids] at h
    cases h
    refine ⟨[], ?_, rfl⟩
    subst hids
    simp
  rw [if_neg hids] at h
  obtain ⟨rows, hrows, h⟩ := Except.of_bind h
  refine ⟨rows, ?_, ?_⟩
  · rw [of_read hrows]
    exact env.venues.perm _
  · unfold attachVenueDetailsBatch at h
    by_cases hnil : rows.map VenueFull.scan = []
    · rw [if_pos hnil] at h
      cases h
      rw [List.map_eq_nil_iff.1 hnil]
      rfl
    rw [if_neg hnil] at h
    obtain ⟨svcBy, hsvc, h⟩ := Except.of_bind h
    obtain ⟨photosBy, hphotos, h⟩ := Except.of_bind h
    obtain ⟨hallsBy, hhalls, h⟩ := Except.of_bind h
    cases h
    rw [List.map_map]
    refine List.map_congr_left fun v hv => ?_
    have hid : v.id ∈ (rows.map VenueFull.scan).map (·.venue.id) := by
      rw [List.map_map]
      exact List.mem_map.2 ⟨v, hv, rfl⟩
    dsimp only [Function.comp, VenueFull.scan, batchFull]
    rw [servicesByVenueIDs_ok hsvc _ hid, photosByVenueIDs_ok hphotos _ hid, hallsByVenueIDs_ok hhalls _ hid]

end Answers

/-! ## Agreement -/

/-- The venues of a batch are those it asks for that are there, each as it is read alone. -/
def BatchAgrees (db : DetailDB) (ids : List String) : Prop :=
  ∀ env env' vs, getByIDs env ids db = .ok vs →
    (vs.map (·.venue.id)).Nodup ∧ (∀ v ∈ vs, v.venue.id ∈ ids) ∧
      ∀ id ∈ ids, ∀ r, getByID env' id db = .ok r → r = vs.find? fun v => v.venue.id = id

section Agree

variable {db : DetailDB} {ids : List String}

theorem venue_eq_some {id : String} {v : VenueCard} : db.venue id = some v ↔ v ∈ db.venues.rows ∧ v.id = id := by
  unfold CardDB.venue
  constructor
  · intro h
    obtain ⟨hv, hid⟩ := Table.get_mem h
    exact ⟨hv, beq_iff_eq.1 hid⟩
  · rintro ⟨hv, rfl⟩
    exact Table.get_key _ hv (beq_iff_eq.2 rfl) fun x hx => Bool.or_eq_true_iff.2 (.inl hx)

/-- The venue of a batch with an id. -/
theorem find_batch {rows : List VenueCard} (hperm : rows.Perm (db.venues.rows.filter fun v => v.id ∈ ids)) {id : String}
    (hid : id ∈ ids) : (rows.map (batchFull db)).find? (fun v => v.venue.id = id) = (db.venue id).map (batchFull db) := by
  rw [List.find?_map]
  congr 1
  have hmem : ∀ v, v ∈ rows ∧ v.id = id ↔ db.venue id = some v := by
    intro v
    rw [hperm.mem_iff, List.mem_filter, venue_eq_some]
    constructor
    · rintro ⟨⟨hv, -⟩, hvid⟩
      exact ⟨hv, hvid⟩
    · rintro ⟨hv, rfl⟩
      exact ⟨⟨hv, decide_eq_true hid⟩, rfl⟩
  cases hv : db.venue id with
  | none =>
    rw [List.find?_eq_none]
    intro v hvr hvid
    have := (hmem v).1 ⟨hvr, of_decide_eq_true hvid⟩
    rw [hv] at this
    cases this
  | some v =>
    obtain ⟨hvr, hvid⟩ := (hmem v).2 hv
    cases hfind : rows.find? ((fun v => decide (v.venue.id = id)) ∘ batchFull db) with
    | none =>
      have := List.find?_eq_none.1 hfind v hvr
      exact absurd (decide_eq_true hvid) this
    | some v' =>
      have hid' := List.find?_some hfind
      have := (hmem v').1 ⟨List.mem_of_find?_eq_some hfind, of_decide_eq_true hid'⟩
      rw [hv] at this
      exact this.symm

theorem mem_photosOf {venueID : String} {p : VenuePhoto} :
    p ∈ db.photosOf venueID ↔ p ∈ db.photos.rows.filter fun p => p.venueID = venueID := by
  unfold CardDB.photosOf Table.select
  rw [List.mem_filter, List.mem_filter, beq_iff_eq, decide_eq_true_iff]

theorem videosOf_eq {venueID : String} : db.videosOf venueID = db.videos.rows.filter fun x => x.venueID = venueID := by
  unfold DetailDB.videosOf Table.select
  exact List.filter_congr fun x _ => Bool.beq_eq_decide_eq x.venueID venueID

/-- Where no two photos are at one place, the id that the batch puts after the place settles nothing. -/
theorem photos_eq (o : OrderBy fun p : VenuePhoto => p.sortOrder) {venueID : String}
    (honce : ∀ p ∈ db.photosOf venueID, ∀ q ∈ db.photosOf venueID, p.sortOrder = q.sortOrder → p = q) :
    photosIn db venueID = o.run (db.photos.rows.filter fun p => p.venueID = venueID) := by
  refine OrderBy.eq_run (OrderBy.perm _ _) ?_ fun p hp q hq => honce p (mem_photosOf.2 hp) q (mem_photosOf.2 hq)
  refine (OrderBy.sorted _ _).imp fun {p q} hpq => ?_
  rcases Prod.Lex.toLex_le_toLex.1 hpq with hlt | ⟨heq, -⟩
  · exact hlt.le
  · exact heq.le

theorem photos_nodup (db : DetailDB) (venueID : String) : (db.photos.rows.filter fun p => p.venueID = venueID).Nodup := by
  refine List.Nodup.filter _ (db.photos.noClash.imp fun {p q} hpq heq => ?_)
  rw [heq] at hpq
  simp [venuePhotoSchema] at hpq

section Answered

variable {env : ReadEnv} (hup : ∀ s, env.down s = none)

include hup

theorem read_answered {α : Type} (s : ReadStmt) (rows : List α) : ∃ r, read env s rows = .ok r := by
  unfold read
  rw [hup s]
  exact ⟨rows, rfl⟩

theorem halls_answered (ids : List String) (db : DetailDB) : ∃ m, getHallsWithPhotosByVenueIDs env ids db = .ok m := by
  unfold getHallsWithPhotosByVenueIDs
  split
  · exact ⟨_, rfl⟩
  · refine Except.bind_ok (read_answered hup _ _) fun flat => ?_
    split
    · exact ⟨_, rfl⟩
    · exact Except.bind_ok (read_answered hup _ _) fun _ => ⟨_, rfl⟩

/-- A database that does not fail answers a batch, -/
theorem getByIDs_answered (ids : List String) (db : DetailDB) : ∃ vs, getByIDs env ids db = .ok vs := by
  unfold getByIDs
  split
  · exact ⟨_, rfl⟩
  refine Except.bind_ok (read_answered hup _ _) fun rows => ?_
  unfold attachVenueDetailsBatch
  split
  · exact ⟨_, rfl⟩
  refine Except.bind_ok ?_ fun _ => Except.bind_ok ?_ fun _ => Except.bind_ok (halls_answered hup _ _) fun _ => ⟨_, rfl⟩
  · unfold getServicesByVenueIDs
    split
    · exact ⟨_, rfl⟩
    · exact Except.bind_ok (read_answered hup _ _) fun _ => ⟨_, rfl⟩
  · unfold getPhotosByVenueIDs
    split
    · exact ⟨_, rfl⟩
    · exact Except.bind_ok (read_answered hup _ _) fun _ => ⟨_, rfl⟩

/-- and a venue alone. -/
theorem getByID_answered (id : String) (db : DetailDB) : ∃ r, getByID env id db = .ok r := by
  unfold getByID
  rw [hup .getVenue]
  dsimp only
  split
  · exact ⟨_, rfl⟩
  · rename_i v _
    have hfull : ∃ full, attachVenueDetails env (.scan v) db = .ok full := by
      refine Except.bind_ok (Except.mapError_ok (read_answered hup _ _)) fun _ => ?_
      refine Except.bind_ok (Except.mapError_ok (read_answered hup _ _)) fun _ => ?_
      refine Except.bind_ok (Except.mapError_ok (read_answered hup _ _)) fun _ => ?_
      refine Except.bind_ok (Except.mapError_ok ?_) fun _ => ⟨_, rfl⟩
      exact Except.bind_ok (halls_answered hup _ _) fun _ => ⟨_, rfl⟩
    obtain ⟨full, hfull⟩ := hfull
    rw [hfull]
    exact ⟨some full, rfl⟩

end Answered

/-- **A batch agrees with the venues read alone** exactly when no venue of it has a video, nor two photos at one place. -/
theorem getByIDs_agrees_iff : BatchAgrees db ids ↔
    ∀ id ∈ ids, db.venue id ≠ none →
      db.videosOf id = [] ∧ ∀ p ∈ db.photosOf id, ∀ q ∈ db.photosOf id, p.sortOrder = q.sortOrder → p = q := by
  constructor
  · intro hagree id hid hv
    obtain ⟨v, hv⟩ := Option.ne_none_iff_exists'.1 hv
    obtain ⟨hvr, rfl⟩ := venue_eq_some.1 hv
    obtain ⟨vs, hvs⟩ := getByIDs_answered (fun _ => rfl : ∀ s, ReadEnv.stable.down s = none) ids db
    obtain ⟨rows, hperm, rfl⟩ := getByIDs_ok hvs
    -- whatever order its photos come in, the venue alone is the one of the batch
    have halone : ∀ photos : OrderBy fun p : VenuePhoto => p.sortOrder,
        photos.run (db.photos.rows.filter fun p => p.venueID = v.id) = photosIn db v.id ∧
          (OrderBy.stable fun x : VenueVideo => x.sortOrder).run (db.videos.rows.filter fun x => x.venueID = v.id) = [] := by
      intro photos
      have hup : ∀ s, ({ ReadEnv.stable with photos := photos } : ReadEnv).down s = none := fun _ => rfl
      obtain ⟨r, hr⟩ := getByID_answered hup v.id db
      have heq := (hagree _ _ _ hvs).2.2 v.id hid r hr
      rw [find_batch hperm hid, getByID_ok hr, hv] at heq
      have hfull := Option.some.inj heq
      exact ⟨congrArg VenueFull.photos hfull, congrArg VenueFull.videos hfull⟩
    constructor
    · have hnil := (halone (.stable _)).2
      rw [videosOf_eq]
      exact ((OrderBy.perm _ _).symm.trans (List.Perm.of_eq hnil)).eq_nil
    · intro p hp q hq
      have hsettled := (OrderBy.settled_iff (photos_nodup db v.id)).1 fun o o' =>
        (halone o).1.trans (halone o').1.symm
      exact hsettled p (mem_photosOf.1 hp) q (mem_photosOf.1 hq)
  · intro hcond env env' vs hvs
    obtain ⟨rows, hperm, rfl⟩ := getByIDs_ok hvs
    refine ⟨?_, ?_, ?_⟩
    · rw [List.map_map]
      refine (hperm.map _).nodup_iff.2 (List.pairwise_map.2 ((db.venues.noClash.filter _).imp fun {v w} hvw heq => ?_))
      have hne := (Bool.or_eq_false_iff.1 hvw).1
      exact absurd heq (beq_eq_false_iff_ne.1 hne)
    · intro v hv
      obtain ⟨row, hrow, rfl⟩ := List.mem_map.1 hv
      exact of_decide_eq_true (List.mem_filter.1 (hperm.mem_iff.1 hrow)).2
    · intro id hid r hr
      rw [find_batch hperm hid, getByID_ok hr]
      cases hv : db.venue id with
      | none => rfl
      | some v =>
        obtain ⟨-, rfl⟩ := venue_eq_some.1 hv
        obtain ⟨hvideos, honce⟩ := hcond v.id hid (by rw [hv]; exact Option.some_ne_none v)
        rw [videosOf_eq] at hvideos
        dsimp only [Option.map_some, batchFull]
        have hnone : env'.videos.run [] = [] := (env'.videos.perm []).eq_nil
        rw [hvideos, hnone, photos_eq env'.photos honce]

end Agree

/-! ### A venue with a video -/

def filmedVenue : String := "00000000-0000-0000-0000-00000000f001"

def filmedCard : VenueCard where
  id := filmedVenue
  ownerID := "00000000-0000-0000-0000-00000000f002"
  status := .active
  isActive := true
  moderationComment := ""
  moderatedAt := none
  moderatedBy := ""
  bookingMode := .whole
  priceFrom := 200000
  priceWeekend := 0
  capacity := 6
  amenities := []
  updatedAt := 0
  slug := "bath"
  name := "Bath"
  type := "banya"
  description := ""
  address := ""
  city := ""
  latitude := 58
  longitude := 56
  workingHours := "\x7b\x7d"
  phone := ""
  avgRating := 0
  reviewCount := 0
  legalEntityName := ""
  inn := ""
  ogrn := ""
  publicListingURL := ""
  verificationNote := ""
  socialLinks := "\x7b\x7d"
  payoutLegalForm := ""

theorem filmedCard_check : venueCardSchema.check filmedCard = true := by decide +kernel

def film : VenueVideo := ⟨"00000000-0000-0000-0000-00000000f003", filmedVenue, "/v.mp4", 0⟩

def filmedDB : DetailDB where
  venues := ⟨[filmedCard], by simpa using filmedCard_check, by simp⟩
  services := .empty _
  halls := .empty _
  photos := .empty _
  hallPhotos := .empty _
  videos := ⟨[film], by decide, by simp⟩

/-- The venue alone has its video, and among others it has none. -/
theorem filmed_apart : ¬ BatchAgrees filmedDB [filmedVenue] := by
  intro hagree
  have hbatch : getByIDs .stable [filmedVenue] filmedDB = .ok [⟨filmedCard, [], [], [], []⟩] := by rfl
  have halone : getByID .stable filmedVenue filmedDB = .ok (some ⟨filmedCard, [], [], [film], []⟩) := by rfl
  have heq := (hagree _ _ _ hbatch).2.2 filmedVenue (List.mem_singleton.2 rfl) _ halone
  have hnone := congrArg (fun r : Option VenueFull => r.map (·.videos)) heq
  exact absurd hnone (by decide)

end DetailRepo

end Agregator
