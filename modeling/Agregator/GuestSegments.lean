import Agregator.CrmStore
import Agregator.RelPages
/-!
# GuestSegments — the guests of a segment, labelled and listed

The segments of a guest are labels computed from the profile, and conditions of the statement that lists the guests of one.
Both say the same of every profile at every instant (`mem_segment_iff`).  The pages of a segment hold each of its guests once,
whatever order the database takes them in, exactly when the guests of one key come on one page and a page has no more guests
than the service returns (`segment_listed_iff`).
-/
namespace Agregator

open Rel

/-! ## Segments -/

inductive GuestSegment where
  | new
  | regular
  | vip
  | atRisk
deriving DecidableEq, Repr

namespace GuestSegment

def string : GuestSegment → String
  | new => "new"
  | regular => "regular"
  | vip => "vip"
  | atRisk => "at_risk"

/-- `ValidGuestSegment`, and the segment. -/
def parse (s : String) : Option GuestSegment :=
  if s = "new" then some new
  else if s = "regular" then some regular
  else if s = "vip" then some vip
  else if s = "at_risk" then some atRisk
  else none

@[simp] theorem parse_string (s : GuestSegment) : parse s.string = some s := by
  cases s <;> decide

end GuestSegment

/-- A day in microseconds. -/
def dayMicros : ℤ := 24 * 60 * 60 * 1000000

/-- `t.Sub(u)` of two instants in nanoseconds: a difference that a `Duration` does not hold is the nearest it does. -/
def timeSub (t u : ℤ) : ℤ := max (-2 ^ 63) (min (2 ^ 63 - 1) (t - u))

/-- Ninety days in nanoseconds. -/
def atRiskAfter : ℤ := 90 * 24 * 60 * 60 * 1000000000

/-- `now` is the instant in microseconds, as far as the clocks of the service and the database agree on it. -/
def computeSegments (p : GuestProfile) (now vipThreshold : ℤ) : List GuestSegment :=
  let segs := if p.bookingsCount ≤ 1 then [.new] else []
  let segs := if 3 ≤ p.visitsCount then segs ++ [.regular] else segs
  let segs := if 0 < vipThreshold ∧ vipThreshold ≤ p.totalSpent then segs ++ [.vip] else segs
  match p.lastVisitAt with
  | some day =>
    if 2 ≤ p.visitsCount ∧ atRiskAfter < timeSub (now * 1000) (day * dayMicros * 1000) then segs ++ [.atRisk] else segs
  | none => segs

/-! ## The listing -/

namespace CrmRepo

/-- What the statement asks of a row for a segment; a comparison with `NULL` does not hold. -/
def segmentCond (now vipThreshold : ℤ) (segment : String) (p : GuestProfile) : Bool :=
  match GuestSegment.parse segment with
  | some .new => decide (p.bookingsCount ≤ 1)
  | some .regular => decide (3 ≤ p.visitsCount)
  | some .vip => decide (vipThreshold ≤ p.totalSpent)
  | some .atRisk => decide (2 ≤ p.visitsCount) &&
      match p.lastVisitAt with
      | some day => decide (day * dayMicros < now - 90 * dayMicros)
      | none => false
  | none => true

/-- `DESC NULLS LAST`. -/
def descLast (x : Option ℤ) : ℤ ×ₗ ℤ :=
  match x with
  | some x => toLex (0, -x)
  | none => toLex (1, 0)

/-- `ORDER BY` of the listing. -/
def guestKey (sort : String) (p : GuestProfile) : (ℤ ×ₗ ℤ) ×ₗ (ℤ ×ₗ ℤ) :=
  if sort = "ltv" then toLex (descLast (some p.totalSpent), descLast none)
  else if sort = "visits" then toLex (descLast (some p.visitsCount), descLast none)
  else toLex (descLast p.lastVisitAt, descLast p.lastBookingAt)

/-- The rows of the count and of the pages. -/
def guestRows (now vipThreshold : ℤ) (venueID segment : String) (db : CrmDB) : List GuestProfile :=
  db.profiles.select fun p => p.venueID == venueID && segmentCond now vipThreshold segment p

def guestLimit (limit : ℤ) : ℤ := if limit ≤ 0 ∨ 200 < limit then 50 else limit

def listGuests (now vipThreshold : ℤ) {sort : String} (order : OrderBy (guestKey sort)) (venueID segment : String)
    (limit offset : ℤ) (db : CrmDB) : List GuestProfile × ℕ :=
  let rows := guestRows now vipThreshold venueID segment db
  let offset := if offset < 0 then 0 else offset
  (order.page (guestLimit limit).toNat offset.toNat rows, rows.length)

end CrmRepo

/-- A profile and its labels. -/
structure GuestView where
  profile : GuestProfile
  segments : List GuestSegment

namespace CRMUseCase

/-- `memberAccess`, of what the repository says of the actor. -/
def memberAccess (access : Except Err String) : Except Err String :=
  match access with
  | .error err => .error err
  | .ok access => if access = "" then .error (.status .permissionDenied "нет доступа к управлению заведением") else .ok access

def listGuests (vipThreshold now : ℤ) (access : Except Err String) {sort : String} (order : OrderBy (CrmRepo.guestKey sort))
    (venueID segment : String) (limit offset : ℤ) (db : CrmDB) : Except Err (List GuestView × ℕ) :=
  match memberAccess access with
  | .error err => .error err
  | .ok _ =>
    if segment ≠ "" ∧ GuestSegment.parse segment = none then .error (.status .invalidArgument "неизвестный сегмент")
    else if segment = "vip" ∧ vipThreshold ≤ 0 then .ok ([], 0)
    else
      let (profiles, total) := CrmRepo.listGuests now vipThreshold order venueID segment limit offset db
      .ok (profiles.map fun p => ⟨p, computeSegments p now vipThreshold⟩, total)

/-- The guests of a venue that have a label. -/
def labelled (vipThreshold now : ℤ) (venueID : String) (s : GuestSegment) (db : CrmDB) : List GuestProfile :=
  db.profiles.select fun p => p.venueID == venueID && decide (s ∈ computeSegments p now vipThreshold)

/-- The pages of a segment, as many as its guests fill. -/
def listAllGuests (vipThreshold now : ℤ) (access : Except Err String) {sort : String} (order : ℕ → OrderBy (CrmRepo.guestKey sort))
    (venueID : String) (s : GuestSegment) (pageSize : ℕ) (db : CrmDB) : Except Err (List (List GuestView × ℕ)) :=
  let pages := ((labelled vipThreshold now venueID s db).length + pageSize - 1) / pageSize
  (List.range pages).mapM fun (k : ℕ) =>
    listGuests vipThreshold now access (order k) venueID s.string pageSize (k * pageSize) db

end CRMUseCase

/-! ## Labels and conditions -/

section Labels

variable {p : GuestProfile} {now vipThreshold day : ℤ}

/-- **Ninety days** are the same to both clocks. -/
theorem atRisk_iff : atRiskAfter < timeSub (now * 1000) (day * dayMicros * 1000) ↔ day * dayMicros < now - 90 * dayMicros := by
  unfold atRiskAfter timeSub dayMicros
  omega

theorem mem_appended {c : Prop} [Decidable c] {s t : GuestSegment} {segs : List GuestSegment} :
    s ∈ (if c then segs ++ [t] else segs) ↔ s ∈ segs ∨ (c ∧ s = t) := by
  by_cases h : c
  · rw [if_pos h, List.mem_append, List.mem_singleton, and_iff_right h]
  · rw [if_neg h]
    simp [h]

theorem mem_computeSegments (s : GuestSegment) : s ∈ computeSegments p now vipThreshold ↔
    match s with
    | .new => p.bookingsCount ≤ 1
    | .regular => 3 ≤ p.visitsCount
    | .vip => 0 < vipThreshold ∧ vipThreshold ≤ p.totalSpent
    | .atRisk => ∃ day, p.lastVisitAt = some day ∧ 2 ≤ p.visitsCount ∧
        atRiskAfter < timeSub (now * 1000) (day * dayMicros * 1000) := by
  unfold computeSegments
  have hnew : s ∈ (if p.bookingsCount ≤ 1 then [.new] else [] : List GuestSegment) ↔ p.bookingsCount ≤ 1 ∧ s = .new := by
    rw [← List.nil_append [GuestSegment.new], mem_appended]
    simp
  cases hday : p.lastVisitAt with
  | none =>
    simp only [mem_appended, hnew]
    cases s <;> simp
  | some day =>
    simp only [mem_appended, hnew]
    cases s <;> simp

/-- **A label is the condition of the statement**, the threshold aside. -/
theorem mem_segment_iff (s : GuestSegment) (hvip : s = .vip → 0 < vipThreshold) :
    s ∈ computeSegments p now vipThreshold ↔ CrmRepo.segmentCond now vipThreshold s.string p = true := by
  rw [mem_computeSegments]
  unfold CrmRepo.segmentCond
  rw [GuestSegment.parse_string]
  cases s with
  | new => simp
  | regular => simp
  | vip => simp [hvip rfl]
  | atRisk =>
    cases hday : p.lastVisitAt with
    | none => simp
    | some day => simp [atRisk_iff]

end Labels

/-! ## Labels and pages -/

namespace CRMUseCase

variable {vipThreshold now : ℤ} {access : Except Err String} {sort venueID : String} {s : GuestSegment} {db : CrmDB} {pageSize : ℕ}

theorem guestRows_eq (hvip : s = .vip → 0 < vipThreshold) :
    CrmRepo.guestRows now vipThreshold venueID s.string db = labelled vipThreshold now venueID s db := by
  refine List.filter_congr fun p _ => ?_
  rw [Bool.eq_iff_iff, Bool.and_eq_true, Bool.and_eq_true, decide_eq_true_iff, mem_segment_iff s hvip]

/-- Without a threshold nobody is labelled for what he spent. -/
theorem labelled_vip (h : vipThreshold ≤ 0) : labelled vipThreshold now venueID .vip db = [] := by
  refine List.filter_eq_nil_iff.2 fun p _ hp => ?_
  simp only [Bool.and_eq_true, decide_eq_true_iff, mem_computeSegments] at hp
  omega

/-- The guests on a page. -/
def pageOf (vipThreshold now : ℤ) (order : OrderBy (CrmRepo.guestKey sort)) (venueID : String) (s : GuestSegment) (pageSize k : ℕ)
    (db : CrmDB) : List GuestProfile :=
  order.page (CrmRepo.guestLimit pageSize).toNat (k * pageSize) (labelled vipThreshold now venueID s db)

/-- **A page is a stretch of the labelled guests**, and their number. -/
theorem listGuests_page (haccess : ∃ role, memberAccess access = .ok role) (order : OrderBy (CrmRepo.guestKey sort)) (k : ℕ) :
    listGuests vipThreshold now access order venueID s.string pageSize (k * pageSize) db =
      .ok ((pageOf vipThreshold now order venueID s pageSize k db).map fun p => ⟨p, computeSegments p now vipThreshold⟩,
        (labelled vipThreshold now venueID s db).length) := by
  obtain ⟨role, hrole⟩ := haccess
  have hknown : ¬ (s.string ≠ "" ∧ GuestSegment.parse s.string = none) := by simp
  unfold listGuests pageOf
  rw [hrole]
  dsimp only
  rw [if_neg hknown]
  by_cases hvip : s = .vip ∧ vipThreshold ≤ 0
  · obtain ⟨rfl, hnone⟩ := hvip
    have hempty : order.run [] = [] := List.perm_nil.1 (order.perm [])
    rw [if_pos ⟨rfl, hnone⟩, labelled_vip hnone, OrderBy.page, hempty, List.drop_nil, List.take_nil]
    rfl
  · have hset : s = .vip → 0 < vipThreshold := by
      intro hs
      by_contra hle
      exact hvip ⟨hs, by omega⟩
    have hstring : ¬ (s.string = "vip" ∧ vipThreshold ≤ 0) := by
      rintro ⟨hs, hle⟩
      refine hvip ⟨?_, hle⟩
      have hparse := GuestSegment.parse_string s
      rw [hs] at hparse
      exact (Option.some.inj hparse).symm
    have hoff : ¬ ((k : ℤ) * pageSize < 0) := by
      rw [← Int.natCast_mul]
      omega
    rw [if_neg hstring]
    unfold CrmRepo.listGuests
    dsimp only
    rw [guestRows_eq hset, if_neg hoff, ← Int.natCast_mul, Int.toNat_natCast]

/-- The number of pages that the guests fill. -/
def pageCount (vipThreshold now : ℤ) (venueID : String) (s : GuestSegment) (pageSize : ℕ) (db : CrmDB) : ℕ :=
  ((labelled vipThreshold now venueID s db).length + pageSize - 1) / pageSize

theorem listAllGuests_eq (haccess : ∃ role, memberAccess access = .ok role) (order : ℕ → OrderBy (CrmRepo.guestKey sort)) :
    listAllGuests vipThreshold now access order venueID s pageSize db =
      .ok ((List.range (pageCount vipThreshold now venueID s pageSize db)).map fun k =>
        ((pageOf vipThreshold now (order k) venueID s pageSize k db).map fun p => ⟨p, computeSegments p now vipThreshold⟩,
          (labelled vipThreshold now venueID s db).length)) := by
  unfold listAllGuests pageCount
  rw [Except.mapM_ok_iff, List.forall₂_map_right_iff, List.forall₂_same]
  exact fun k _ => listGuests_page haccess (order k) k

/-- The pages of a segment hold each guest it labels once and no other, and each says how many there are, whatever order the
database takes them in. -/
def ListedOnce (vipThreshold now : ℤ) (venueID : String) (s : GuestSegment) (sort : String) (pageSize : ℕ) (db : CrmDB) : Prop :=
  ∀ (access : Except Err String) (order : ℕ → OrderBy (CrmRepo.guestKey sort)), (∃ role, memberAccess access = .ok role) →
    (∃ pages, listAllGuests vipThreshold now access order venueID s pageSize db = .ok pages ∧
      ((pages.flatMap Prod.fst).map GuestView.profile).Perm (labelled vipThreshold now venueID s db)) ∧
    ∀ k : ℕ, ∃ views, listGuests vipThreshold now access (order k) venueID s.string pageSize (k * pageSize) db =
      .ok (views, (labelled vipThreshold now venueID s db).length)

theorem listedOnce_iff : ListedOnce vipThreshold now venueID s sort pageSize db ↔
    ∀ order : ℕ → OrderBy (CrmRepo.guestKey sort),
      ((List.range (pageCount vipThreshold now venueID s pageSize db)).flatMap fun k =>
        pageOf vipThreshold now (order k) venueID s pageSize k db).Perm (labelled vipThreshold now venueID s db) := by
  have hprofiles : ∀ (order : ℕ → OrderBy (CrmRepo.guestKey sort)) (count : ℕ),
      ((((List.range count).map fun k => ((pageOf vipThreshold now (order k) venueID s pageSize k db).map fun p =>
        (⟨p, computeSegments p now vipThreshold⟩ : GuestView), (labelled vipThreshold now venueID s db).length)).flatMap
          Prod.fst).map GuestView.profile) =
      (List.range count).flatMap fun k => pageOf vipThreshold now (order k) venueID s pageSize k db := by
    intro order count
    rw [List.flatMap_map, List.map_flatMap]
    congr 1
    funext k
    rw [List.map_map]
    exact List.map_id _
  constructor
  · intro h order
    obtain ⟨⟨pages, hpages, hperm⟩, -⟩ := h (.ok "owner") order ⟨"owner", rfl⟩
    rw [listAllGuests_eq ⟨"owner", rfl⟩] at hpages
    cases hpages
    rwa [hprofiles] at hperm
  · intro h access order haccess
    refine ⟨⟨_, listAllGuests_eq haccess order, ?_⟩, fun k => ⟨_, listGuests_page haccess (order k) k⟩⟩
    rw [hprofiles]
    exact h order

theorem labelled_nodup : (labelled vipThreshold now venueID s db).Nodup := by
  refine List.Nodup.filter _ (db.profiles.noClash.imp fun {a b} h hab => ?_)
  subst hab
  simp [profileSchema] at h

/-- Pages of a size the service gives. -/
theorem listedOnce_full (hsize : 0 < pageSize) (hle : pageSize ≤ 200) : ListedOnce vipThreshold now venueID s sort pageSize db ↔
    OrderBy.Unsplit (CrmRepo.guestKey sort) pageSize (labelled vipThreshold now venueID s db) := by
  have hlimit : (CrmRepo.guestLimit pageSize).toNat = pageSize := by
    unfold CrmRepo.guestLimit
    rw [if_neg (by omega), Int.toNat_natCast]
  have hcount : (labelled vipThreshold now venueID s db).length ≤ pageCount vipThreshold now venueID s pageSize db * pageSize := by
    unfold pageCount
    have hdiv := Nat.div_add_mod' ((labelled vipThreshold now venueID s db).length + pageSize - 1) pageSize
    have hmod := Nat.mod_lt ((labelled vipThreshold now venueID s db).length + pageSize - 1) hsize
    omega
  rw [listedOnce_iff]
  unfold pageOf
  rw [hlimit]
  exact OrderBy.pages_perm_iff hsize hcount labelled_nodup

theorem length_short_pages (order : OrderBy (CrmRepo.guestKey sort)) (guests : List GuestProfile) (pageSize count : ℕ) :
    ((List.range count).flatMap fun k => order.page 50 (k * pageSize) guests).length ≤ count * 50 := by
  induction count with
  | zero => simp
  | succ count ih =>
    have hpage : (order.page 50 (count * pageSize) guests).length ≤ 50 := by
      rw [OrderBy.page, List.length_take]
      omega
    rw [List.range_succ, List.flatMap_append, List.length_append, List.flatMap_singleton, Nat.succ_mul]
    omega

/-- Pages of which the service gives fifty guests only. -/
theorem listedOnce_cut (hlarge : 200 < pageSize) : ListedOnce vipThreshold now venueID s sort pageSize db ↔
    (labelled vipThreshold now venueID s db).length ≤ 50 := by
  have hlimit : (CrmRepo.guestLimit pageSize).toNat = 50 := by
    unfold CrmRepo.guestLimit
    rw [if_pos (by omega)]
    rfl
  rw [listedOnce_iff]
  unfold pageOf pageCount
  rw [hlimit]
  generalize labelled vipThreshold now venueID s db = guests
  constructor
  · intro h
    have hlen := (h fun _ => OrderBy.stable _).length_eq
    have hall := length_short_pages (OrderBy.stable (CrmRepo.guestKey sort)) guests pageSize
      ((guests.length + pageSize - 1) / pageSize)
    rw [hlen] at hall
    -- a page takes the place of more than two hundred guests
    by_contra hmany
    have hdiv := Nat.div_mul_le_self (guests.length + pageSize - 1) pageSize
    generalize (guests.length + pageSize - 1) / pageSize = count at hall hdiv
    have hmul : (count - 1) * 201 ≤ (count - 1) * pageSize := Nat.mul_le_mul_left _ (by omega)
    rw [Nat.sub_mul count 1 pageSize] at hmul
    omega
  · intro hfew order
    by_cases hnil : guests = []
    · subst hnil
      have hzero : (([] : List GuestProfile).length + pageSize - 1) / pageSize = 0 := Nat.div_eq_of_lt (by simp; omega)
      rw [hzero]
      exact List.Perm.refl _
    · have hpos := List.length_pos_iff.2 hnil
      have hone : (guests.length + pageSize - 1) / pageSize = 1 := Nat.div_eq_of_lt_le (by omega) (by omega)
      have hfirst : ((order 0).run guests).length ≤ 50 := by rwa [((order 0).perm guests).length_eq]
      rw [hone, List.range_one, List.flatMap_singleton, OrderBy.page, Nat.zero_mul, List.drop_zero, List.take_of_length_le hfirst]
      exact (order 0).perm guests

/-- **A segment is listed once** when the service gives pages of the size and the guests of one key come on one page, or when all
guests come on the first page. -/
theorem segment_listed_iff (vipThreshold now : ℤ) (venueID : String) (s : GuestSegment) (sort : String) (db : CrmDB) {pageSize : ℕ}
    (hsize : 0 < pageSize) : ListedOnce vipThreshold now venueID s sort pageSize db ↔
      if pageSize ≤ 200 then OrderBy.Unsplit (CrmRepo.guestKey sort) pageSize (labelled vipThreshold now venueID s db)
      else (labelled vipThreshold now venueID s db).length ≤ 50 := by
  by_cases hle : pageSize ≤ 200
  · rw [if_pos hle]
    exact listedOnce_full hsize hle
  · rw [if_neg hle]
    exact listedOnce_cut (by omega)

/-! ### Guests without a visit -/

def guestVenue : String := "00000000-0000-0000-0000-0000000000e1"

/-- A guest who booked once and has not come. -/
def newGuest (userID : String) : GuestProfile where
  bookingsCount := 1
  visitsCount := 0
  cancellationsCount := 0
  totalSpent := 0
  firstVisitAt := none
  lastVisitAt := none
  venueID := guestVenue
  userID := userID
  lastBookingAt := none
  updatedAt := 0

def newGuests : CrmDB where
  facts := .empty _
  profiles := ⟨[newGuest "00000000-0000-0000-0000-000000000001", newGuest "00000000-0000-0000-0000-000000000002"], by decide, by decide⟩

theorem newGuests_listed : ListedOnce 0 0 guestVenue .new "ltv" 2 newGuests ↔
    if 2 ≤ 200 then OrderBy.Unsplit (CrmRepo.guestKey "ltv") 2 (labelled 0 0 guestVenue .new newGuests)
    else (labelled 0 0 guestVenue .new newGuests).length ≤ 50 :=
  segment_listed_iff 0 0 guestVenue .new "ltv" newGuests (by decide)

/-- One guest a page, a guest can come twice. -/
theorem guest_twice : ¬ ∀ (vipThreshold now : ℤ) (venueID : String) (s : GuestSegment) (sort : String) (db : CrmDB) (pageSize : ℕ),
    0 < pageSize → ListedOnce vipThreshold now venueID s sort pageSize db := by
  intro hall
  have honce := hall 0 0 guestVenue .new "ltv" newGuests 1 (by decide)
  rw [listedOnce_full (by decide) (by decide)] at honce
  exact absurd honce (by decide +kernel)

end CRMUseCase

end Agregator
