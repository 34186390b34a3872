import Agregator.Gateway
import Agregator.RelLike
import Agregator.RelPages
import Agregator.VenueBatch
import Mathlib.Algebra.Order.Ring.Unbundled.Rat
/-!
# VenueList — venues looked for and listed

The pattern a text is looked for with is one of the texts that contain it (`escapedILikePattern_literal`).  A listing is read page
by page, each page with a statement of its own, and the order of the statement leaves open in which order venues of one key come.
The pages hold every active venue once, whatever is left open, exactly when the venues of one key come on one page
(`list_once_iff`).
-/
namespace Agregator

open Rel

/-! ## The pattern -/

/-- `strings.ReplaceAll`, of one character. -/
def replaceAll (s : String) (old : Char) (new : String) : String :=
  String.ofList (s.toList.flatMap fun c => if c = old then new.toList else [c])

def escapedILikePattern (q : String) : Option String :=
  let q := trimSpace q
  if q = "" then none
  else
    let q := replaceAll q '\\' "\\\\"
    let q := replaceAll q '%' "\\%"
    let q := replaceAll q '_' "\\_"
    some ("%" ++ q ++ "%")

/-- The three replacements one after the other escape each character once. -/
theorem replaceAll_escape (q : String) :
    (replaceAll (replaceAll (replaceAll q '\\' "\\\\") '%' "\\%") '_' "\\_").toList = q.toList.flatMap (likeEscape '\\') := by
  simp only [replaceAll, String.toList_ofList, List.flatMap_assoc]
  congr 1
  funext c
  unfold likeEscape
  by_cases hesc : c = '\\'
  · subst hesc
    rfl
  by_cases hany : c = '%'
  · subst hany
    rfl
  by_cases hone : c = '_'
  · subst hone
    rfl
  · simp [hesc, hany, hone]

/-- **A text is looked for literally**: a blank one has no pattern, and the pattern of any other is one of the texts that contain
it. -/
theorem escapedILikePattern_literal (q s : String) :
    (escapedILikePattern q = none ↔ trimSpace q = "") ∧ ∀ pattern, escapedILikePattern q = some pattern →
      like '\\' s pattern = .ok (decide ((trimSpace q).toList <:+: s.toList)) := by
  unfold escapedILikePattern
  by_cases hq : trimSpace q = ""
  · rw [if_pos hq]
    exact ⟨⟨fun _ => hq, fun _ => rfl⟩, fun _ h => by cases h⟩
  · rw [if_neg hq]
    refine ⟨⟨fun h => (by cases h), fun h => absurd h hq⟩, fun pattern h => ?_⟩
    cases h
    have hany : "%".toList = ['%'] := by decide
    refine like_infix (by decide) s ?_
    rw [String.toList_append, String.toList_append, replaceAll_escape, hany, List.singleton_append, List.cons_append]

/-! ## The listing -/

structure ListDB extends DetailDB where
  /-- The column of `venues`, by the keys. -/
  createdAt : String → Time

/-- `ORDER BY` of a listing; what is ordered downwards by its negative. -/
def sortKey (db : ListDB) (sortBy : String) (v : VenueCard) : ℚ :=
  if sortBy = "rating" then -v.avgRating else if sortBy = "price" then v.priceFrom else -(db.createdAt v.id : ℚ)

/-- How the database answers the statements of a page. -/
structure ListEnv (db : ListDB) (sortBy : String) where
  down : Option Err
  rows : OrderBy (sortKey db sortBy)
  details : ReadEnv

/-- No statement fails. -/
structure ListEnv.Up {db : ListDB} {sortBy : String} (env : ListEnv db sortBy) : Prop where
  rows : env.down = none
  details : ∀ s, env.details.down s = none

structure ListResult where
  venues : List VenueFull
  total : ℤ
  page : ℤ
  pageSize : ℤ
deriving DecidableEq, Repr

namespace ListDB

variable (db : ListDB)

/-- `status = 'active'`, and `type = $1` where a type is asked for. -/
def listed (venueType : String) : List VenueCard :=
  db.venues.select fun v => v.status == .active && (venueType == "" || v.type == venueType)

end ListDB

def pageSizeOf (pageSize : ℤ) : ℤ := if pageSize < 1 ∨ 100 < pageSize then 20 else pageSize

namespace ListRepo

variable {db : ListDB} {venueType sortBy : String}

def attachPhotosToVenues (env : ReadEnv) (venues : List VenueFull) (db : ListDB) : Except Err (List VenueFull) := do
  if venues = [] then return []
  let byVenue ← DetailRepo.getPhotosByVenueIDs env (venues.map (·.venue.id)) db.toDetailDB
  return venues.map fun v => { v with photos := byVenue v.venue.id }

def list (env : ListEnv db sortBy) (page pageSize : ℤ) (venueType : String) : Except Err ListResult := do
  let page := if page < 1 then 1 else page
  let pageSize := pageSizeOf pageSize
  let offset := int32 ((page - 1) * pageSize)
  if offset < 0 then throw ((Err.plain "ERROR: OFFSET must not be negative (SQLSTATE 2201X)").wrap "list venues")
  match env.down with
  | some e => throw (e.wrap "list venues")
  | none =>
    let rows := env.rows.page pageSize.toNat offset.toNat (db.listed venueType)
    let total : ℤ := if rows = [] then 0 else min (db.listed venueType).length (2 ^ 31 - 1)
    let venues ← attachPhotosToVenues env.details (rows.map .scan) db
    return ⟨venues, total, page, pageSize⟩

/-- The number of pages there are to ask for. -/
def pageCount (db : ListDB) (venueType : String) (pageSize : ℤ) : ℕ :=
  ((db.listed venueType).length + (pageSizeOf pageSize).toNat - 1) / (pageSizeOf pageSize).toNat

/-- The pages from the first on, as far as a number of 32 bits names them. -/
def listAll (env : ℕ → ListEnv db sortBy) (pageSize : ℤ) (venueType : String) : Except Err (List VenueFull) := do
  let results ← (List.range (min (pageCount db venueType pageSize) (2 ^ 31 - 1))).mapM fun (k : ℕ) =>
    list (env k) (k + 1) pageSize venueType
  return results.flatMap (·.venues)

/-! ### A page -/

theorem pageSizeOf_range (pageSize : ℤ) : 1 ≤ pageSizeOf pageSize ∧ pageSizeOf pageSize ≤ 100 := by
  unfold pageSizeOf
  split <;> omega

theorem attach_ok {env : ReadEnv} (henv : ∀ s, env.down s = none) (venues : List VenueFull) (db : ListDB) :
    ∃ vs, attachPhotosToVenues env venues db = .ok vs ∧ vs.map (·.venue) = venues.map (·.venue) := by
  unfold attachPhotosToVenues DetailRepo.getPhotosByVenueIDs DetailRepo.read
  by_cases hnil : venues = []
  · rw [if_pos hnil, hnil]
    exact ⟨[], rfl, rfl⟩
  · have hids : venues.map (·.venue.id) ≠ [] := by simpa using hnil
    rw [if_neg hnil, henv, if_neg hids]
    exact ⟨_, rfl, by rw [List.map_map]; rfl⟩

/-- **A page is a stretch of the listing**, as long as its offset is a number of 32 bits. -/
theorem list_ok (venueType : String) {env : ListEnv db sortBy} (henv : env.Up) (pageSize : ℤ) {k : ℕ}
    (hoff : k * (pageSizeOf pageSize).toNat < 2 ^ 31) :
    ∃ r, list env (k + 1) pageSize venueType = .ok r ∧
      r.venues.map (·.venue) = env.rows.page (pageSizeOf pageSize).toNat (k * (pageSizeOf pageSize).toNat) (db.listed venueType) := by
  obtain ⟨hlow, -⟩ := pageSizeOf_range pageSize
  obtain ⟨n, hn⟩ : ∃ n : ℕ, pageSizeOf pageSize = n := ⟨_, (Int.toNat_of_nonneg (by omega)).symm⟩
  rw [hn] at hoff ⊢
  rw [Int.toNat_natCast] at hoff ⊢
  have hint : int32 (((k : ℤ) + 1 - 1) * n) = ((k * n : ℕ) : ℤ) := by
    rw [Int.add_sub_cancel, ← Int.natCast_mul]
    exact Int.bmod_eq_of_le_mul_two (by omega) (by omega)
  unfold list
  obtain ⟨vs, hvs, hmap⟩ := attach_ok henv.details ((env.rows.page n (k * n) (db.listed venueType)).map .scan) db
  simp only [hn, if_neg (show ¬ (k : ℤ) + 1 < 1 by omega), hint, if_neg (show ¬ ((k * n : ℕ) : ℤ) < 0 by omega), henv.rows,
    Int.toNat_natCast]
  rw [hvs]
  refine ⟨_, rfl, hmap.trans ?_⟩
  rw [List.map_map]
  exact List.map_id _

theorem list_negative {env : ListEnv db sortBy} {pageSize : ℤ} {k : ℕ} (hk : 2 ^ 31 ≤ k * (pageSizeOf pageSize).toNat)
    (hk' : k * (pageSizeOf pageSize).toNat < 2 ^ 32) (r : ListResult) : list env (k + 1) pageSize venueType ≠ .ok r := by
  obtain ⟨hlow, -⟩ := pageSizeOf_range pageSize
  obtain ⟨n, hn⟩ : ∃ n : ℕ, pageSizeOf pageSize = n := ⟨_, (Int.toNat_of_nonneg (by omega)).symm⟩
  rw [hn, Int.toNat_natCast] at hk hk'
  have hint : int32 (((k : ℤ) + 1 - 1) * n) < 0 := by
    rw [Int.add_sub_cancel, ← Int.natCast_mul]
    unfold int32
    rw [Int.bmod_eq_emod]
    split <;> omega
  unfold list
  simp only [hn, if_neg (show ¬ (k : ℤ) + 1 < 1 by omega), if_pos hint]
  exact fun h => by cases h

/-! ### All pages -/

variable {env : ℕ → ListEnv db sortBy} {pageSize : ℤ}

theorem flatMap_of_forall₂ {α β γ : Type} {f : β → List γ} {g : α → List γ} {l : List α} {l' : List β}
    (h : List.Forall₂ (fun a b => f b = g a) l l') : l'.flatMap f = l.flatMap g := by
  induction h with
  | nil => rfl
  | cons h _ ih => rw [List.flatMap_cons, List.flatMap_cons, h, ih]

theorem listAll_ok (venueType : String) (pageSize : ℤ) (henv : ∀ k, (env k).Up)
    (hoff : ∀ k < min (pageCount db venueType pageSize) (2 ^ 31 - 1), k * (pageSizeOf pageSize).toNat < 2 ^ 31) :
    ∃ vs, listAll env pageSize venueType = .ok vs ∧ vs.map (·.venue) =
      OrderBy.pages (fun k => (env k).rows) (pageSizeOf pageSize).toNat (min (pageCount db venueType pageSize) (2 ^ 31 - 1))
        (db.listed venueType) := by
  unfold listAll OrderBy.pages
  generalize min (pageCount db venueType pageSize) (2 ^ 31 - 1) = count at hoff ⊢
  obtain ⟨results, hresults⟩ := List.forall₂_exists (l := List.range count) fun k hk =>
    list_ok venueType (henv k) pageSize (hoff k (List.mem_range.1 hk))
  rw [Except.mapM_ok_iff.2 (hresults.imp fun _ _ h => h.1)]
  refine ⟨_, rfl, ?_⟩
  rw [List.map_flatMap]
  exact flatMap_of_forall₂ (hresults.imp fun _ _ h => h.2)

theorem listAll_negative {k : ℕ} (hcount : k < min (pageCount db venueType pageSize) (2 ^ 31 - 1))
    (hk : 2 ^ 31 ≤ k * (pageSizeOf pageSize).toNat) (hk' : k * (pageSizeOf pageSize).toNat < 2 ^ 32) (vs : List VenueFull) :
    listAll env pageSize venueType ≠ .ok vs := by
  intro h
  obtain ⟨results, hresults, -⟩ := Except.of_bind h
  obtain ⟨r, hr⟩ := List.forall₂_left (Except.mapM_ok_iff.1 hresults) k (List.mem_range.2 hcount)
  exact list_negative hk hk' r hr

/-! ### The law -/

/-- The pages of a listing hold each of its venues once, and no others, whatever order the database takes them in. -/
def ListsOnce (db : ListDB) (venueType sortBy : String) (pageSize : ℤ) : Prop :=
  ∀ env : ℕ → ListEnv db sortBy, (∀ k, (env k).Up) →
    ∃ vs, listAll env pageSize venueType = .ok vs ∧ (vs.map (·.venue)).Perm (db.listed venueType)

/-- The number of the last page and its offset are ones of 32 bits. -/
structure Within (db : ListDB) (venueType : String) (pageSize : ℤ) : Prop where
  page : pageCount db venueType pageSize < 2 ^ 31
  offset : (pageCount db venueType pageSize - 1) * (pageSizeOf pageSize).toNat < 2 ^ 31

theorem listed_nodup (db : ListDB) (venueType : String) : (db.listed venueType).Nodup := by
  refine List.Nodup.filter _ (db.venues.noClash.imp fun {a b} h hab => ?_)
  subst hab
  simp [venueCardSchema] at h

theorem length_le_pages (db : ListDB) (venueType : String) (pageSize : ℤ) :
    (db.listed venueType).length ≤ pageCount db venueType pageSize * (pageSizeOf pageSize).toNat := by
  obtain ⟨hlow, -⟩ := pageSizeOf_range pageSize
  have hpos : 0 < (pageSizeOf pageSize).toNat := by omega
  unfold pageCount
  have := Nat.div_add_mod' ((db.listed venueType).length + (pageSizeOf pageSize).toNat - 1) (pageSizeOf pageSize).toNat
  have := Nat.mod_lt ((db.listed venueType).length + (pageSizeOf pageSize).toNat - 1) hpos
  omega

/-- With pages of one venue no more venues are listed than there are page numbers. -/
theorem pageCount_lt_of_one {vs : List VenueFull} (hone : (pageSizeOf pageSize).toNat = 1) (henv : ∀ k, (env k).Up)
    (hvs : listAll env pageSize venueType = .ok vs) (hperm : (vs.map (·.venue)).Perm (db.listed venueType)) :
    pageCount db venueType pageSize < 2 ^ 31 := by
  have hcount : pageCount db venueType pageSize = (db.listed venueType).length := by
    rw [pageCount, hone]
    omega
  obtain ⟨vs', hvs', hrows⟩ := listAll_ok venueType pageSize henv fun k hk => by
    rw [hone]
    omega
  rw [hvs] at hvs'
  cases hvs'
  have hlen := congrArg List.length hrows
  have hle := OrderBy.length_pages (fun k => (env k).rows) (pageSizeOf pageSize).toNat
    (min (pageCount db venueType pageSize) (2 ^ 31 - 1)) (db.listed venueType)
  rw [hperm.length_eq] at hlen
  rw [← hlen, hone] at hle
  omega

/-- Of pages of more than one venue the first whose offset is none of 32 bits is refused. -/
theorem offset_lt_of_ok {vs : List VenueFull} (hmany : 2 ≤ (pageSizeOf pageSize).toNat) (hsize : (pageSizeOf pageSize).toNat < 2 ^ 30)
    (hvs : listAll env pageSize venueType = .ok vs) :
    (pageCount db venueType pageSize - 1) * (pageSizeOf pageSize).toNat < 2 ^ 31 := by
  by_contra hbig
  generalize hn : (pageSizeOf pageSize).toNat = n at *
  have hdiv := Nat.div_add_mod' (2 ^ 31 + n - 1) n
  have hmod := Nat.mod_lt (2 ^ 31 + n - 1) (show 0 < n by omega)
  have hk : (2 ^ 31 + n - 1) / n < min (pageCount db venueType pageSize) (2 ^ 31 - 1) := by
    rw [Nat.lt_min]
    constructor
    · by_contra hle
      have := Nat.mul_le_mul_right n (show pageCount db venueType pageSize - 1 ≤ (2 ^ 31 + n - 1) / n - 1 by omega)
      rw [Nat.sub_mul ((2 ^ 31 + n - 1) / n)] at this
      omega
    · have := Nat.mul_le_mul_left ((2 ^ 31 + n - 1) / n) hmany
      omega
  refine listAll_negative hk ?_ ?_ vs hvs
  · rw [hn]
    omega
  · rw [hn]
    omega

theorem within_of_listsOnce (h : ListsOnce db venueType sortBy pageSize) : Within db venueType pageSize := by
  obtain ⟨hlow, hhigh⟩ := pageSizeOf_range pageSize
  have henv : ∀ k : ℕ, (⟨none, .stable _, .stable⟩ : ListEnv db sortBy).Up := fun _ => ⟨rfl, fun _ => rfl⟩
  obtain ⟨vs, hvs, hperm⟩ := h (fun _ => ⟨none, .stable _, .stable⟩) henv
  by_cases hone : (pageSizeOf pageSize).toNat = 1
  · have hpage := pageCount_lt_of_one hone henv hvs hperm
    constructor
    · exact hpage
    · rw [hone]
      omega
  · have hoff := offset_lt_of_ok (by omega) (by omega) hvs
    have := Nat.mul_le_mul_left (pageCount db venueType pageSize - 1) (show 2 ≤ (pageSizeOf pageSize).toNat by omega)
    constructor
    · omega
    · exact hoff

theorem listAll_within (h : Within db venueType pageSize) (henv : ∀ k, (env k).Up) :
    ∃ vs, listAll env pageSize venueType = .ok vs ∧ vs.map (·.venue) = OrderBy.pages (fun k => (env k).rows)
      (pageSizeOf pageSize).toNat (pageCount db venueType pageSize) (db.listed venueType) := by
  have hmin : min (pageCount db venueType pageSize) (2 ^ 31 - 1) = pageCount db venueType pageSize := by
    have := h.page
    omega
  have hall := listAll_ok venueType pageSize henv fun k hk => by
    have := Nat.mul_le_mul_right (pageSizeOf pageSize).toNat (show k ≤ pageCount db venueType pageSize - 1 by omega)
    have := h.offset
    omega
  rwa [hmin] at hall

theorem pages_perm_iff (db : ListDB) (venueType sortBy : String) (pageSize : ℤ) :
    (∀ o : ℕ → OrderBy (sortKey db sortBy), (OrderBy.pages o (pageSizeOf pageSize).toNat (pageCount db venueType pageSize)
      (db.listed venueType)).Perm (db.listed venueType)) ↔
      OrderBy.Unsplit (sortKey db sortBy) (pageSizeOf pageSize).toNat (db.listed venueType) := by
  obtain ⟨hlow, -⟩ := pageSizeOf_range pageSize
  exact OrderBy.pages_perm_iff (by omega) (length_le_pages db venueType pageSize) (listed_nodup db venueType)

theorem unsplit_of_listsOnce (h : ListsOnce db venueType sortBy pageSize) :
    OrderBy.Unsplit (sortKey db sortBy) (pageSizeOf pageSize).toNat (db.listed venueType) := by
  refine (pages_perm_iff db venueType sortBy pageSize).1 fun o => ?_
  have henv : ∀ k, (⟨none, o k, .stable⟩ : ListEnv db sortBy).Up := fun _ => ⟨rfl, fun _ => rfl⟩
  obtain ⟨vs, hvs, hperm⟩ := h (fun k => ⟨none, o k, .stable⟩) henv
  obtain ⟨vs', hvs', hrows⟩ := listAll_within (within_of_listsOnce h) henv
  rw [hvs] at hvs'
  cases hvs'
  rwa [← hrows]

/-- **A listing holds every venue once, whatever order the database takes them in**, exactly when the venues of one key come on
one page, and the pages have numbers and offsets of 32 bits. -/
theorem list_once_iff (db : ListDB) (venueType sortBy : String) (pageSize : ℤ) :
    ListsOnce db venueType sortBy pageSize ↔
      OrderBy.Unsplit (sortKey db sortBy) (pageSizeOf pageSize).toNat (db.listed venueType) ∧ Within db venueType pageSize := by
  constructor
  · exact fun h => ⟨unsplit_of_listsOnce h, within_of_listsOnce h⟩
  · rintro ⟨hkeys, hwithin⟩ env henv
    obtain ⟨vs, hvs, hrows⟩ := listAll_within hwithin henv
    refine ⟨vs, hvs, ?_⟩
    rw [hrows]
    exact (pages_perm_iff db venueType sortBy pageSize).2 hkeys _

/-! ### Venues without reviews -/

def newCard (id slug : String) : VenueCard := { DetailRepo.filmedCard with id := id, slug := slug }

/-- Two venues that nobody has rated. -/
def unrated : ListDB where
  venues := ⟨[newCard "00000000-0000-0000-0000-000000000001" "oak", newCard "00000000-0000-0000-0000-000000000002" "elm"],
    by decide +kernel, by decide +kernel⟩
  services := .empty _
  halls := .empty _
  photos := .empty _
  hallPhotos := .empty _
  videos := .empty _
  createdAt _ := 0

/-- By rating, one venue a page, a venue can come twice. -/
theorem unrated_twice : ¬ ∀ (db : ListDB) (venueType sortBy : String) (pageSize : ℤ), 1 ≤ pageSize →
    ListsOnce db venueType sortBy pageSize := by
  intro hall
  exact absurd (unsplit_of_listsOnce (hall unrated "" "rating" 1 (by decide))) (by decide +kernel)

end ListRepo

end Agregator
