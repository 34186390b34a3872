import Mathlib.Algebra.Order.Field.Rat
import Mathlib.Order.Monotone.Basic
import Agregator.RelTable
import Agregator.SvcErr
/-!
# ReviewStore — reviews, their ratings and their outbox

The tables of the review service, and the ratings that the venue service copies from them.  A transaction is the list of what
it has written, which others see when it commits; the keys it has written are locked until then.
-/
namespace Agregator

open Rel

/-! ## Averages -/

/-- The rounding of a rational to a `float8`. -/
structure Doubles where
  round : ℚ → ℚ
  mono : Monotone round
  exact : ∀ n : ℤ, n.natAbs ≤ 2 ^ 53 → round n = n

/-- The quotient of two integers as a `float8`. -/
def Doubles.quot (fl : Doubles) (a b : ℤ) : ℚ := fl.round (a / b)

theorem Doubles.quot_one (fl : Doubles) {a : ℤ} (h : a.natAbs ≤ 2 ^ 53) : fl.quot a 1 = a := by
  unfold quot
  rw [Int.cast_one, div_one, fl.exact a h]

/-- A quotient of integers that lies between two integers still does when it is rounded. -/
theorem Doubles.quot_mem (fl : Doubles) {a b : ℤ} (lo hi : ℤ) (hb : 0 < b) (hlo : lo * b ≤ a) (hhi : a ≤ hi * b)
    (hl : lo.natAbs ≤ 2 ^ 53) (hh : hi.natAbs ≤ 2 ^ 53) : (lo : ℚ) ≤ fl.quot a b ∧ fl.quot a b ≤ hi := by
  have hb' : (0 : ℚ) < b := by exact_mod_cast hb
  constructor
  · rw [← fl.exact lo hl]
    refine fl.mono ((le_div_iff₀ hb').2 ?_)
    exact_mod_cast hlo
  · rw [← fl.exact hi hh]
    refine fl.mono ((div_le_iff₀ hb').2 ?_)
    exact_mod_cast hhi

/-! ## Reviews -/

inductive TargetType where
  | venue
  | master
deriving DecidableEq, Repr

/-- A row of `reviews`; a target that is `NULL` is the empty text. -/
structure Review where
  id : String
  userID : String
  userName : String
  venueID : String
  masterID : String
  rating : ℤ
  text : String
  isVerified : Bool
  isAnonymous : Bool
  createdAt : Time
deriving DecidableEq, Repr

/-- The target a review may have of either type. -/
def TargetType.key : TargetType → Review → String
  | venue, r => r.venueID
  | master, r => r.masterID

def reviewSchema : Schema Review where
  check r := isUUID r.id && isUUID r.userID && decide (1 ≤ r.rating) && decide (r.rating ≤ 5) &&
    (r.venueID == "" || isUUID r.venueID) && (r.masterID == "" || isUUID r.masterID) &&
    ((r.venueID != "") != (r.masterID != ""))
  clash a b := a.id == b.id || (a.userID == b.userID && a.venueID != "" && a.venueID == b.venueID) ||
    (a.userID == b.userID && a.masterID != "" && a.masterID == b.masterID)
  clash_comm a b := by
    grind

/-- `ReviewCreatedEvent`. -/
structure ReviewCreatedEvent where
  reviewID : String
  userID : String
  targetType : TargetType
  venueID : String
  masterID : String
  rating : ℤ
deriving DecidableEq, Repr

def subjectReviewCreated : String := "review.created"

/-- A row of `outbox_events`. -/
structure ReviewOutboxRow where
  id : String
  aggregateID : String
  eventType : String
  payload : ReviewCreatedEvent
  createdAt : Time
  publishedAt : Option Time := none
  lockedAt : Option Time := none
deriving DecidableEq, Repr

/-- A row of `ratings_cache` or of `master_ratings_cache`. -/
structure RatingRow where
  sum : ℤ
  avg : ℚ
  count : ℤ
deriving DecidableEq, Repr

/-- What is asked and told of a rating. -/
structure VenueRating where
  avgRating : ℚ
  reviewCount : ℤ
deriving DecidableEq, Repr

/-! ## The ratings of a list of reviews -/

section Ratings

variable (fl : Doubles)

def reviewsOf (t : TargetType) (key : String) (rows : List Review) : List Review := rows.filter (t.key · == key)

/-- The rating of a target: the sum and the number of its reviews. -/
def ratingOf (t : TargetType) (key : String) (rows : List Review) : Option RatingRow :=
  let rs := reviewsOf t key rows
  let sum := (rs.map (·.rating)).sum
  if rs = [] then none else some ⟨sum, fl.quot sum rs.length, rs.length⟩

/-- The rating one more review makes of a rating. -/
def RatingRow.next (rating : ℤ) : Option RatingRow → RatingRow
  | none => ⟨rating, rating, 1⟩
  | some x => ⟨x.sum + rating, fl.quot (x.sum + rating) (x.count + 1), x.count + 1⟩

/-- The rating that is told of a venue, which is zero when it has none. -/
def VenueRating.of : Option RatingRow → VenueRating
  | none => ⟨0, 0⟩
  | some x => ⟨x.avg, x.count⟩

theorem reviewsOf_append (t : TargetType) (key : String) (rows rows' : List Review) :
    reviewsOf t key (rows ++ rows') = reviewsOf t key rows ++ reviewsOf t key rows' := List.filter_append _ _

theorem ratingOf_other {t : TargetType} {key : String} {r : Review} (h : t.key r ≠ key) (rows : List Review) :
    ratingOf fl t key (rows ++ [r]) = ratingOf fl t key rows := by
  have : reviewsOf t key (rows ++ [r]) = reviewsOf t key rows := by
    rw [reviewsOf_append]
    simp [reviewsOf, h]
  simp only [ratingOf, this]

/-- **One more review of a target is one more step of its rating.** -/
theorem ratingOf_next {t : TargetType} {r : Review} (h1 : 1 ≤ r.rating) (h5 : r.rating ≤ 5) (rows : List Review) :
    ratingOf fl t (t.key r) (rows ++ [r]) = some (RatingRow.next fl r.rating (ratingOf fl t (t.key r) rows)) := by
  have happ : reviewsOf t (t.key r) (rows ++ [r]) = reviewsOf t (t.key r) rows ++ [r] := by
    rw [reviewsOf_append]
    simp [reviewsOf]
  simp only [ratingOf, happ]
  by_cases hnil : reviewsOf t (t.key r) rows = []
  · have hq : fl.quot r.rating 1 = r.rating := fl.quot_one (by omega)
    simp [hnil, RatingRow.next, hq]
  · simp [hnil, RatingRow.next]

variable {t : TargetType} {key : String} {rows rows' : List Review}

/-- The number of reviews that is told. -/
theorem reviewCount_of : (VenueRating.of (ratingOf fl t key rows)).reviewCount = (reviewsOf t key rows).length := by
  unfold ratingOf
  by_cases h : reviewsOf t key rows = []
  · simp [h, VenueRating.of]
  · simp [h, VenueRating.of]

theorem reviewsOf_grows (h : rows <+: rows') : reviewsOf t key rows <+: reviewsOf t key rows' := h.filter _

/-- **Of two states of the reviews, one after the other, those with as many reviews of a target have the same of them.** -/
theorem ratingOf_of_count (h : rows <+: rows') (hle : (reviewsOf t key rows').length ≤ (reviewsOf t key rows).length) :
    ratingOf fl t key rows = ratingOf fl t key rows' := by
  have hpre : reviewsOf t key rows <+: reviewsOf t key rows' := reviewsOf_grows h
  have heq : reviewsOf t key rows = reviewsOf t key rows' := hpre.eq_of_length (Nat.le_antisymm hpre.length_le hle)
  simp only [ratingOf, heq]

/-- The rating that is told is one that may be stored. -/
theorem venueRating_range (t : TargetType) (key : String) (hrows : ∀ r ∈ rows, 1 ≤ r.rating ∧ r.rating ≤ 5) :
    let x := VenueRating.of (ratingOf fl t key rows)
    0 ≤ x.avgRating ∧ x.avgRating ≤ 5 ∧ 0 ≤ x.reviewCount := by
  have hsum : ∀ rs : List Review, (∀ r ∈ rs, 1 ≤ r.rating ∧ r.rating ≤ 5) →
      0 ≤ (rs.map (·.rating)).sum ∧ (rs.map (·.rating)).sum ≤ 5 * rs.length := by
    intro rs
    induction rs with
    | nil => simp
    | cons r rs ih =>
      intro h
      have hr := h r (by simp)
      have hrs := ih fun r hr => h r (by simp [hr])
      simp only [List.map_cons, List.sum_cons, List.length_cons]
      push_cast
      omega
  obtain ⟨hlo, hhi⟩ := hsum (reviewsOf t key rows) fun r hr => hrows r (List.mem_filter.1 hr).1
  unfold ratingOf
  by_cases h : reviewsOf t key rows = []
  · simp [h, VenueRating.of]
  · have hpos : 0 < (reviewsOf t key rows).length := List.length_pos_of_ne_nil h
    have hq := fl.quot_mem 0 5 (Int.natCast_pos.2 hpos) (by omega) hhi (by decide) (by decide)
    simp only [h, if_false, VenueRating.of]
    exact ⟨by simpa using hq.1, by simpa using hq.2, Int.natCast_nonneg _⟩

end Ratings

end Agregator
