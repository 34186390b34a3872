import Agregator.BookDomain
import Mathlib.Algebra.BigOperators.Group.List.Basic
import Mathlib.Algebra.Order.BigOperators.Group.List
import Mathlib.Data.Rat.Floor
import Mathlib.Tactic.Linarith
import Mathlib.Tactic.Ring
/-!
# BookMulti — what several services cost

The loop over the services adds up in 64 bits what a sum over the selected services says in the integers: their fixed prices, and
the hours begun at the rate of the halls for the one without a price.  Neither the order of the services nor that of the halls
makes a difference (`computeBookingTotalPriceMulti_spec`).
-/
namespace Agregator

/-! ## Hours -/

/-- Rounding up by the addition of 59. -/
theorem ceil_minutes (x : ℤ) : ⌈(x : ℚ) / 60⌉ = (x + 59) / 60 := by
  rw [Int.ceil_eq_iff]
  constructor
  · rw [lt_div_iff₀ (by norm_num)]
    have h : ((x + 59) / 60 - 1) * 60 < x := by omega
    exact_mod_cast h
  · rw [div_le_iff₀ (by norm_num)]
    have h : x ≤ (x + 59) / 60 * 60 := by omega
    exact_mod_cast h

theorem hourlyTotal_eq (rate : ℤ) {minutes : ℤ} (h : 0 < minutes) :
    hourlyTotal rate minutes = int64 (max 0 rate * ((minutes + 59) / 60)) := by
  unfold hourlyTotal
  by_cases hrate : rate ≤ 0
  · rw [if_pos (.inr hrate), max_eq_left hrate, zero_mul]
    decide
  · have hhours : 1 ≤ (minutes + 59) / 60 := by omega
    rw [if_neg (by omega), max_eq_right (Int.le_of_lt (Int.not_le.1 hrate)), max_eq_left hhours]

/-! ## The rate of the halls -/

/-- The rate is the least that neither the venue's nor that of a selected hall exceeds. -/
theorem effectiveHourlyPrice_le_iff (v : VenueResponse) (isWeekend : Bool) {hallIDs : List String} {r : ℤ} :
    effectiveHourlyPriceFromVenueAndHalls v hallIDs isWeekend ≤ r ↔
      weekendRate v.priceFrom v.priceWeekend isWeekend ≤ r ∧
        ∀ raw ∈ hallIDs, trimSpace raw ≠ "" → hallRate v isWeekend (trimSpace raw) ≤ r := by
  unfold effectiveHourlyPriceFromVenueAndHalls
  generalize weekendRate v.priceFrom v.priceWeekend isWeekend = base
  induction hallIDs generalizing base with
  | nil => simp
  | cons raw hallIDs ih =>
    rw [List.foldl_cons, ih]
    dsimp only
    by_cases hblank : trimSpace raw = ""
    · simp [hblank]
    · rw [if_neg (by simpa using hblank), max_le_iff, List.forall_mem_cons, and_assoc]
      simp [hblank]

theorem effectiveHourlyPrice_perm (v : VenueResponse) (isWeekend : Bool) {hallIDs hallIDs' : List String}
    (h : hallIDs.Perm hallIDs') :
    effectiveHourlyPriceFromVenueAndHalls v hallIDs isWeekend = effectiveHourlyPriceFromVenueAndHalls v hallIDs' isWeekend := by
  refine eq_of_forall_ge_iff fun r => ?_
  simp only [effectiveHourlyPrice_le_iff, h.mem_iff]

/-! ## The selected services -/

namespace VenueResponse

variable (v : VenueResponse)

/-- The service of an identifier, none for a blank or an unknown one. -/
def service (raw : String) : Option VenueServiceItem :=
  if trimSpace raw = "" then none else v.services.find? (·.id == trimSpace raw)

/-- Every identifier is blank or that of a service. -/
def Known (serviceIDs : List String) : Prop := ∀ raw ∈ serviceIDs, trimSpace raw ≠ "" → (v.service raw).isSome = true

instance (serviceIDs : List String) : Decidable (v.Known serviceIDs) := inferInstanceAs (Decidable (∀ _ ∈ _, _))

/-- The services that are selected, as often as they are. -/
def selected (serviceIDs : List String) : List VenueServiceItem := serviceIDs.filterMap v.service

def fixedPrices (serviceIDs : List String) : ℤ :=
  (((v.selected serviceIDs).filter fun s => decide (0 < s.price)).map (·.price)).sum

/-- How many are paid by the hour. -/
def hourlyServices (serviceIDs : List String) : ℕ := ((v.selected serviceIDs).filter fun s => decide (s.price ≤ 0)).length

/-- The hours are paid for without a service, and for one that has no price of its own. -/
def hourlyParts (serviceIDs : List String) : ℕ := if serviceIDs = [] then 1 else v.hourlyServices serviceIDs

/-- The price in the integers. -/
def exactPrice (serviceIDs hallIDs : List String) (minutes : ℤ) (isWeekend : Bool) : ℤ :=
  v.fixedPrices serviceIDs + v.hourlyParts serviceIDs *
    (max 0 (effectiveHourlyPriceFromVenueAndHalls v hallIDs isWeekend) * ⌈(minutes : ℚ) / 60⌉)

variable {v}

theorem Known.perm {serviceIDs serviceIDs' : List String} (h : serviceIDs.Perm serviceIDs') :
    v.Known serviceIDs ↔ v.Known serviceIDs' := by
  simp only [Known, h.mem_iff]

theorem fixedPrices_perm {serviceIDs serviceIDs' : List String} (h : serviceIDs.Perm serviceIDs') :
    v.fixedPrices serviceIDs = v.fixedPrices serviceIDs' :=
  (((h.filterMap _).filter _).map _).sum_eq

theorem hourlyServices_perm {serviceIDs serviceIDs' : List String} (h : serviceIDs.Perm serviceIDs') :
    v.hourlyServices serviceIDs = v.hourlyServices serviceIDs' :=
  ((h.filterMap _).filter _).length_eq

theorem fixedPrices_nonneg (serviceIDs : List String) : 0 ≤ v.fixedPrices serviceIDs := by
  refine List.sum_nonneg fun x hx => ?_
  obtain ⟨s, hs, rfl⟩ := List.mem_map.1 hx
  have hpos : 0 < s.price := by simpa using (List.mem_filter.1 hs).2
  omega

end VenueResponse

/-! ## The loop -/

def unknownService : Err := .status .invalidArgument "выбранная услуга не найдена у этого заведения"

/-- What one identifier adds. -/
theorem sumServices_cons (v : VenueResponse) (hourly sum : ℤ) (n : ℕ) (raw : String) (rest : List String) :
    sumServices v hourly (raw :: rest) sum n =
      if trimSpace raw = "" then sumServices v hourly rest sum n
      else
        match v.service raw with
        | none => .error unknownService
        | some s =>
          if 0 < s.price then sumServices v hourly rest (int64 (sum + s.price)) n
          else sumServices v hourly rest (int64 (sum + hourly)) (n + 1) := by
  conv_lhs => unfold sumServices
  by_cases hblank : trimSpace raw = ""
  · simp [hblank]
  · simp only [beq_iff_eq, if_neg hblank, VenueResponse.service]
    rfl

/-- **The loop adds up what is selected**, as a number of 64 bits. -/
theorem sumServices_known (v : VenueResponse) (hourly : ℤ) : ∀ {serviceIDs : List String} (x : ℤ) (n : ℕ), v.Known serviceIDs →
    sumServices v hourly serviceIDs (int64 x) n =
      .ok (int64 (x + v.fixedPrices serviceIDs + v.hourlyServices serviceIDs * hourly), n + v.hourlyServices serviceIDs)
  | [], x, n, _ => by simp [sumServices, VenueResponse.fixedPrices, VenueResponse.hourlyServices, VenueResponse.selected]
  | raw :: rest, x, n, hknown => by
    have hrest : v.Known rest := fun x hx => hknown x (List.mem_cons_of_mem _ hx)
    rw [sumServices_cons]
    by_cases hblank : trimSpace raw = ""
    · have hnone : v.service raw = none := if_pos hblank
      rw [if_pos hblank, sumServices_known v hourly x n hrest]
      simp [VenueResponse.fixedPrices, VenueResponse.hourlyServices, VenueResponse.selected, hnone]
    · rw [if_neg hblank]
      obtain ⟨s, hs⟩ := Option.isSome_iff_exists.1 (hknown raw List.mem_cons_self hblank)
      rw [hs]
      dsimp only
      by_cases hprice : 0 < s.price
      · rw [if_pos hprice, int64_int64_add, sumServices_known v hourly _ n hrest]
        simp [VenueResponse.fixedPrices, VenueResponse.hourlyServices, VenueResponse.selected, hs, hprice, Int.add_assoc]
      · rw [if_neg hprice, int64_int64_add, sumServices_known v hourly _ (n + 1) hrest]
        have hle : s.price ≤ 0 := by omega
        have hfixed : v.fixedPrices (raw :: rest) = v.fixedPrices rest := by
          simp [VenueResponse.fixedPrices, VenueResponse.selected, hs, hle]
        have hhourly : v.hourlyServices (raw :: rest) = v.hourlyServices rest + 1 := by
          simp [VenueResponse.hourlyServices, VenueResponse.selected, hs, hle]
        have hsum : x + hourly + v.fixedPrices rest + v.hourlyServices rest * hourly =
            x + v.fixedPrices rest + (v.hourlyServices rest + 1 : ℕ) * hourly := by
          push_cast
          ring
        rw [hfixed, hhourly, hsum, Nat.add_right_comm, Nat.add_assoc]

theorem sumServices_unknown (v : VenueResponse) (hourly : ℤ) : ∀ {serviceIDs : List String} (x : ℤ) (n : ℕ),
    ¬ v.Known serviceIDs → sumServices v hourly serviceIDs x n = .error unknownService
  | [], _, _, h => absurd (fun _ hx => absurd hx List.not_mem_nil) h
  | raw :: rest, x, n, h => by
    rw [sumServices_cons]
    by_cases hblank : trimSpace raw = ""
    · rw [if_pos hblank]
      refine sumServices_unknown v hourly x n fun hrest => h ?_
      exact List.forall_mem_cons.2 ⟨fun hne => absurd hblank hne, hrest⟩
    · rw [if_neg hblank]
      cases hs : v.service raw with
      | none => rfl
      | some s =>
        have hrest : ¬ v.Known rest := fun hrest => h (List.forall_mem_cons.2 ⟨fun _ => by rw [hs]; rfl, hrest⟩)
        dsimp only
        by_cases hprice : 0 < s.price
        · rw [if_pos hprice]
          exact sumServices_unknown v hourly _ n hrest
        · rw [if_neg hprice]
          exact sumServices_unknown v hourly _ (n + 1) hrest

def severalHourly : Err :=
  .status .invalidArgument "в одной брони можно не более одной услуги без фиксированной цены — выберите пакеты с ценой или только почасовой тариф"

variable (v : VenueResponse) (serviceIDs hallIDs : List String) (isWeekend : Bool)

/-- **The price of a booking**, or what is wrong with the selection. -/
theorem computeBookingTotalPriceMulti_eq {minutes : ℤ} (h : 0 < minutes) :
    computeBookingTotalPriceMulti v serviceIDs hallIDs minutes isWeekend =
      if v.Known serviceIDs then
        if 1 < v.hourlyParts serviceIDs then .error severalHourly
        else .ok (int64 (v.exactPrice serviceIDs hallIDs minutes isWeekend))
      else .error unknownService := by
  unfold computeBookingTotalPriceMulti VenueResponse.exactPrice
  rw [hourlyTotal_eq _ h, ceil_minutes]
  generalize max 0 (effectiveHourlyPriceFromVenueAndHalls v hallIDs isWeekend) * ((minutes + 59) / 60) = hourly
  by_cases hnil : serviceIDs = []
  · subst hnil
    have hknown : v.Known [] := fun _ hx => absurd hx List.not_mem_nil
    have hfixed : v.fixedPrices [] = 0 := rfl
    have hparts : v.hourlyParts [] = 1 := rfl
    rw [if_pos hknown, hfixed, hparts, if_neg (Nat.lt_irrefl 1), Int.natCast_one, Int.one_mul, Int.zero_add]
    rfl
  · have hempty : serviceIDs.isEmpty = false := by simpa using hnil
    have hparts : v.hourlyParts serviceIDs = v.hourlyServices serviceIDs := if_neg hnil
    dsimp only
    rw [hempty, if_neg (by decide), hparts]
    by_cases hknown : v.Known serviceIDs
    · have hloop := sumServices_known v (int64 hourly) 0 0 hknown
      rw [show int64 0 = 0 from by decide, Int.zero_add, Nat.zero_add] at hloop
      rw [hloop, if_pos hknown]
      dsimp only
      by_cases hone : 1 < v.hourlyServices serviceIDs
      · rw [if_pos hone, if_pos hone]
        rfl
      · rw [if_neg hone, if_neg hone]
        -- at most one part, so that its wrap is lost in that of the sum
        have hcases : v.hourlyServices serviceIDs = 0 ∨ v.hourlyServices serviceIDs = 1 := by omega
        rcases hcases with hzero | hone'
        · rw [hzero]
          simp
        · rw [hone', Int.natCast_one, Int.one_mul, Int.one_mul, int64_add_int64]
    · rw [sumServices_unknown v _ 0 0 hknown, if_neg hknown]

/-- A price that fits is what it says, and is not negative. -/
theorem exactPrice_nonneg {minutes : ℤ} (h : 0 < minutes) : 0 ≤ v.exactPrice serviceIDs hallIDs minutes isWeekend := by
  have hhours : 0 ≤ ⌈(minutes : ℚ) / 60⌉ := by
    rw [ceil_minutes]
    omega
  have hrate : 0 ≤ max 0 (effectiveHourlyPriceFromVenueAndHalls v hallIDs isWeekend) := le_max_left ..
  have hpart := Int.mul_nonneg (Int.natCast_nonneg (v.hourlyParts serviceIDs)) (Int.mul_nonneg hrate hhours)
  have hfixed := VenueResponse.fixedPrices_nonneg (v := v) serviceIDs
  unfold VenueResponse.exactPrice
  omega

theorem exactPrice_mono {minutes minutes' : ℤ} (hle : minutes ≤ minutes') :
    v.exactPrice serviceIDs hallIDs minutes isWeekend ≤ v.exactPrice serviceIDs hallIDs minutes' isWeekend := by
  have hhours : ⌈(minutes : ℚ) / 60⌉ ≤ ⌈(minutes' : ℚ) / 60⌉ := by
    rw [ceil_minutes, ceil_minutes]
    omega
  have hrate : 0 ≤ max 0 (effectiveHourlyPriceFromVenueAndHalls v hallIDs isWeekend) := le_max_left ..
  have hpart := Int.mul_le_mul_of_nonneg_left (Int.mul_le_mul_of_nonneg_left hhours hrate)
    (Int.natCast_nonneg (v.hourlyParts serviceIDs))
  unfold VenueResponse.exactPrice
  omega

/-- What the price of a selection is, for an interval of some minutes. -/
structure MultiPriced (minutes : ℤ) : Prop where
  fails : (∃ err, computeBookingTotalPriceMulti v serviceIDs hallIDs minutes isWeekend = .error err) ↔
    ¬ v.Known serviceIDs ∨ 1 < v.hourlyServices serviceIDs
  price : ∀ total, computeBookingTotalPriceMulti v serviceIDs hallIDs minutes isWeekend = .ok total →
    v.hourlyParts serviceIDs ≤ 1 ∧ total = int64 (v.exactPrice serviceIDs hallIDs minutes isWeekend)
  order : ∀ serviceIDs' hallIDs', serviceIDs.Perm serviceIDs' → hallIDs.Perm hallIDs' →
    computeBookingTotalPriceMulti v serviceIDs' hallIDs' minutes isWeekend =
      computeBookingTotalPriceMulti v serviceIDs hallIDs minutes isWeekend
  fits : ∀ total, computeBookingTotalPriceMulti v serviceIDs hallIDs minutes isWeekend = .ok total →
    v.exactPrice serviceIDs hallIDs minutes isWeekend < 2 ^ 63 →
    total = v.exactPrice serviceIDs hallIDs minutes isWeekend ∧ 0 ≤ total
  mono : ∀ minutes' total total', minutes ≤ minutes' →
    computeBookingTotalPriceMulti v serviceIDs hallIDs minutes isWeekend = .ok total →
    computeBookingTotalPriceMulti v serviceIDs hallIDs minutes' isWeekend = .ok total' →
    v.exactPrice serviceIDs hallIDs minutes' isWeekend < 2 ^ 63 → total ≤ total'

theorem computeBookingTotalPriceMulti_ok {minutes total : ℤ} (h : 0 < minutes)
    (hok : computeBookingTotalPriceMulti v serviceIDs hallIDs minutes isWeekend = .ok total) :
    v.Known serviceIDs ∧ v.hourlyParts serviceIDs ≤ 1 ∧ total = int64 (v.exactPrice serviceIDs hallIDs minutes isWeekend) := by
  rw [computeBookingTotalPriceMulti_eq v serviceIDs hallIDs isWeekend h] at hok
  by_cases hknown : v.Known serviceIDs
  · rw [if_pos hknown] at hok
    by_cases hone : 1 < v.hourlyParts serviceIDs
    · rw [if_pos hone] at hok
      cases hok
    · rw [if_neg hone] at hok
      cases hok
      exact ⟨hknown, by omega, rfl⟩
  · rw [if_neg hknown] at hok
    cases hok

theorem computeBookingTotalPriceMulti_fits {minutes total : ℤ} (h : 0 < minutes)
    (hok : computeBookingTotalPriceMulti v serviceIDs hallIDs minutes isWeekend = .ok total)
    (hfits : v.exactPrice serviceIDs hallIDs minutes isWeekend < 2 ^ 63) :
    total = v.exactPrice serviceIDs hallIDs minutes isWeekend := by
  have hnonneg := exactPrice_nonneg v serviceIDs hallIDs isWeekend h
  rw [(computeBookingTotalPriceMulti_ok v serviceIDs hallIDs isWeekend h hok).2.2]
  exact int64_of_range (by omega) hfits

theorem exactPrice_perm {serviceIDs serviceIDs' hallIDs hallIDs' : List String} (hs : serviceIDs.Perm serviceIDs')
    (hh : hallIDs.Perm hallIDs') (minutes : ℤ) :
    v.hourlyParts serviceIDs = v.hourlyParts serviceIDs' ∧
      v.exactPrice serviceIDs hallIDs minutes isWeekend = v.exactPrice serviceIDs' hallIDs' minutes isWeekend := by
  have hparts : v.hourlyParts serviceIDs = v.hourlyParts serviceIDs' := by
    unfold VenueResponse.hourlyParts
    by_cases hnil : serviceIDs = []
    · subst hnil
      rw [List.nil_perm.1 hs]
    · have hnil' : serviceIDs' ≠ [] := fun hn => hnil (List.perm_nil.1 (hn ▸ hs))
      rw [if_neg hnil, if_neg hnil', VenueResponse.hourlyServices_perm hs]
  refine ⟨hparts, ?_⟩
  unfold VenueResponse.exactPrice
  rw [hparts, VenueResponse.fixedPrices_perm hs, effectiveHourlyPrice_perm v isWeekend hh]

/-- **The price of several services**: of every selection, at every rate, for every interval. -/
theorem computeBookingTotalPriceMulti_spec {minutes : ℤ} (h : 0 < minutes) :
    MultiPriced v serviceIDs hallIDs isWeekend minutes where
  fails := by
    rw [computeBookingTotalPriceMulti_eq v serviceIDs hallIDs isWeekend h]
    have hparts : 1 < v.hourlyParts serviceIDs ↔ 1 < v.hourlyServices serviceIDs := by
      unfold VenueResponse.hourlyParts
      by_cases hnil : serviceIDs = []
      · subst hnil
        simp [VenueResponse.hourlyServices, VenueResponse.selected]
      · rw [if_neg hnil]
    rw [← hparts]
    by_cases hknown : v.Known serviceIDs
    · by_cases hone : 1 < v.hourlyParts serviceIDs <;> simp [hknown, hone]
    · simp [hknown]
  price total hok := (computeBookingTotalPriceMulti_ok v serviceIDs hallIDs isWeekend h hok).2
  order serviceIDs' hallIDs' hs hh := by
    obtain ⟨hparts, hprice⟩ := exactPrice_perm v isWeekend hs hh minutes
    rw [computeBookingTotalPriceMulti_eq v _ _ isWeekend h, computeBookingTotalPriceMulti_eq v _ _ isWeekend h, hparts, hprice]
    simp only [VenueResponse.Known.perm hs]
  fits total hok hfits := by
    have htotal := computeBookingTotalPriceMulti_fits v serviceIDs hallIDs isWeekend h hok hfits
    exact ⟨htotal, by rw [htotal]; exact exactPrice_nonneg v serviceIDs hallIDs isWeekend h⟩
  mono minutes' total total' hle hok hok' hfits := by
    have hmono := exactPrice_mono v serviceIDs hallIDs isWeekend hle
    rw [computeBookingTotalPriceMulti_fits v serviceIDs hallIDs isWeekend h hok (by omega),
      computeBookingTotalPriceMulti_fits v serviceIDs hallIDs isWeekend (by omega) hok' hfits]
    exact hmono

theorem computeBookingTotalPriceMulti_spec_sample :
    MultiPriced ⟨2500, 0, [⟨"s1", 700⟩, ⟨"s2", 0⟩], []⟩ ["s1", " ", "s2"] [] false 90 ∧
    computeBookingTotalPriceMulti ⟨2500, 0, [⟨"s1", 700⟩, ⟨"s2", 0⟩], []⟩ ["s2", "s1"] [] 90 false = .ok 5700 :=
  ⟨computeBookingTotalPriceMulti_spec _ _ _ _ (by decide), by decide +kernel⟩

/-- Three hours at a rate of a fourth of the range. -/
theorem computeBookingTotalPriceMulti_wraps : ¬ ∀ (v : VenueResponse) (serviceIDs hallIDs : List String) (minutes : ℤ)
    (isWeekend : Bool) (total : ℤ), 0 < minutes →
    computeBookingTotalPriceMulti v serviceIDs hallIDs minutes isWeekend = .ok total →
    total = v.exactPrice serviceIDs hallIDs minutes isWeekend ∧ 0 ≤ total := by
  intro hall
  have h := hall ⟨2 ^ 62, 0, [], []⟩ [] [] 180 false (-2 ^ 62) (by decide) (by decide)
  exact absurd h.2 (by decide)

end Agregator
