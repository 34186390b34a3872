import Agregator.BookPrice
import Agregator.ScriptNumber
/-!
# BookHint — the number that stands beside the form

The hint of the booking form as the browser computes it, whose numbers have 53 bits, and the price the service computes for the
same choice in 64.  They are one as long as the price is at most `2 ^ 53`; beyond, the browser rounds (`shownHint_eq`,
`hint_rounded`).
-/
namespace Agregator

open Script

/-- The prices of a venue are whole numbers the browser holds. -/
structure VenueResponse.Priced (v : VenueResponse) : Prop where
  venue : (0 ≤ v.priceFrom ∧ v.priceFrom < 2 ^ 53) ∧ 0 ≤ v.priceWeekend ∧ v.priceWeekend < 2 ^ 53
  halls : ∀ h ∈ v.halls, (0 ≤ h.priceFrom ∧ h.priceFrom < 2 ^ 53) ∧ 0 ≤ h.priceWeekend ∧ h.priceWeekend < 2 ^ 53
  services : ∀ s ∈ v.services, 0 ≤ s.price ∧ s.price < 2 ^ 53

/-! ## The form -/

/-- `sumRub` and `hourlySlots` after the loop, every sum held as a number of the browser. -/
def sumHeld (venue : VenueResponse) : List String → ℤ → ℕ → ℤ × ℕ
  | [], sumRub, hourlySlots => (sumRub, hourlySlots)
  | id :: rest, sumRub, hourlySlots =>
    match venue.services.find? (·.id == id) with
    | none => sumHeld venue rest sumRub hourlySlots
    | some s =>
      if 0 < s.price then sumHeld venue rest (ofInt (sumRub + s.price)) hourlySlots else sumHeld venue rest sumRub (hourlySlots + 1)

namespace VenueBookingForm

variable (form : VenueBookingForm)

/-- `hourlyBase * Math.ceil(mins / 60)`, where the form computes it. -/
def hourlyHeld (venue : VenueResponse) : Option ℤ :=
  let hourlyBase := effectiveHourlyRateRub venue form.selectedHallIds form.date.isWeekendDay
  if 0 < hourlyBase ∧ form.slotValid then
    (slotLengthMinutes form.time form.timeTo).map fun mins => ofInt (hourlyBase * ((mins + 59) / 60))
  else none

/-- `priceHint`: the number it is formatted from. -/
def shownHint (venue : VenueResponse) : Option ℤ :=
  if form.selectedServiceIds.isEmpty then form.hourlyHeld venue
  else
    let (sumRub, hourlySlots) := sumHeld venue form.selectedServiceIds 0 0
    if 1 < hourlySlots then none
    else
      let sumRub :=
        match form.hourlyHeld venue with
        | some hours => if hourlySlots = 1 then ofInt (sumRub + hours) else sumRub
        | none => sumRub
      if 0 < sumRub then some sumRub else none

end VenueBookingForm

/-! ## The services -/

section Services

variable {v : VenueResponse}

theorem service_key {id : String} (h : isUUID id = true) : v.service id = v.services.find? (·.id == id) := by
  have hne : id ≠ "" := by
    rintro rfl
    revert h
    decide
  unfold VenueResponse.service
  rw [trimSpace_of_isUUID h, if_neg hne]

theorem fixedPrices_cons {id : String} {s : VenueServiceItem} (h : v.service id = some s) (ids : List String) :
    v.fixedPrices (id :: ids) = (if 0 < s.price then s.price else 0) + v.fixedPrices ids := by
  unfold VenueResponse.fixedPrices VenueResponse.selected
  rw [List.filterMap_cons_some h]
  by_cases hprice : 0 < s.price
  · rw [if_pos hprice, List.filter_cons_of_pos (by simpa using hprice), List.map_cons, List.sum_cons]
  · rw [if_neg hprice, List.filter_cons_of_neg (by simpa using hprice), Int.zero_add]

theorem hourlyServices_cons {id : String} {s : VenueServiceItem} (h : v.service id = some s) (ids : List String) :
    v.hourlyServices (id :: ids) = (if 0 < s.price then 0 else 1) + v.hourlyServices ids := by
  unfold VenueResponse.hourlyServices VenueResponse.selected
  rw [List.filterMap_cons_some h]
  by_cases hprice : 0 < s.price
  · rw [if_pos hprice, List.filter_cons_of_neg (by simpa using hprice), Nat.zero_add]
  · rw [if_neg hprice, List.filter_cons_of_pos (by simpa using hprice), List.length_cons, Nat.add_comm]

/-- **The loop of the form** sums up as the integers do until a sum is too long. -/
theorem sumHeld_known : ∀ {ids : List String} {sumRub : ℤ} (n : ℕ), (∀ id ∈ ids, isUUID id = true) → v.Known ids → 0 ≤ sumRub →
    (sumHeld v ids sumRub n).2 = n + v.hourlyServices ids ∧ 0 ≤ (sumHeld v ids sumRub n).1 ∧
    (0 < (sumHeld v ids sumRub n).1 ↔ 0 < sumRub + v.fixedPrices ids) ∧
    (sumRub + v.fixedPrices ids ≤ 2 ^ 53 → (sumHeld v ids sumRub n).1 = sumRub + v.fixedPrices ids)
  | [], sumRub, n, _, _, h => by
    have hfixed : v.fixedPrices [] = 0 := rfl
    rw [hfixed, Int.add_zero]
    exact ⟨rfl, h, Iff.rfl, fun _ => rfl⟩
  | id :: ids, sumRub, n, hkeys, hknown, h => by
    obtain ⟨hid, hrest⟩ := List.forall_mem_cons.1 hkeys
    have hknown' : v.Known ids := fun x hx => hknown x (List.mem_cons_of_mem _ hx)
    have hne : trimSpace id ≠ "" := by
      rw [trimSpace_of_isUUID hid]
      rintro rfl
      revert hid
      decide
    obtain ⟨s, hs⟩ := Option.isSome_iff_exists.1 (hknown id List.mem_cons_self hne)
    rw [fixedPrices_cons hs, hourlyServices_cons hs]
    rw [service_key hid] at hs
    have hnonneg := VenueResponse.fixedPrices_nonneg (v := v) ids
    unfold sumHeld
    rw [hs]
    dsimp only
    by_cases hprice : 0 < s.price
    · rw [if_pos hprice, if_pos hprice, if_pos hprice]
      have hpos : 0 < ofInt (sumRub + s.price) := ofInt_pos.2 (by omega)
      obtain ⟨h₁, h₂, h₃, h₄⟩ := sumHeld_known n hrest hknown' hpos.le
      refine ⟨by omega, h₂, by omega, fun hle => ?_⟩
      rw [ofInt_of_le (by omega) (by omega)] at h₄ ⊢
      rw [h₄ (by omega)]
      omega
    · rw [if_neg hprice, if_neg hprice, if_neg hprice, Int.zero_add]
      obtain ⟨h₁, h₂, h₃, h₄⟩ := sumHeld_known (n + 1) hrest hknown' h
      exact ⟨by omega, h₂, h₃, h₄⟩

end Services

/-! ## Both numbers -/

namespace VenueBookingForm

variable {form : VenueBookingForm} {v : VenueResponse}

theorem Valid.keys (hf : form.Valid v) (hv : v.Keyed) : ∀ id ∈ form.selectedServiceIds, isUUID id = true := by
  intro id hid
  obtain ⟨s, hs, rfl⟩ := hf.services id hid
  exact hv.services s hs

theorem Valid.known (hf : form.Valid v) (hv : v.Keyed) : v.Known form.selectedServiceIds := by
  intro id hid _
  obtain ⟨s, hs, rfl⟩ := hf.services id hid
  rw [service_key (hv.services s hs)]
  exact List.find?_isSome.2 ⟨s, hs, beq_self_eq_true _⟩

/-- A slot that is valid has a length. -/
theorem length_of_slotValid (h : form.slotValid = true) :
    ∃ mins, slotLengthMinutes form.time form.timeTo = some mins ∧ 30 ≤ mins ∧ mins ≤ 720 ∧ mins % 30 = 0 := by
  unfold slotValid at h
  cases hlen : slotLengthMinutes form.time form.timeTo with
  | none => simp [hlen] at h
  | some mins =>
    rw [hlen] at h
    simp only [Bool.and_eq_true, decide_eq_true_eq] at h
    exact ⟨mins, rfl, h.2⟩

theorem hourlyHeld_eq (hvalid : form.slotValid = true) {mins : ℤ} (hlen : slotLengthMinutes form.time form.timeTo = some mins) :
    form.hourlyHeld v =
      if 0 < effectiveHourlyRateRub v form.selectedHallIds form.date.isWeekendDay then
        some (ofInt (effectiveHourlyRateRub v form.selectedHallIds form.date.isWeekendDay * ((mins + 59) / 60)))
      else none := by
  unfold hourlyHeld
  rw [hlen]
  simp only [hvalid, and_true, Option.map_some]

/-- What the hint says of a price in the integers: nothing of none, and the number where the browser holds it. -/
def Says (hint : Option ℤ) (exact : ℤ) : Prop := (hint = none ↔ exact = 0) ∧ (exact ≤ 2 ^ 53 → ∀ r, hint = some r → r = exact)

theorem says_none : Says none 0 := ⟨⟨fun _ => rfl, fun _ => rfl⟩, fun _ _ h => by cases h⟩

theorem says_held {x : ℤ} (h : 0 < x) : Says (some (ofInt x)) x := by
  refine ⟨⟨fun h' => (by cases h'), fun h' => (by omega)⟩, fun hle r hr => ?_⟩
  cases hr
  exact ofInt_of_le h.le hle

/-- The sum of the prices alone. -/
theorem says_sum {sumRub fixed : ℤ} (hfixed : 0 ≤ fixed) (hpos : 0 < sumRub ↔ 0 < fixed) (hexact : fixed ≤ 2 ^ 53 → sumRub = fixed) :
    Says (if 0 < sumRub then some sumRub else none) fixed := by
  by_cases h : 0 < sumRub
  · rw [if_pos h]
    refine ⟨⟨fun h' => (by cases h'), fun h' => (by omega)⟩, fun hle r hr => ?_⟩
    cases hr
    exact hexact hle
  · have hzero : fixed = 0 := by omega
    rw [if_neg h, hzero]
    exact says_none

/-- The sum of the prices and the hours. -/
theorem says_total {sumRub fixed hourly : ℤ} (hsum : 0 ≤ sumRub) (hfixed : 0 ≤ fixed) (hexact : fixed ≤ 2 ^ 53 → sumRub = fixed)
    (hhourly : 0 < hourly) :
    Says (if 0 < ofInt (sumRub + ofInt hourly) then some (ofInt (sumRub + ofInt hourly)) else none) (fixed + hourly) := by
  have hheld := ofInt_pos.2 hhourly
  have htotal : 0 < ofInt (sumRub + ofInt hourly) := ofInt_pos.2 (by omega)
  rw [if_pos htotal]
  refine ⟨⟨fun h' => (by cases h'), fun h' => (by omega)⟩, fun hle r hr => ?_⟩
  cases hr
  rw [ofInt_of_le hhourly.le (by omega), hexact (by omega), ofInt_of_le (by omega) hle]

/-- **The hint of a choice that has a price** says what the price is in the integers. -/
theorem shownHint_says (hv : v.Keyed) (hf : form.Valid v) (hvalid : form.slotValid = true) {mins : ℤ}
    (hlen : slotLengthMinutes form.time form.timeTo = some mins) (hmins : 0 < mins)
    (hparts : v.hourlyParts form.selectedServiceIds ≤ 1) :
    Says (form.shownHint v) (v.exactPrice form.selectedServiceIds form.selectedHallIds mins form.date.isWeekendDay) := by
  have hhalls : ∀ id ∈ form.selectedHallIds, isUUID id = true := by
    intro id hid
    obtain ⟨h, hh, rfl⟩ := hf.halls id hid
    exact hv.halls h hh
  unfold VenueResponse.exactPrice
  rw [ceil_minutes, ← effectiveHourlyRateRub_eq hv _ hhalls]
  have hrate : 0 ≤ effectiveHourlyRateRub v form.selectedHallIds form.date.isWeekendDay := by
    rw [effectiveHourlyRateRub_eq hv _ hhalls]
    exact le_max_left ..
  have hheld := hourlyHeld_eq (v := v) hvalid hlen
  have hhours : 1 ≤ (mins + 59) / 60 := by omega
  generalize effectiveHourlyRateRub v form.selectedHallIds form.date.isWeekendDay = rate at hrate hheld ⊢
  generalize (mins + 59) / 60 = hours at hheld hhours ⊢
  unfold shownHint
  by_cases hnil : form.selectedServiceIds = []
  · have hempty : form.selectedServiceIds.isEmpty = true := by simpa using hnil
    have hfixed : v.fixedPrices [] = 0 := rfl
    have hone : v.hourlyParts [] = 1 := rfl
    rw [if_pos hempty, hnil, hfixed, hone, hheld, Int.natCast_one, Int.one_mul, Int.zero_add]
    by_cases hpos : 0 < rate
    · rw [if_pos hpos]
      exact says_held (Int.mul_pos hpos (by omega))
    · have hzero : rate = 0 := by omega
      rw [if_neg hpos, hzero, Int.zero_mul]
      exact says_none
  · have hempty : ¬ form.selectedServiceIds.isEmpty = true := by simpa using hnil
    have hparts' : v.hourlyParts form.selectedServiceIds = v.hourlyServices form.selectedServiceIds := if_neg hnil
    obtain ⟨hslots, hsum, hpos, hexact⟩ := sumHeld_known 0 (hf.keys hv) (hf.known hv) (le_refl 0)
    rw [if_neg hempty, hheld]
    rw [hparts'] at hparts ⊢
    rw [Nat.zero_add] at hslots
    rw [Int.zero_add] at hpos hexact
    have hfixed := VenueResponse.fixedPrices_nonneg (v := v) form.selectedServiceIds
    generalize v.fixedPrices form.selectedServiceIds = fixed at hpos hexact hfixed ⊢
    generalize sumHeld v form.selectedServiceIds 0 0 = sums at hslots hsum hpos hexact ⊢
    obtain ⟨sumRub, hourlySlots⟩ := sums
    dsimp only at hslots hsum hpos hexact ⊢
    rw [hslots, if_neg (by omega)]
    have hsums := says_sum hfixed hpos hexact
    by_cases hone : v.hourlyServices form.selectedServiceIds = 1
    · rw [hone, Int.natCast_one, Int.one_mul]
      by_cases hrate' : 0 < rate
      · rw [if_pos hrate']
        simp only [if_true]
        exact says_total hsum hfixed hexact (Int.mul_pos hrate' (by omega))
      · have hzero : rate = 0 := by omega
        rw [if_neg hrate', hzero, Int.zero_mul, Int.add_zero]
        exact hsums
    · have hzero : v.hourlyServices form.selectedServiceIds = 0 := by omega
      rw [hzero, Int.natCast_zero, Int.zero_mul, Int.add_zero]
      by_cases hrate' : 0 < rate
      · rw [if_pos hrate']
        exact hsums
      · rw [if_neg hrate']
        exact hsums

/-- A choice of several services without a price has no hint. -/
theorem shownHint_several (hv : v.Keyed) (hf : form.Valid v) (hparts : 1 < v.hourlyParts form.selectedServiceIds) :
    form.shownHint v = none := by
  have hnil : form.selectedServiceIds ≠ [] := by
    intro hnil
    rw [hnil] at hparts
    exact Nat.lt_irrefl 1 hparts
  have hempty : ¬ form.selectedServiceIds.isEmpty = true := by simpa using hnil
  have hparts' : v.hourlyParts form.selectedServiceIds = v.hourlyServices form.selectedServiceIds := if_neg hnil
  obtain ⟨hslots, -⟩ := sumHeld_known 0 (hf.keys hv) (hf.known hv) (le_refl 0)
  unfold shownHint
  rw [if_neg hempty]
  generalize sumHeld v form.selectedServiceIds 0 0 = sums at hslots ⊢
  obtain ⟨sumRub, hourlySlots⟩ := sums
  dsimp only at hslots ⊢
  rw [if_pos (by omega)]

/-- What the hint is against the price the service computes for the same choice. -/
structure HintAgrees (form : VenueBookingForm) (v : VenueResponse) (mins : ℤ) : Prop where
  /-- A choice that is rejected has no hint. -/
  rejected : ∀ e, computeBookingTotalPriceMulti v form.selectedServiceIds form.selectedHallIds mins form.date.isWeekendDay = .error e →
    form.shownHint v = none
  /-- Of a choice that is not, the hint is missing where the price is nothing, as long as the price fits 64 bits. -/
  missing : ∀ total, computeBookingTotalPriceMulti v form.selectedServiceIds form.selectedHallIds mins form.date.isWeekendDay = .ok total →
    v.exactPrice form.selectedServiceIds form.selectedHallIds mins form.date.isWeekendDay < 2 ^ 63 →
    (form.shownHint v = none ↔ total = 0)
  /-- The number is the price, as long as that is a number the browser holds. -/
  equal : ∀ total, computeBookingTotalPriceMulti v form.selectedServiceIds form.selectedHallIds mins form.date.isWeekendDay = .ok total →
    v.exactPrice form.selectedServiceIds form.selectedHallIds mins form.date.isWeekendDay ≤ 2 ^ 53 →
    ∀ r, form.shownHint v = some r → r = total

/-- **The hint equals the price of the booking**, up to `2 ^ 53`. -/
theorem shownHint_eq (hv : v.Keyed) (hf : form.Valid v) (hvalid : form.slotValid = true) :
    ∃ mins, slotLengthMinutes form.time form.timeTo = some mins ∧ HintAgrees form v mins := by
  obtain ⟨mins, hlen, hlow, -⟩ := length_of_slotValid hvalid
  have hmins : 0 < mins := by omega
  have hknown := hf.known hv
  have hprice := computeBookingTotalPriceMulti_eq v form.selectedServiceIds form.selectedHallIds form.date.isWeekendDay hmins
  rw [if_pos hknown] at hprice
  refine ⟨mins, hlen, ?_⟩
  by_cases hparts : 1 < v.hourlyParts form.selectedServiceIds
  · rw [if_pos hparts] at hprice
    constructor
    · exact fun _ _ => shownHint_several hv hf hparts
    · intro total htotal
      rw [hprice] at htotal
      cases htotal
    · intro total htotal
      rw [hprice] at htotal
      cases htotal
  · rw [if_neg hparts] at hprice
    have hfits : ∀ total, computeBookingTotalPriceMulti v form.selectedServiceIds form.selectedHallIds mins
        form.date.isWeekendDay = .ok total →
        v.exactPrice form.selectedServiceIds form.selectedHallIds mins form.date.isWeekendDay < 2 ^ 63 →
        total = v.exactPrice form.selectedServiceIds form.selectedHallIds mins form.date.isWeekendDay := fun total htotal hlt =>
      computeBookingTotalPriceMulti_fits v _ _ _ hmins htotal hlt
    obtain ⟨hnone, heq⟩ := shownHint_says hv hf hvalid hlen hmins (by omega)
    constructor
    · intro e he
      rw [hprice] at he
      cases he
    · intro total htotal hlt
      rw [hfits total htotal hlt]
      exact hnone
    · intro total htotal hle r hr
      rw [hfits total htotal (by omega)]
      exact heq hle r hr

/-- The evening's hint is its price. -/
theorem evening_hint : ∃ mins, slotLengthMinutes eveningForm.time eveningForm.timeTo = some mins ∧
    HintAgrees eveningForm pricedVenue mins :=
  shownHint_eq pricedVenue_keyed eveningForm_valid (by decide +kernel)

/-- A venue at the highest price of an hour. -/
def dearVenue : VenueResponse := ⟨2 ^ 53 - 1, 0, [], []⟩

def threeHours : VenueBookingForm := ⟨⟨2025, 6, 2⟩, "18:00", "21:00", [], [], 2⟩

/-- Three hours at the highest price are shown as one rouble less. -/
theorem hint_rounded : ¬ ∀ (form : VenueBookingForm) (v : VenueResponse) (mins total r : ℤ), v.Keyed → v.Priced → form.Valid v →
    form.slotValid = true → slotLengthMinutes form.time form.timeTo = some mins →
    computeBookingTotalPriceMulti v form.selectedServiceIds form.selectedHallIds mins form.date.isWeekendDay = .ok total →
    form.shownHint v = some r → r = total := by
  intro hall
  have hkeyed : dearVenue.Keyed := ⟨by simp [dearVenue], by simp [dearVenue], by decide⟩
  have hpriced : dearVenue.Priced := ⟨by decide, by simp [dearVenue], by simp [dearVenue]⟩
  have hvalid : threeHours.Valid dearVenue := ⟨by decide, by simp [threeHours], by simp [threeHours], by decide, by decide⟩
  have hone := hall threeHours dearVenue 180 (3 * (2 ^ 53 - 1)) (3 * (2 ^ 53 - 1) - 1) hkeyed hpriced hvalid (by decide +kernel)
    (by decide +kernel) (by decide +kernel) (by decide +kernel)
  exact absurd hone (by decide)

end VenueBookingForm

end Agregator
