import Agregator.BookMulti
import Agregator.VenueStore
import Mathlib.Order.Bounds.Basic
/-!
# BookHalls — the rates of a venue that takes them from its halls

The venue service derives the rates of a venue from its halls, the booking service charges the greatest of the venue's and the
selected halls' rates.  The derived rate is the least positive one, so it is a floor: a selection is charged at its own greatest
rate exactly when one of its halls reaches it (`derived_hall_prices`).
-/
namespace Agregator

/-! ## The least positive rate -/

/-- The least positive value of a list, or of it and the value it begins with. -/
theorem foldl_leastPositive (g : VenueHall → ℤ) : ∀ (halls : List VenueHall) {least : ℤ}, 0 ≤ least →
    let m := halls.foldl (fun least h => VenueRepo.leastPositive (g h) least) least
    (m = 0 ∧ least = 0 ∧ ∀ h ∈ halls, g h ≤ 0) ∨
      (0 < m ∧ (m = least ∨ ∃ h ∈ halls, g h = m) ∧ (0 < least → m ≤ least) ∧ ∀ h ∈ halls, 0 < g h → m ≤ g h)
  | [], least, hleast => by
    by_cases hzero : least = 0
    · exact .inl ⟨hzero, hzero, by simp⟩
    · exact .inr ⟨by dsimp only [List.foldl_nil]; omega, .inl rfl, fun _ => Int.le_refl _, by simp⟩
  | h :: halls, least, hleast => by
    have hnext : 0 ≤ VenueRepo.leastPositive (g h) least := by
      unfold VenueRepo.leastPositive
      split <;> omega
    have ih := foldl_leastPositive g halls hnext
    dsimp only at ih ⊢
    rw [List.foldl_cons]
    generalize halls.foldl (fun least h => VenueRepo.leastPositive (g h) least) (VenueRepo.leastPositive (g h) least) = m at ih ⊢
    unfold VenueRepo.leastPositive at ih
    by_cases htake : 0 < g h ∧ (least = 0 ∨ g h < least)
    · rw [if_pos htake] at ih
      rcases ih with ⟨-, hzero, -⟩ | ⟨hpos, hfrom, hle, hall⟩
      · omega
      · refine .inr ⟨hpos, ?_, fun _ => ?_, ?_⟩
        · rcases hfrom with rfl | ⟨x, hx, rfl⟩
          · exact .inr ⟨h, List.mem_cons_self, rfl⟩
          · exact .inr ⟨x, List.mem_cons_of_mem _ hx, rfl⟩
        · have := hle htake.1
          omega
        · exact List.forall_mem_cons.2 ⟨fun _ => hle htake.1, hall⟩
    · rw [if_neg htake] at ih
      rcases ih with ⟨hm, hzero, hall⟩ | ⟨hpos, hfrom, hle, hall⟩
      · exact .inl ⟨hm, hzero, List.forall_mem_cons.2 ⟨by omega, hall⟩⟩
      · refine .inr ⟨hpos, ?_, hle, List.forall_mem_cons.2 ⟨fun hg => ?_, hall⟩⟩
        · rcases hfrom with rfl | ⟨x, hx, rfl⟩
          · exact .inl rfl
          · exact .inr ⟨x, List.mem_cons_of_mem _ hx, rfl⟩
        · have := hle (by omega)
          omega

/-- The value is the least positive one there is, or zero when there is none. -/
def LeastPositive (rates : Set ℤ) (r : ℤ) : Prop := IsLeast {x ∈ rates | 0 < x} r ∨ (r = 0 ∧ ∀ x ∈ rates, x ≤ 0)

theorem leastPositive_halls (g : VenueHall → ℤ) (halls : List VenueHall) :
    LeastPositive {x | ∃ h ∈ halls, g h = x} (halls.foldl (fun least h => VenueRepo.leastPositive (g h) least) 0) := by
  rcases foldl_leastPositive g halls (Int.le_refl 0) with ⟨hm, -, hall⟩ | ⟨hpos, hfrom, -, hall⟩
  · refine .inr ⟨hm, ?_⟩
    rintro x ⟨h, hh, rfl⟩
    exact hall h hh
  · refine .inl ⟨⟨?_, hpos⟩, ?_⟩
    · rcases hfrom with hzero | hhall
      · omega
      · exact hhall
    · rintro x ⟨⟨h, hh, rfl⟩, hx⟩
      exact hall h hh hx

theorem LeastPositive.le {rates : Set ℤ} {r x : ℤ} (h : LeastPositive rates r) (hx : x ∈ rates) (hpos : 0 < x) : r ≤ x := by
  rcases h with hleast | ⟨-, hnone⟩
  · exact hleast.2 ⟨hx, hpos⟩
  · have := hnone x hx
    omega

/-! ## What a booking sees -/

/-- A venue that takes its rates from its halls, as `GetVenue` tells of it. -/
def venueOfHalls (toLower : String → String) (halls : List VenueHall) (services : List VenueServiceItem) : VenueResponse where
  priceFrom := (VenueRepo.derivedVenueFieldsFromHalls toLower halls).1
  priceWeekend := (VenueRepo.derivedVenueFieldsFromHalls toLower halls).2.1
  services := services
  halls := halls.map fun h => ⟨h.id, h.priceFrom, h.priceWeekend⟩

def VenueHall.rate (h : VenueHall) (isWeekend : Bool) : ℤ := weekendRate h.priceFrom h.priceWeekend isWeekend

/-- The rates of the selected halls. -/
def selectedRates (halls : List VenueHall) (hallIDs : List String) (isWeekend : Bool) : Set ℤ :=
  {x | ∃ h ∈ halls, h.id ∈ hallIDs ∧ h.rate isWeekend = x}

/-- The rate of the venue for the day. -/
def derivedRate (toLower : String → String) (halls : List VenueHall) (isWeekend : Bool) : ℤ :=
  weekendRate (VenueRepo.derivedVenueFieldsFromHalls toLower halls).1 (VenueRepo.derivedVenueFieldsFromHalls toLower halls).2.1
    isWeekend

section Halls

variable {toLower : String → String} {halls : List VenueHall} {isWeekend : Bool}

/-- **The derived rate is the least positive one** of the halls, for both kinds of days. -/
theorem derivedRate_least (hpos : isWeekend = true → ∀ h ∈ halls, 0 ≤ h.priceWeekend) :
    LeastPositive {x | ∃ h ∈ halls, h.rate isWeekend = x} (derivedRate toLower halls isWeekend) := by
  have hweekday : LeastPositive {x | ∃ h ∈ halls, h.priceFrom = x} (VenueRepo.derivedVenueFieldsFromHalls toLower halls).1 :=
    leastPositive_halls (·.priceFrom) halls
  cases isWeekend with
  | false => exact hweekday
  | true =>
    have hweekend : LeastPositive {x | ∃ h ∈ halls, (if h.priceWeekend = 0 then h.priceFrom else h.priceWeekend) = x}
        (VenueRepo.derivedVenueFieldsFromHalls toLower halls).2.1 := leastPositive_halls _ halls
    have hrate : ∀ h ∈ halls, (if h.priceWeekend = 0 then h.priceFrom else h.priceWeekend) = h.rate true := by
      intro h hh
      have hnonneg := hpos rfl h hh
      unfold VenueHall.rate weekendRate
      by_cases hzero : h.priceWeekend = 0
      · simp [hzero]
      · have hlt : 0 < h.priceWeekend := by omega
        simp [hzero, hlt]
    have hset : {x | ∃ h ∈ halls, (if h.priceWeekend = 0 then h.priceFrom else h.priceWeekend) = x} =
        {x | ∃ h ∈ halls, h.rate true = x} :=
      Set.ext fun x => exists_congr fun h => and_congr_right fun hh => by rw [hrate h hh]
    rw [hset] at hweekend
    unfold derivedRate
    generalize (VenueRepo.derivedVenueFieldsFromHalls toLower halls).1 = priceFrom at hweekday
    generalize (VenueRepo.derivedVenueFieldsFromHalls toLower halls).2.1 = priceWeekend at hweekend
    rcases hweekend with hleast | ⟨rfl, hnone⟩
    · have hlt : 0 < priceWeekend := hleast.1.2
      exact .inl (by simpa [weekendRate, hlt] using hleast)
    · -- no hall costs anything at the weekend, so none does on a weekday
      have hfree : ∀ h ∈ halls, h.priceFrom ≤ 0 := by
        intro h hh
        have hle := hnone _ ⟨h, hh, rfl⟩
        have hnonneg := hpos rfl h hh
        unfold VenueHall.rate weekendRate at hle
        by_cases hlt : 0 < h.priceWeekend
        · simp only [Bool.true_and, hlt, decide_true, if_true] at hle
          omega
        · simpa [hlt] using hle
      have hzero : priceFrom = 0 := by
        rcases hweekday with hleast | ⟨hzero, -⟩
        · obtain ⟨⟨h, hh, heq⟩, hlt⟩ := hleast.1
          have := hfree h hh
          omega
        · exact hzero
      exact .inr ⟨by simp [weekendRate, hzero], hnone⟩

variable (hkeys : ∀ h ∈ halls, isUUID h.id = true) (honce : (halls.map (·.id)).Nodup) (services : List VenueServiceItem)
include hkeys honce

/-- A hall is charged at its own rate. -/
theorem hallRate_venueOfHalls {h : VenueHall} (hh : h ∈ halls) :
    hallRate (venueOfHalls toLower halls services) isWeekend (trimSpace h.id) = h.rate isWeekend := by
  rw [trimSpace_of_isUUID (hkeys h hh)]
  unfold hallRate venueOfHalls
  dsimp only
  cases hf : (halls.map fun h => (⟨h.id, h.priceFrom, h.priceWeekend⟩ : VenueHallInfo)).reverse.find? (·.id == h.id) with
  | none =>
    have hno := List.find?_eq_none.1 hf ⟨h.id, h.priceFrom, h.priceWeekend⟩
      (List.mem_reverse.2 (List.mem_map.2 ⟨h, hh, rfl⟩))
    simp at hno
  | some info =>
    obtain ⟨x, hx, rfl⟩ := List.mem_map.1 (List.mem_reverse.1 (List.mem_of_find?_eq_some hf))
    have hid : x.id = h.id := by simpa using List.find?_some hf
    rw [List.inj_on_of_nodup_map honce hx hh hid]
    rfl

/-- **What is charged is the greatest** of the derived rate and the rates of the selected halls. -/
theorem effectiveHourlyPrice_greatest {hallIDs : List String} (hin : ∀ id ∈ hallIDs, ∃ h ∈ halls, h.id = id) :
    IsGreatest (insert (derivedRate toLower halls isWeekend) (selectedRates halls hallIDs isWeekend))
      (effectiveHourlyPriceFromVenueAndHalls (venueOfHalls toLower halls services) hallIDs isWeekend) := by
  have hle : ∀ r, effectiveHourlyPriceFromVenueAndHalls (venueOfHalls toLower halls services) hallIDs isWeekend ≤ r ↔
      derivedRate toLower halls isWeekend ≤ r ∧ ∀ x ∈ selectedRates halls hallIDs isWeekend, x ≤ r := by
    intro r
    rw [effectiveHourlyPrice_le_iff]
    refine and_congr_right fun _ => ⟨?_, fun hall id hid _ => ?_⟩
    · rintro hall x ⟨h, hh, hid, rfl⟩
      have hne : trimSpace h.id ≠ "" := by
        rw [trimSpace_of_isUUID (hkeys h hh)]
        intro hempty
        have hkey := hkeys h hh
        rw [hempty] at hkey
        revert hkey
        decide
      have hrate := hall h.id hid hne
      rwa [hallRate_venueOfHalls hkeys honce services hh] at hrate
    · obtain ⟨h, hh, rfl⟩ := hin id hid
      rw [hallRate_venueOfHalls hkeys honce services hh]
      exact hall _ ⟨h, hh, hid, rfl⟩
  generalize effectiveHourlyPriceFromVenueAndHalls (venueOfHalls toLower halls services) hallIDs isWeekend = charged at hle
  obtain ⟨hbase, hupper⟩ := (hle charged).1 (Int.le_refl _)
  refine ⟨?_, ?_⟩
  · -- were it none of them, one less would be enough
    by_contra hnot
    have hless := (hle (charged - 1)).2 ⟨?_, fun x hx => ?_⟩
    · omega
    · have hne : derivedRate toLower halls isWeekend ≠ charged := fun heq => hnot (.inl heq.symm)
      omega
    · have hne : x ≠ charged := fun heq => hnot (.inr (heq ▸ hx))
      have := hupper x hx
      omega
  · rintro x (rfl | hx)
    · exact hbase
    · exact hupper x hx

end Halls

/-- How a selection of halls is charged. -/
structure HallPriced (toLower : String → String) (halls : List VenueHall) (services : List VenueServiceItem)
    (hallIDs : List String) (isWeekend : Bool) : Prop where
  greatest : IsGreatest (insert (derivedRate toLower halls isWeekend) (selectedRates halls hallIDs isWeekend))
    (effectiveHourlyPriceFromVenueAndHalls (venueOfHalls toLower halls services) hallIDs isWeekend)
  selected : IsGreatest (selectedRates halls hallIDs isWeekend)
      (effectiveHourlyPriceFromVenueAndHalls (venueOfHalls toLower halls services) hallIDs isWeekend) ↔
    ∃ x ∈ selectedRates halls hallIDs isWeekend, derivedRate toLower halls isWeekend ≤ x
  derived : (isWeekend = true → ∀ h ∈ halls, 0 ≤ h.priceWeekend) →
    LeastPositive {x | ∃ h ∈ halls, h.rate isWeekend = x} (derivedRate toLower halls isWeekend) ∧
      ((∃ x ∈ selectedRates halls hallIDs isWeekend, 0 < x) →
        IsGreatest (selectedRates halls hallIDs isWeekend)
          (effectiveHourlyPriceFromVenueAndHalls (venueOfHalls toLower halls services) hallIDs isWeekend))

/-- **A selection is charged at the greatest rate of its halls, but not below the rate of the venue**, which is the least
positive rate of all its halls. -/
theorem derived_hall_prices (toLower : String → String) {halls : List VenueHall} (services : List VenueServiceItem)
    (hkeys : ∀ h ∈ halls, isUUID h.id = true) (honce : (halls.map (·.id)).Nodup) {hallIDs : List String}
    (hin : ∀ id ∈ hallIDs, ∃ h ∈ halls, h.id = id) (isWeekend : Bool) :
    HallPriced toLower halls services hallIDs isWeekend := by
  have hgreatest : IsGreatest (insert (derivedRate toLower halls isWeekend) (selectedRates halls hallIDs isWeekend))
      (effectiveHourlyPriceFromVenueAndHalls (venueOfHalls toLower halls services) hallIDs isWeekend) :=
    effectiveHourlyPrice_greatest hkeys honce services hin
  have hselected : IsGreatest (selectedRates halls hallIDs isWeekend)
      (effectiveHourlyPriceFromVenueAndHalls (venueOfHalls toLower halls services) hallIDs isWeekend) ↔
      ∃ x ∈ selectedRates halls hallIDs isWeekend, derivedRate toLower halls isWeekend ≤ x := by
    constructor
    · exact fun h => ⟨_, h.1, hgreatest.2 (Set.mem_insert _ _)⟩
    · rintro ⟨x, hx, hle⟩
      refine ⟨?_, fun y hy => hgreatest.2 (Set.mem_insert_of_mem _ hy)⟩
      rcases hgreatest.1 with heq | hmem
      · -- the floor is charged, and a hall reaches it
        have hxle := hgreatest.2 (Set.mem_insert_of_mem _ hx)
        rw [heq] at hxle ⊢
        rwa [Int.le_antisymm hle hxle]
      · exact hmem
  refine ⟨hgreatest, hselected, fun hpos => ?_⟩
  have hleast : LeastPositive {x | ∃ h ∈ halls, h.rate isWeekend = x} (derivedRate toLower halls isWeekend) :=
    derivedRate_least hpos
  refine ⟨hleast, ?_⟩
  rintro ⟨x, ⟨h, hh, hid, rfl⟩, hlt⟩
  exact hselected.2 ⟨_, ⟨h, hh, hid, rfl⟩, hleast.le ⟨h, hh, rfl⟩ hlt⟩

/-! ### A hall that costs nothing -/

/-- A free hall and one that is paid for. -/
def freeAndPaid : List VenueHall :=
  [⟨"00000000-0000-0000-0000-0000000000a1", "", "", 0, 0, 0, [], 0, "", "", 0⟩,
    ⟨"00000000-0000-0000-0000-0000000000a2", "", "", 1000, 0, 0, [], 1, "", "", 0⟩]

theorem derived_hall_prices_sample : IsGreatest (selectedRates freeAndPaid ["00000000-0000-0000-0000-0000000000a2"] true)
    (effectiveHourlyPriceFromVenueAndHalls (venueOfHalls id freeAndPaid []) ["00000000-0000-0000-0000-0000000000a2"] true) := by
  have hpriced : HallPriced id freeAndPaid [] ["00000000-0000-0000-0000-0000000000a2"] true :=
    derived_hall_prices id [] (by decide +kernel) (by decide +kernel) (by decide +kernel) true
  refine (hpriced.derived (by decide +kernel)).2 ?_
  exact ⟨1000, ⟨_, List.mem_cons_of_mem _ List.mem_cons_self, List.mem_cons_self, rfl⟩, by decide⟩

theorem free_hall_charged : ¬ ∀ (toLower : String → String) (halls : List VenueHall) (services : List VenueServiceItem)
    (hallIDs : List String) (isWeekend : Bool), (∀ h ∈ halls, isUUID h.id = true) → (halls.map (·.id)).Nodup → hallIDs ≠ [] →
    (∀ id ∈ hallIDs, ∃ h ∈ halls, h.id = id) →
    IsGreatest (selectedRates halls hallIDs isWeekend)
      (effectiveHourlyPriceFromVenueAndHalls (venueOfHalls toLower halls services) hallIDs isWeekend) := by
  intro hall
  obtain ⟨⟨h, hh, hid, hrate⟩, -⟩ := hall id freeAndPaid [] ["00000000-0000-0000-0000-0000000000a1"] false (by decide +kernel)
    (by decide +kernel) (by decide) (by decide +kernel)
  have hcharged : effectiveHourlyPriceFromVenueAndHalls (venueOfHalls id freeAndPaid []) ["00000000-0000-0000-0000-0000000000a1"]
      false = 1000 := by decide +kernel
  rw [hcharged] at hrate
  have hfree : ∀ h ∈ freeAndPaid, h.id ∈ ["00000000-0000-0000-0000-0000000000a1"] → h.rate false ≠ 1000 := by decide +kernel
  exact hfree h hh hid hrate

end Agregator
