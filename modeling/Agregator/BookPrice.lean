import Mathlib.Tactic.Ring
import Mathlib.Data.Int.Order.Basic
import Agregator.BookMulti
import Agregator.BookPages
import Agregator.BookStates
import Agregator.ConcPlay
/-!
# BookPrice — the price of a visit, as it is shown and as it is charged

The booking form of a venue, its price in roubles, and the amount of the payment that a booking asks for, which is one of kopecks.
Numbers of the form are exact here.
-/
namespace Agregator

open Rel Conc

/-! ## The form -/

def rateForDay (weekday weekend : ℤ) (isWeekend : Bool) : ℤ := if isWeekend && decide (0 < weekend) then weekend else weekday

def effectiveHourlyRateRub (venue : VenueResponse) (hallIds : List String) (isWeekend : Bool) : ℤ :=
  hallIds.foldl (fun base id =>
    match venue.halls.find? (·.id == id) with
    | none => base
    | some h =>
      let rate := rateForDay h.priceFrom h.priceWeekend isWeekend
      if 0 < rate then max base rate else base) (max 0 (rateForDay venue.priceFrom venue.priceWeekend isWeekend))

/-- The white space of a browser. -/
def isScriptSpace (c : Char) : Bool := (isSpace c && c.toNat != 0x85) || c.toNat == 0xfeff

/-- `parseInt(x, 10)`: the digits at the beginning. -/
def parseInt (cs : List Char) : Option ℤ :=
  let digits (cs : List Char) : Option ℤ :=
    match cs.takeWhile Char.isDigit with
    | [] => none
    | ds => (digitsVal ds).map Int.ofNat
  match cs.dropWhile isScriptSpace with
  | '-' :: cs => (digits cs).map fun n => -n
  | '+' :: cs => digits cs
  | cs => digits cs

/-- What stands before the first colon, and between it and the next. -/
def hoursMinutes (s : String) : Option (ℤ × ℤ) :=
  match s.toList.splitOn ':' with
  | h :: m :: _ => (parseInt h).bind fun h => (parseInt m).map fun m => (h, m)
  | _ => none

def slotLengthMinutes (start stop : String) : Option ℤ :=
  match hoursMinutes start, hoursMinutes stop with
  | some (fh, fm), some (th, tm) =>
    let v := th * 60 + tm - (fh * 60 + fm)
    if 0 < v then some v else none
  | _, _ => none

/-- What has been chosen. -/
structure VenueBookingForm where
  date : Date
  time : String
  timeTo : String
  selectedServiceIds : List String
  selectedHallIds : List String
  guests : ℤ
deriving DecidableEq, Repr

/-- The services with a price summed up, and how many there are without. -/
def sumPriced (venue : VenueResponse) : List String → ℤ → ℕ → ℤ × ℕ
  | [], sumRub, hourlySlots => (sumRub, hourlySlots)
  | id :: rest, sumRub, hourlySlots =>
    match venue.services.find? (·.id == id) with
    | none => sumPriced venue rest sumRub hourlySlots
    | some s =>
      if 0 < s.price then sumPriced venue rest (sumRub + s.price) hourlySlots else sumPriced venue rest sumRub (hourlySlots + 1)

namespace VenueBookingForm

variable (form : VenueBookingForm)

def slotValid : Bool :=
  form.time != "" && form.timeTo != "" &&
    match slotLengthMinutes form.time form.timeTo with
    | some m => decide (30 ≤ m ∧ m ≤ 720 ∧ m % 30 = 0)
    | none => false

/-- What the hours cost, of which one that has begun counts. -/
def hourly (venue : VenueResponse) : Option ℤ :=
  let hourlyBase := effectiveHourlyRateRub venue form.selectedHallIds form.date.isWeekendDay
  if 0 < hourlyBase ∧ form.slotValid then
    (slotLengthMinutes form.time form.timeTo).map fun mins => hourlyBase * ((mins + 59) / 60)
  else none

/-- The roubles that are shown. -/
def priceHint (venue : VenueResponse) : Option ℤ :=
  if form.selectedServiceIds.isEmpty then form.hourly venue
  else
    let (sumRub, hourlySlots) := sumPriced venue form.selectedServiceIds 0 0
    if 1 < hourlySlots then none
    else
      let sumRub := if hourlySlots = 1 then sumRub + (form.hourly venue).getD 0 else sumRub
      if 0 < sumRub then some sumRub else none

/-- The booking that is asked for, as it comes to the booking service: the gateway adds the user and the name of the venue. -/
def handleBook (today : Date) (userID venueID venueName : String) : Option CreateBookingInput :=
  if form.time ≠ "" ∧ form.slotValid ∧ form.timeTo ≠ "" ∧ today.le form.date then
    some { userID := userID, venueID := venueID, venueName := venueName, serviceID := "", serviceIDs := form.selectedServiceIds
           hallIDs := form.selectedHallIds, date := form.date.string, timeFrom := form.time, timeTo := form.timeTo
           guests := form.guests, comment := "" }
  else none

/-- A choice that can be made: a day of the calendar, and services and halls of the venue, each once. -/
structure Valid (venue : VenueResponse) : Prop where
  date : form.date.Valid
  services : ∀ id ∈ form.selectedServiceIds, ∃ s ∈ venue.services, s.id = id
  halls : ∀ id ∈ form.selectedHallIds, ∃ h ∈ venue.halls, h.id = id
  servicesOnce : form.selectedServiceIds.Nodup
  hallsOnce : form.selectedHallIds.Nodup

end VenueBookingForm

/-- The keys of a venue's services and halls. -/
structure VenueResponse.Keyed (v : VenueResponse) : Prop where
  services : ∀ s ∈ v.services, isUUID s.id = true
  halls : ∀ h ∈ v.halls, isUUID h.id = true
  hallsOnce : (v.halls.map (·.id)).Nodup

/-! ## Both prices -/

/-- No number of 64 bits is a hundred times the number it stands for, but for zero. -/
theorem int64_ne_hundred {r : ℤ} (h : 0 < r) : int64 r ≠ 100 * r := by
  have hlt : int64 r < 2 ^ 63 := Int.bmod_lt (by decide)
  by_cases hr : r < 2 ^ 63
  · have heq : int64 r = r := Int.bmod_eq_of_le_mul_two (by omega) (by omega)
    omega
  · omega

/-- Identifiers that are keys come out as they are. -/
theorem normalizeIDs_keys {ids : List String} (hkeys : ∀ id ∈ ids, isUUID id = true) (honce : ids.Nodup) : normalizeIDs ids = ids := by
  have hfold : ∀ (rest out : List String), (∀ id ∈ rest, isUUID id = true) → (out ++ rest).Nodup →
      rest.foldl (fun out raw => if trimSpace raw == "" || out.contains (trimSpace raw) then out else out ++ [trimSpace raw]) out =
        out ++ rest := by
    intro rest
    induction rest with
    | nil => exact fun out _ _ => (List.append_nil out).symm
    | cons id rest ih =>
      intro out hk hn
      have hid := hk id List.mem_cons_self
      have hne : id ≠ "" := by
        rintro rfl
        revert hid
        decide
      have hnot : id ∉ out := fun hmem => (List.nodup_append.1 hn).2.2 id hmem id List.mem_cons_self rfl
      rw [List.append_cons] at hn ⊢
      rw [List.foldl_cons, trimSpace_of_isUUID hid, if_neg (by simp [hne, hnot])]
      exact ih _ (fun x hx => hk x (List.mem_cons_of_mem _ hx)) hn
  exact hfold ids [] hkeys honce

/-- Of halls with keys of their own the first and the last one with a key are one. -/
theorem find_reverse {halls : List VenueHallInfo} (h : (halls.map (·.id)).Nodup) (id : String) :
    halls.reverse.find? (·.id == id) = halls.find? (·.id == id) := by
  cases hf : halls.find? (·.id == id) with
  | none =>
    rw [List.find?_eq_none] at hf ⊢
    exact fun x hx => hf x (List.mem_reverse.1 hx)
  | some a =>
    have ha := List.mem_of_find?_eq_some hf
    have hida := List.find?_some hf
    cases hr : halls.reverse.find? (·.id == id) with
    | none => exact absurd hida (List.find?_eq_none.1 hr a (List.mem_reverse.2 ha))
    | some b =>
      have hb := List.mem_reverse.1 (List.mem_of_find?_eq_some hr)
      have hidb := List.find?_some hr
      rw [List.inj_on_of_nodup_map h ha hb ((beq_iff_eq.1 hida).trans (beq_iff_eq.1 hidb).symm)]

/-- **The rate of the form is the rate of the service**, where that is one. -/
theorem effectiveHourlyRateRub_eq {v : VenueResponse} (hv : v.Keyed) (isWeekend : Bool) {ids : List String}
    (hkeys : ∀ id ∈ ids, isUUID id = true) :
    effectiveHourlyRateRub v ids isWeekend = max 0 (effectiveHourlyPriceFromVenueAndHalls v ids isWeekend) := by
  unfold effectiveHourlyRateRub effectiveHourlyPriceFromVenueAndHalls
  have hbase : rateForDay v.priceFrom v.priceWeekend isWeekend = weekendRate v.priceFrom v.priceWeekend isWeekend := rfl
  rw [hbase]
  generalize weekendRate v.priceFrom v.priceWeekend isWeekend = base
  induction ids generalizing base with
  | nil => rfl
  | cons id ids ih =>
    have hid := hkeys id List.mem_cons_self
    have hne : (id == "") = false := by
      rw [beq_eq_false_iff_ne]
      rintro rfl
      revert hid
      decide
    simp only [List.foldl_cons, trimSpace_of_isUUID hid, hne, Bool.false_eq_true, if_false]
    rw [← ih (fun x hx => hkeys x (List.mem_cons_of_mem _ hx))]
    congr 1
    unfold hallRate
    rw [find_reverse hv.hallsOnce]
    cases v.halls.find? (·.id == id) with
    | none => dsimp only; omega
    | some h =>
      have hrate : rateForDay h.priceFrom h.priceWeekend isWeekend = weekendRate h.priceFrom h.priceWeekend isWeekend := rfl
      dsimp only
      rw [hrate]
      split <;> omega

/-- The sums of both go along: the service adds the hours where the form counts them. -/
theorem sumPriced_eq {v : VenueResponse} {hourly : ℤ} : ∀ {ids : List String} {sum sumRub : ℤ} {n parts : ℕ} {total : ℤ},
    (∀ id ∈ ids, isUUID id = true) → sumServices v hourly ids sum n = .ok (total, parts) → sum = int64 (sumRub + n * hourly) →
    (sumPriced v ids sumRub n).2 = parts ∧ total = int64 ((sumPriced v ids sumRub n).1 + parts * hourly)
  | [], sum, sumRub, n, parts, total, _, h, hsum => by
    obtain ⟨rfl, rfl⟩ := Prod.mk.inj (Except.ok.inj h)
    exact ⟨rfl, hsum⟩
  | id :: ids, sum, sumRub, n, parts, total, hkeys, h, hsum => by
    have hid := hkeys id List.mem_cons_self
    have hne : (id == "") = false := by
      rw [beq_eq_false_iff_ne]
      rintro rfl
      revert hid
      decide
    have hrest : ∀ x ∈ ids, isUUID x = true := fun x hx => hkeys x (List.mem_cons_of_mem _ hx)
    simp only [sumServices, trimSpace_of_isUUID hid, hne, Bool.false_eq_true, if_false] at h
    unfold sumPriced
    cases hf : v.services.find? (·.id == id) with
    | none =>
      rw [hf] at h
      cases h
    | some s =>
      rw [hf] at h
      dsimp only at h ⊢
      by_cases hprice : 0 < s.price
      · rw [if_pos hprice] at h ⊢
        refine sumPriced_eq hrest h ?_
        rw [hsum, int64_int64_add]
        congr 1
        ring
      · rw [if_neg hprice] at h ⊢
        refine sumPriced_eq hrest h ?_
        rw [hsum, int64_int64_add]
        congr 1
        push_cast
        ring

/-! ## The length of a visit -/

/-- `parseInt` of digits is their number. -/
theorem parseInt_digits {cs : List Char} {n : ℕ} (h : digitsVal cs = some n) (hne : cs ≠ []) :
    parseInt cs = some (n : ℤ) := by
  have hall : ∀ c ∈ cs, c.isDigit = true := by
    unfold digitsVal at h
    split at h
    · rename_i hall
      exact List.all_eq_true.1 hall
    · cases h
  have htake : cs.takeWhile Char.isDigit = cs := by
    have happend := @List.takeWhile_append_of_pos _ Char.isDigit cs [] hall
    simpa using happend
  obtain ⟨c, cs', rfl⟩ := List.exists_cons_of_ne_nil hne
  have hc := hall c List.mem_cons_self
  simp only [Char.isDigit, Bool.and_eq_true, decide_eq_true_eq, ge_iff_le, UInt32.le_iff_toNat_le] at hc
  have hspace : isScriptSpace c = false := by
    have hnat : c.toNat = c.val.toNat := rfl
    unfold isScriptSpace isSpace
    simp only [Bool.or_eq_false_iff, Bool.and_eq_false_iff, decide_eq_false_iff_not, beq_eq_false_iff_ne]
    simp at hc
    omega
  have hsign : c ≠ '-' ∧ c ≠ '+' := by
    constructor <;>
    · rintro rfl
      revert hc
      decide
  unfold parseInt
  rw [List.dropWhile_cons_of_neg (by simp [hspace])]
  dsimp only
  split
  · rename_i heq
    exact absurd (List.cons.inj heq).1 hsign.1
  · rename_i heq
    exact absurd (List.cons.inj heq).1 hsign.2
  · rw [htake]
    exact congrArg (Option.map Int.ofNat) h

theorem not_colon_of_digits {cs : List Char} {n : ℕ} (h : digitsVal cs = some n) : ∀ c ∈ cs, c ≠ ':' := by
  rintro c hc rfl
  unfold digitsVal at h
  split at h
  · rename_i hall
    exact absurd (List.all_eq_true.1 hall _ hc) (by decide)
  · cases h

/-- Hours and minutes between the colons of a time are read as they are. -/
theorem hoursMinutes_of_digits {s : String} {t : TimeOfDay} {hs ms : List Char} (hhs : hs ≠ []) (hms : ms ≠ [])
    (hs' : s.toList = hs ++ ':' :: ms)
    (h : (match digitsVal hs, digitsVal ms with
      | some h, some m => if h < 24 ∧ m < 60 then some ⟨h, m⟩ else none
      | _, _ => none) = some t) : hoursMinutes s = some ((t.h : ℤ), (t.m : ℤ)) := by
  split at h
  · rename_i hv mv hhv hmv
    split at h
    · obtain rfl := Option.some.inj h
      have hsplit : s.toList.splitOn ':' = [hs, ms] := by
        rw [hs', List.splitOn_append_cons_self_of_not_mem fun hc => not_colon_of_digits hhv _ hc rfl,
          List.splitOn_eq_singleton fun hc => not_colon_of_digits hmv _ hc rfl]
      unfold hoursMinutes
      rw [hsplit]
      dsimp only
      rw [parseInt_digits hhv hhs, parseInt_digits hmv hms]
      rfl
    · cases h
  · cases h

/-- A time of day the service reads, the form reads alike. -/
theorem hoursMinutes_of_parse {s : String} {t : TimeOfDay} (h : TimeOfDay.parse s = some t) :
    hoursMinutes s = some ((t.h : ℤ), (t.m : ℤ)) := by
  unfold TimeOfDay.parse at h
  dsimp only at h
  split at h
  · rename_i a m n heq
    have hms : [m, n] ≠ [] := by simp
    exact hoursMinutes_of_digits (List.cons_ne_nil a []) hms heq h
  · rename_i g a m n heq
    have hms : [m, n] ≠ [] := by simp
    exact hoursMinutes_of_digits (List.cons_ne_nil g [a]) hms heq h
  · cases h

/-- The length of the visit, where the service takes it. -/
theorem slotLengthMinutes_of_slot {input : CreateBookingInput} {slot : TimeOfDay × TimeOfDay × ℤ} (h : input.slot = .ok slot) :
    slotLengthMinutes input.timeFrom input.timeTo = some slot.2.2 ∧ 0 < slot.2.2 := by
  unfold CreateBookingInput.slot parseTimeOfDay at h
  cases hf : TimeOfDay.parse input.timeFrom with
  | none =>
    rw [hf] at h
    cases h
  | some f =>
    cases ht : TimeOfDay.parse input.timeTo with
    | none =>
      rw [hf, ht] at h
      cases h
    | some t =>
      rw [hf, ht] at h
      dsimp only at h
      unfold TimeOfDay.minutesUntil TimeOfDay.minutesSinceStart at h
      unfold slotLengthMinutes
      rw [hoursMinutes_of_parse hf, hoursMinutes_of_parse ht]
      dsimp only at h ⊢
      split at h
      · cases h
      · rename_i minutes hm
        split at hm
        · cases hm
        · obtain rfl := Option.some.inj hm
          split at h
          · cases h
          · split at h
            · cases h
            · obtain rfl := Except.ok.inj h
              rw [if_pos (by omega)]
              exact ⟨rfl, by dsimp only; omega⟩

/-! ## What is charged -/

/-- The draft a request makes has the price of its services and hours. -/
theorem CreateBookingInput.draft_price {input : CreateBookingInput} {v : VenueResponse} {slot : TimeOfDay × TimeOfDay × ℤ}
    {draft : Booking} (h : input.draft v slot = .ok draft) : ∃ date, Date.parse input.date = some date ∧
    computeBookingTotalPriceMulti v (normalizeBookingServiceIDs input.serviceIDs input.serviceID)
      (normalizeBookingHallIDs input.hallIDs) slot.2.2 date.isWeekendDay = .ok draft.totalPrice := by
  unfold CreateBookingInput.draft at h
  dsimp only at h
  split at h
  · cases h
  · split at h
    · cases h
    · rename_i date hdate
      split at h
      · cases h
      · rename_i price hprice
        obtain rfl := Except.ok.inj h
        exact ⟨date, hdate, hprice⟩

namespace VenueBookingForm

variable {form : VenueBookingForm} {v : VenueResponse} {today : Date} {userID venueID venueName : String}
  {input : CreateBookingInput}

/-- What the hours cost in the form, where the service takes the slot. -/
theorem hourly_getD (hv : v.Keyed) (hkeys : ∀ id ∈ form.selectedHallIds, isUUID id = true) (hvalid : form.slotValid = true)
    {minutes : ℤ} (hlen : slotLengthMinutes form.time form.timeTo = some minutes) :
    (form.hourly v).getD 0 =
      max 0 (effectiveHourlyPriceFromVenueAndHalls v form.selectedHallIds form.date.isWeekendDay) * ((minutes + 59) / 60) := by
  unfold hourly
  rw [← effectiveHourlyRateRub_eq hv _ hkeys, hlen]
  by_cases hbase : 0 < effectiveHourlyRateRub v form.selectedHallIds form.date.isWeekendDay
  · simp only [hbase, hvalid, and_self, if_true, Option.map_some, Option.getD_some]
  · have hzero : effectiveHourlyRateRub v form.selectedHallIds form.date.isWeekendDay = 0 := by
      have := effectiveHourlyRateRub_eq hv form.date.isWeekendDay hkeys
      omega
    simp [hzero]

/-- **The price of the draft is the price that is shown, as a number of 64 bits.** -/
theorem price_of_draft (hv : v.Keyed) (hf : form.Valid v) (hin : form.handleBook today userID venueID venueName = some input)
    {slot : TimeOfDay × TimeOfDay × ℤ} (hslot : input.slot = .ok slot) {draft : Booking} (hd : input.draft v slot = .ok draft) {r : ℤ}
    (hr : form.priceHint v = some r) : 0 < r ∧ draft.totalPrice = int64 r := by
  unfold handleBook at hin
  simp only [Option.ite_none_right_eq_some, Option.some.injEq] at hin
  obtain ⟨⟨-, hvalid, -, -⟩, rfl⟩ := hin
  have hkeys : ∀ id ∈ form.selectedServiceIds, isUUID id = true := by
    intro id hid
    obtain ⟨s, hs, rfl⟩ := hf.services id hid
    exact hv.services s hs
  have hhalls : ∀ id ∈ form.selectedHallIds, isUUID id = true := by
    intro id hid
    obtain ⟨h, hh, rfl⟩ := hf.halls id hid
    exact hv.halls h hh
  obtain ⟨hlen, hpos⟩ := slotLengthMinutes_of_slot hslot
  obtain ⟨date, hdate, hprice⟩ := CreateBookingInput.draft_price hd
  obtain rfl := Option.some.inj (hdate.symm.trans (Date.parse_string hf.date))
  have hservices : normalizeBookingServiceIDs form.selectedServiceIds "" = form.selectedServiceIds := by
    unfold normalizeBookingServiceIDs
    rw [normalizeIDs_keys hkeys hf.servicesOnce]
    split
    · rename_i hnil
      rw [hnil]
      decide +kernel
    · rfl
  have hours := hourly_getD hv hhalls hvalid hlen
  have hhourly := hourlyTotal_eq (effectiveHourlyPriceFromVenueAndHalls v form.selectedHallIds form.date.isWeekendDay) hpos
  rw [← hours] at hhourly
  dsimp only at hprice
  rw [hservices, normalizeBookingHallIDs, normalizeIDs_keys hhalls hf.hallsOnce] at hprice
  unfold computeBookingTotalPriceMulti at hprice
  dsimp only at hprice
  rw [hhourly] at hprice
  unfold priceHint at hr
  by_cases hnone : form.selectedServiceIds.isEmpty = true
  · rw [if_pos hnone] at hprice hr
    rw [hr, Option.getD_some] at hprice
    refine ⟨?_, (Except.ok.inj hprice).symm⟩
    unfold hourly at hr
    rw [hlen] at hr
    simp only [Option.ite_none_right_eq_some, Option.map_some, Option.some.injEq] at hr
    obtain ⟨⟨hbase, -⟩, rfl⟩ := hr
    exact Int.mul_pos hbase (by omega)
  · rw [if_neg hnone] at hprice hr
    split at hprice
    · cases hprice
    · rename_i sum hourlyParts hsum
      split at hprice
      · cases hprice
      · rename_i hparts
        obtain rfl := Except.ok.inj hprice
        have hzero : (0 : ℤ) = int64 (0 + (0 : ℕ) * int64 ((form.hourly v).getD 0)) := by simp; decide
        obtain ⟨hslots, htotal⟩ := sumPriced_eq hkeys hsum hzero
        dsimp only at hr
        rw [hslots, if_neg hparts] at hr
        rw [htotal]
        by_cases hone : hourlyParts = 1
        · rw [if_pos hone] at hr
          simp only [Option.ite_none_right_eq_some, Option.some.injEq] at hr
          obtain ⟨hpos, rfl⟩ := hr
          refine ⟨hpos, ?_⟩
          rw [hone, Int.natCast_one, Int.one_mul, int64_add_int64]
        · rw [if_neg hone] at hr
          simp only [Option.ite_none_right_eq_some, Option.some.injEq] at hr
          obtain ⟨hpos, rfl⟩ := hr
          refine ⟨hpos, ?_⟩
          have hzero : hourlyParts = 0 := by omega
          rw [hzero, Int.natCast_zero, Int.zero_mul, Int.add_zero]

end VenueBookingForm

/-! ### In a run -/

abbrev BookHistory := List (Event BookOp BookOp.Res)

/-- What is behind the payment of a booking: the answer on the venue, the draft it has made, and the row of the draft. -/
def Charged : BookCall → BookHistory → BookOp → Prop
  | .createBooking input, h, .createPayment req => ∃ v slot draft b, input.slot = .ok slot ∧ input.draft v slot = .ok draft ∧
      (∀ id (r : Except Err (Option VenueResponse)), (⟨.getVenue id, r⟩ : Event BookOp BookOp.Res) ∈ h → r = .ok (some v)) ∧
      (⟨.create draft, .ok b⟩ : Event BookOp BookOp.Res) ∈ h ∧ req.amount = b.totalPrice
  | _, _, _ => True

theorem BookingUseCase.storeBooking_charged (uc : BookingUseCase) {input : CreateBookingInput} {v : VenueResponse}
    {slot : TimeOfDay × TimeOfDay × ℤ} {draft : Booking} (req : String → ReserveSlotRequest) (hslot : input.slot = .ok slot)
    (hdraft : input.draft v slot = .ok draft) {h : BookHistory}
    (hseen : ∀ id (r : Except Err (Option VenueResponse)), (⟨.getVenue id, r⟩ : Event BookOp BookOp.Res) ∈ h → r = .ok (some v)) :
    (uc.storeBooking draft req).After (Charged (.createBooking input)) h := by
  have hundo : ∀ b err h', (undoBooking b err).After (Charged (.createBooking input)) h' :=
    fun b err h' => ⟨trivial, fun _ => ⟨trivial, fun _ => trivial⟩⟩
  refine ⟨trivial, fun created => ?_⟩
  cases created with
  | error err => trivial
  | ok b =>
    refine ⟨trivial, fun reserved => ?_⟩
    cases reserved with
    | error err => exact ⟨trivial, fun _ => trivial⟩
    | ok _ =>
      refine ⟨⟨v, slot, draft, b, hslot, hdraft, fun id r hmem => hseen id r ?_, by simp, rfl⟩, fun paid => ?_⟩
      · simpa using hmem
      · cases paid with
        | error err => exact hundo b _ _
        | ok pay =>
          refine ⟨trivial, fun finished => ?_⟩
          cases finished with
          | error err => exact hundo _ _ _
          | ok _ => trivial

theorem BookCall.prog_charged (uc : BookingUseCase) (c : BookCall) : (BookCall.prog uc c).After (Charged c) [] := by
  cases c with
  | createBooking input =>
    have hret : ∀ (h : BookHistory) (a : Except Err Booking),
        (Prog.ret (Except.err? a) : BookProg (Option Err)).After (Charged (.createBooking input)) h := fun _ _ => trivial
    refine Prog.After.bind hret ?_
    unfold BookingUseCase.createBooking
    cases hslot : input.slot with
    | error err => trivial
    | ok slot =>
      refine ⟨trivial, fun answer => ?_⟩
      rcases answer with err | _ | v
      · trivial
      · trivial
      · simp only [Prog.bind]
        cases hdraft : input.draft v slot with
        | error err => trivial
        | ok draft =>
          refine ⟨trivial, fun free => ?_⟩
          rcases free with err | _ | _
          · trivial
          · trivial
          · refine ⟨trivial, fun now => ?_⟩
            simp only [Prog.bind]
            split
            · trivial
            · exact uc.storeBooking_charged _ hslot hdraft fun id r hmem => by
                have hboth : id = input.venueID ∧ r = .ok (some v) := by simpa using hmem
                exact hboth.2
  | _ => exact (Prog.All.of_forall (fun _ _ => trivial) _).after

/-- A row that is stored has the price of its draft. -/
theorem BookOp.Exec.price {loc : Location} {draft b : Booking} {db db' : BookingDB}
    (h : BookOp.Exec loc (.create draft) db (.ok b) db') : b.totalPrice = draft.totalPrice := by
  obtain ⟨env, -, hrun⟩ := h
  have hcreate := Fault.of_ok hrun
  unfold BookingRepo.create at hcreate
  dsimp only at hcreate
  split at hcreate
  · cases hcreate
  · obtain rfl := Except.ok.inj (Prod.mk.inj hcreate).1
    rfl

/-- **The price that is shown in roubles is charged as that number of kopecks**, and so never right. -/
theorem charged_price {uc : BookingUseCase} {w₀ : BookingDB} {tr : List BookMoment} {c : BookConfig} {form : VenueBookingForm}
    {v : VenueResponse} {today : Date} {userID venueID venueName : String} {input : CreateBookingInput} {r : ℤ} (hv : v.Keyed)
    (hf : form.Valid v) (hin : form.handleBook today userID venueID venueName = some input) (hr : form.priceHint v = some r)
    (h : (bookSys uc).Trace w₀ tr c) : ∀ m ∈ tr, m.thread.call = .createBooking input →
      (⟨.getVenue venueID, .ok (some v)⟩ : Event BookOp BookOp.Res) ∈ m.thread.did → ∀ req, m.op = .createPayment req →
      req.amount = int64 r ∧ req.amount ≠ 100 * r := by
  intro m hm hcall hseen req hop
  have hprior := h.prior (BookCall.prog_charged uc) m hm
  rw [hcall, hop] at hprior
  obtain ⟨v', slot, draft, b, hslot, hdraft, honly, hcreated, hamount⟩ := hprior
  obtain rfl := Option.some.inj (Except.ok.inj (honly venueID _ hseen))
  obtain ⟨tr₁, tr₂, htr⟩ := List.append_of_mem hm
  obtain ⟨ts₁, ts₂, k, hts, -⟩ := (h.steps m hm).thread
  obtain ⟨m', -, -, -, -, hexec⟩ := (h.before htr).performing (t := m.thread) (by rw [hts]; simp) hcreated
  obtain ⟨hpos, hprice⟩ := VenueBookingForm.price_of_draft hv hf hin hslot hdraft hr
  have hwhole : req.amount = int64 r := by rw [hamount, BookOp.Exec.price hexec, hprice]
  refine ⟨hwhole, ?_⟩
  rw [hwhole]
  exact int64_ne_hundred hpos

/-! ## A visit of two hours -/

/-- An hour at 2500. -/
def pricedVenue : VenueResponse := ⟨2500, 0, [], []⟩

def eveningForm : VenueBookingForm := ⟨⟨2025, 6, 2⟩, "18:00", "20:00", [], [], 2⟩

def eveningInput : CreateBookingInput where
  userID := sampleBooking.userID
  venueID := sampleBooking.venueID
  venueName := "Баня"
  serviceID := ""
  serviceIDs := []
  hallIDs := []
  date := "2025-06-02"
  timeFrom := "18:00"
  timeTo := "20:00"
  guests := 2
  comment := ""

def eveningEnv : BookEnv :=
  { sampleBookEnv with
    getVenue := .ok (some pricedVenue), createPayment := .ok ⟨"00000000-0000-0000-0000-0000000000c1", "https://pay.example"⟩ }

theorem eveningForm_valid : eveningForm.Valid pricedVenue :=
  ⟨by decide, by simp [eveningForm], by simp [eveningForm], by decide, by decide⟩

theorem pricedVenue_keyed : pricedVenue.Keyed := ⟨by simp [pricedVenue], by simp [pricedVenue], by decide⟩

theorem eveningForm_shows : eveningForm.priceHint pricedVenue = some 5000 := by decide +kernel

theorem eveningForm_books :
    eveningForm.handleBook ⟨2025, 6, 1⟩ sampleBooking.userID sampleBooking.venueID "Баня" = some eveningInput := by decide +kernel

/-- A moment of the evening's booking that asks for a payment of an amount. -/
def asksFor (amount : ℤ) (m : BookMoment) : Bool :=
  decide (m.thread.call = .createBooking eveningInput) &&
    (m.thread.did.any fun
      | ⟨.getVenue id, .ok (some v)⟩ => id == sampleBooking.venueID && v == pricedVenue
      | _ => false) &&
    match m.op with
    | .createPayment req => req.amount == amount
    | _ => false

theorem asksFor_parts {amount : ℤ} {m : BookMoment} (h : asksFor amount m = true) : m.thread.call = .createBooking eveningInput ∧
    (⟨.getVenue sampleBooking.venueID, .ok (some pricedVenue)⟩ : Event BookOp BookOp.Res) ∈ m.thread.did ∧
    ∃ req, m.op = .createPayment req ∧ req.amount = amount := by
  unfold asksFor at h
  simp only [Bool.and_eq_true, decide_eq_true_eq, List.any_eq_true] at h
  obtain ⟨⟨hcall, e, he, hseen⟩, hop⟩ := h
  refine ⟨hcall, ?_, ?_⟩
  · split at hseen
    · simp only [Bool.and_eq_true, beq_iff_eq] at hseen
      obtain ⟨rfl, rfl⟩ := hseen
      exact he
    · cases hseen
  · split at hop
    · rename_i req hreq
      exact ⟨req, hreq, beq_iff_eq.1 hop⟩
    · cases hop

/-- An operation in an environment, whose key is a new one. -/
def playedOp (env : BookEnv) (o : BookOp) (w : BookingDB) : Option (o.Res × BookingDB) :=
  if env.newID ∈ w.issued then none else some (o.run sampleLocation env w)

/-- The evening is booked: its payment is asked for. -/
theorem evening_trace : ∃ tr c, (bookSys sampleBookings).Trace ⟨Table.empty _, [], []⟩ tr c ∧ ∃ m ∈ tr, asksFor 5000 m = true := by
  have hex : ∀ env o w r w', playedOp env o w = some (r, w') → (bookSys sampleBookings).exec o w r w' := by
    intro env o w r w' hrun
    unfold playedOp at hrun
    split at hrun
    · cases hrun
    · rename_i hnew
      exact ⟨env, hnew, Option.some.inj hrun⟩
  obtain ⟨tr, c, h, hQ⟩ := Sys.Trace.played_to (fun _ _ => trivial) hex
    [.start (.createBooking eveningInput), .step 0 eveningEnv, .step 0 eveningEnv, .step 0 eveningEnv, .step 0 eveningEnv,
      .step 0 { eveningEnv with newID := "00000000-0000-0000-0000-0000000000f2" },
      .step 0 { eveningEnv with newID := "00000000-0000-0000-0000-0000000000f2" }]
    (Q := fun p => p.1.any (asksFor 5000)) (by decide +kernel : (Conc.play _ playedOp _ ⟨⟨Table.empty _, [], []⟩, []⟩).any _ = true)
  exact ⟨tr, c, h, List.any_eq_true.1 hQ⟩

theorem charged_price_evening : ∃ tr c, (bookSys sampleBookings).Trace ⟨Table.empty _, [], []⟩ tr c ∧
    ∃ m ∈ tr, ∃ req, m.op = .createPayment req ∧ req.amount = int64 5000 ∧ req.amount ≠ 100 * 5000 := by
  obtain ⟨tr, c, h, m, hm, hasks⟩ := evening_trace
  obtain ⟨hcall, hseen, req, hop, -⟩ := asksFor_parts hasks
  exact ⟨tr, c, h, m, hm, req, hop,
    charged_price pricedVenue_keyed eveningForm_valid eveningForm_books eveningForm_shows h m hm hcall hseen req hop⟩

/-- Five thousand roubles are shown, and five thousand kopecks are charged. -/
theorem hundredth_charged : ¬ ∀ (uc : BookingUseCase) (w₀ : BookingDB) (tr : List BookMoment) (c : BookConfig)
    (form : VenueBookingForm) (v : VenueResponse) (today : Date) (userID venueID venueName : String) (input : CreateBookingInput) (r : ℤ),
    v.Keyed → form.Valid v → form.handleBook today userID venueID venueName = some input → form.priceHint v = some r →
    (bookSys uc).Trace w₀ tr c → ∀ m ∈ tr, m.thread.call = .createBooking input →
      (⟨.getVenue venueID, .ok (some v)⟩ : Event BookOp BookOp.Res) ∈ m.thread.did → ∀ req, m.op = .createPayment req →
      req.amount = 100 * r := by
  intro hall
  obtain ⟨tr, c, h, m, hm, hasks⟩ := evening_trace
  obtain ⟨hcall, hseen, req, hop, hamount⟩ := asksFor_parts hasks
  have := hall _ _ tr c _ _ _ _ _ _ _ _ pricedVenue_keyed eveningForm_valid eveningForm_books eveningForm_shows h m hm hcall hseen
    req hop
  omega

end Agregator
