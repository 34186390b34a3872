import Agregator.BookAtomic
import Agregator.BookPages
import Agregator.BookPrice
import Agregator.Gateway
import Agregator.VenueCalls
import Agregator.VenueCheck
/-!
# SlotOffers — the start times that are offered and those that can be booked

The gateway lists the start times of a day whose slots are free, by a query over all of them, and a booking takes its own way:
it reads its times, asks for its slot alone and reserves it.  What is offered can be booked unless its end is past midnight, or
no hall is chosen where one has to be, or a hall is held by another venue (`offered_iff_booked`, `late_start_offered`).
-/
namespace Agregator

open Rel Conc

/-! ## The venue service -/

namespace VenueServer

/-- The halls of a request: none where the whole venue is booked. -/
def effectiveHalls (venueID : String) (hallIDs : List String) (requireHall : Bool) (db : VenueDB) :
    Except VenueErr (List String) :=
  match VenueRepo.bookingMode venueID db with
  | .error e => .error e
  | .ok .whole => .ok []
  | .ok .perHall =>
    if requireHall = true ∧ hallIDs = [] ∧ VenueRepo.hallIDs venueID db ≠ [] then
      .error (.other (invalidArgument "в этом заведении нужно выбрать зал для брони"))
    else .ok hallIDs

def checkSlotAvailability (text : TextRules) (req : ReserveSlotRequest) (db : VenueDB) : Except Err Bool :=
  if isUUID req.venueID = false then .error (invalidArgument "invalid venue_id")
  else if req.hallIDs.all isUUID = false then .error (invalidArgument "invalid hall_id")
  else
    match effectiveHalls req.venueID req.hallIDs false db with
    | .error _ => .error internalErr
    | .ok halls =>
      match VenueRepo.checkSlot text req.venueID halls req.date req.timeFrom req.timeTo db with
      | .error _ => .error internalErr
      | .ok available => .ok available

def batchCheckSlotAvailability (text : TextRules) (venueID date : String) (slots : List (String × String)) (hallIDs : List String)
    (db : VenueDB) : Except Err (List Bool) :=
  if isUUID venueID = false then .error (invalidArgument "invalid venue_id")
  else if slots = [] then .ok []
  else if 100 < slots.length then .error (invalidArgument "too many slots: max 100 per request")
  else if hallIDs.all isUUID = false then .error (invalidArgument "invalid hall_id")
  else
    match effectiveHalls venueID hallIDs false db with
    | .error _ => .error internalErr
    | .ok halls =>
      match VenueRepo.batchCheckSlots text venueID halls date slots db with
      | .error _ => .error internalErr
      | .ok available => .ok available

end VenueServer

/-! ## The gateway -/

/-- Minutes since midnight as `HH:MM`. -/
def clock (min : ℕ) : String := TimeOfDay.string ⟨min / 60, min % 60⟩

/-- `time_from` and so many minutes. -/
def slotEndFromDuration (timeFrom : String) (durationMin : ℤ) : String :=
  match TimeOfDay.parse timeFrom with
  | none => timeFrom
  | some t => clock ((t.minutesSinceStart + durationMin) % (24 * 60)).toNat

/-- Every half an hour from ten in the morning to ten at night. -/
def candidateStarts : List ℕ :=
  let firstMin := 10 * 60
  let lastMin := 22 * 60
  let step := 30
  (List.range ((lastMin - firstMin) / step + 1)).map fun i => firstMin + i * step

def bookingCandidateStartTimes : List String := candidateStarts.map clock

def venueDraftVisibleToViewer (status : VenueStatus) (ownerID viewerUserID viewerRole : String) : Bool :=
  if status ≠ .draft then true
  else if viewerUserID ≠ "" ∧ viewerUserID = ownerID then true
  else viewerRole == "admin"

namespace Entry

def requestMissingDate : Entry := ⟨400, "GATEWAY.REQUEST.MISSING_DATE", "Укажите дату в формате YYYY-MM-DD"⟩

def venueNotFound : Entry := ⟨404, "GATEWAY.VENUE.NOT_FOUND", "Заведение не найдено"⟩

end Entry

/-- The parameters of a listing. -/
structure AvailabilityQuery where
  date : String
  durationMin : String
  hallIDs : List String

/-- The start times of a venue, which `GetVenueBySlug` has found, to a viewer. -/
def availabilityBySlug (text : TextRules) (bySlug : Except Err Venue) (viewer role : String) (q : AvailabilityQuery) (db : VenueDB) :
    Except Entry (List String) :=
  if q.date = "" then .error Entry.requestMissingDate
  else
    match queryInt "duration_min" q.durationMin 120 30 720 with
    | .error e => .error e
    | .ok durationMin =>
      match bySlug with
      | .error e => .error e.toHTTP
      | .ok v =>
        if venueDraftVisibleToViewer v.status v.ownerID viewer role = false then .error Entry.venueNotFound
        else
          let starts := bookingCandidateStartTimes
          let batchSlots := starts.map fun start => (start, slotEndFromDuration start durationMin)
          match VenueServer.batchCheckSlotAvailability text v.id q.date batchSlots q.hallIDs db with
          | .error e => .error e.toHTTP
          | .ok avail => .ok ((starts.zipIdx.filter fun (_, i) => avail.getD i false).map Prod.fst)

/-! ## The booking -/

/-- An operation of a booking where the venue service answers from its database, without a fault of the network. -/
def SlotWorld.answer (loc : Location) (text : TextRules) (env : SlotEnv) : (o : BookOp) → SlotWorld → o.Res × SlotWorld
  | .checkSlotAvailability req, w => (VenueServer.checkSlotAvailability text req w.venue, w)
  | .reserveSlot req, w =>
    let halls := (VenueServer.effectiveHalls req.venueID req.hallIDs true w.venue).mapError VenueErr.err
    SlotWorld.run loc text { env with request := .none, halls := halls } (.reserveSlot req) w
  | o, w => SlotWorld.run loc text env o w

/-- The booking that a query and a start time ask for. -/
structure AvailabilityQuery.Books (q : AvailabilityQuery) (v : Venue) (durationMin : ℤ) (start : ℕ) (input : CreateBookingInput) : Prop where
  venueID : input.venueID = v.id
  hallIDs : input.hallIDs = q.hallIDs
  date : input.date = q.date
  timeFrom : input.timeFrom = clock start
  timeTo : input.timeTo = slotEndFromDuration (clock start) durationMin

/-- The slot is reserved. -/
def SlotReserved : PerformedCall → Prop
  | ⟨_, .reserveSlot _, .ok _, _⟩ => True
  | _ => False

/-- The row of the booking is not inserted. -/
def RowRefused : PerformedCall → Prop
  | ⟨_, .create _, .error _, _⟩ => True
  | _ => False

/-! ## Clock times -/

section Clock

theorem clock_valid {min : ℕ} (h : min < 24 * 60) : (⟨min / 60, min % 60⟩ : TimeOfDay).Valid := by
  constructor
  · show min / 60 < 24
    omega
  · exact Nat.mod_lt _ (by decide)

theorem parse_clock {min : ℕ} (h : min < 24 * 60) : TimeOfDay.parse (clock min) = some ⟨min / 60, min % 60⟩ :=
  TimeOfDay.parse_string (clock_valid h)

theorem clock_inj {a b : ℕ} (ha : a < 24 * 60) (hb : b < 24 * 60) (h : clock a = clock b) : a = b := by
  have hparse := parse_clock ha
  rw [h, parse_clock hb] at hparse
  simp only [Option.some.injEq, TimeOfDay.mk.injEq] at hparse
  omega

theorem slotEndFromDuration_clock {start durationMin : ℕ} (h : start < 24 * 60) :
    slotEndFromDuration (clock start) durationMin = clock ((start + durationMin) % (24 * 60)) := by
  unfold slotEndFromDuration
  rw [parse_clock h]
  dsimp only [TimeOfDay.minutesSinceStart]
  congr 1
  omega

theorem candidateStarts_range : ∀ start ∈ candidateStarts, 600 ≤ start ∧ start ≤ 1320 := by
  decide

theorem minutesUntil_clock (a b : ℕ) : (⟨a / 60, a % 60⟩ : TimeOfDay).minutesUntil ⟨b / 60, b % 60⟩ =
    if b ≤ a then none else some ((b : ℤ) - a) := by
  have hminutes : ∀ n : ℕ, (⟨n / 60, n % 60⟩ : TimeOfDay).minutesSinceStart = n := by
    intro n
    dsimp only [TimeOfDay.minutesSinceStart]
    omega
  unfold TimeOfDay.minutesUntil
  rw [hminutes, hminutes]
  by_cases h : b ≤ a
  · rw [if_pos h, if_pos (by omega)]
  · rw [if_neg h, if_neg (by omega)]

/-- **An end past midnight is none**: the times of a booking are in order as long as it ends on its day. -/
theorem slot_clock {input : CreateBookingInput} {start durationMin : ℕ} (hstart : 600 ≤ start ∧ start ≤ 1320)
    (hdur : 30 ≤ durationMin ∧ durationMin ≤ 720) (hfrom : input.timeFrom = clock start)
    (hto : input.timeTo = slotEndFromDuration (clock start) durationMin) :
    (start + durationMin < 24 * 60 → ∃ timeFrom timeTo, input.slot = .ok (timeFrom, timeTo, durationMin)) ∧
    (¬ start + durationMin < 24 * 60 → ∃ e, input.slot = .error e) := by
  have hlt : (start + durationMin) % (24 * 60) < 24 * 60 := Nat.mod_lt _ (by decide)
  rw [slotEndFromDuration_clock (by omega)] at hto
  unfold CreateBookingInput.slot parseTimeOfDay
  rw [hfrom, hto, parse_clock (by omega), parse_clock hlt]
  dsimp only
  rw [minutesUntil_clock]
  constructor
  · intro hday
    rw [Nat.mod_eq_of_lt hday, if_neg (by omega)]
    dsimp only
    rw [if_neg (by omega), if_neg (by omega)]
    refine ⟨_, _, congrArg Except.ok (congrArg (Prod.mk _) (congrArg (Prod.mk _) ?_))⟩
    omega
  · intro hday
    rw [if_pos (by omega)]
    exact ⟨_, rfl⟩

/-- How the database reads a time that the services write. -/
structure TextRules.ReadsTimes (text : TextRules) : Prop where
  time : ∀ t : TimeOfDay, t.Valid → text.time t.string = some ((t.h * 60 + t.m) * 60000000)

theorem TextRules.ReadsTimes.clock {text : TextRules} (h : text.ReadsTimes) {min : ℕ} (hmin : min < 24 * 60) :
    text.time (clock min) = some (min * 60000000) := by
  have hread := h.time _ (clock_valid hmin)
  dsimp only at hread
  rwa [show min / 60 * 60 + min % 60 = min by omega] at hread

end Clock

/-! ## The halls -/

/-- Keys come out of their normalisation once each. -/
theorem normalizeIDs_mem {ids : List String} (hkeys : ∀ id ∈ ids, isUUID id = true) :
    (normalizeIDs ids).Nodup ∧ ∀ x, x ∈ normalizeIDs ids ↔ x ∈ ids := by
  have hfold : ∀ (rest out : List String), (∀ id ∈ rest, isUUID id = true) → out.Nodup →
      (rest.foldl (fun out raw => if trimSpace raw == "" || out.contains (trimSpace raw) then out else out ++ [trimSpace raw])
        out).Nodup ∧ ∀ x, x ∈ rest.foldl (fun out raw =>
          if trimSpace raw == "" || out.contains (trimSpace raw) then out else out ++ [trimSpace raw]) out ↔ x ∈ out ∨ x ∈ rest := by
    intro rest
    induction rest with
    | nil => exact fun out _ hout => ⟨hout, fun x => by simp⟩
    | cons id rest ih =>
      intro out hk hout
      have hid := hk id List.mem_cons_self
      have hne : id ≠ "" := by
        rintro rfl
        revert hid
        decide
      have hrest : ∀ x ∈ rest, isUUID x = true := fun x hx => hk x (List.mem_cons_of_mem _ hx)
      rw [List.foldl_cons, trimSpace_of_isUUID hid]
      by_cases hmem : id ∈ out
      · rw [if_pos (by simp [hmem])]
        obtain ⟨hnodup, hiff⟩ := ih out hrest hout
        refine ⟨hnodup, fun x => ?_⟩
        rw [hiff, List.mem_cons]
        constructor
        · exact Or.imp_right .inr
        · rintro (h | rfl | h)
          · exact .inl h
          · exact .inl hmem
          · exact .inr h
      · rw [if_neg (by simp [hne, hmem])]
        have hout' : (out ++ [id]).Nodup := by
          rw [List.nodup_append]
          refine ⟨hout, List.nodup_singleton _, fun a ha b hb hab => ?_⟩
          rw [hab, List.mem_singleton.1 hb] at ha
          exact hmem ha
        obtain ⟨hnodup, hiff⟩ := ih (out ++ [id]) hrest hout'
        refine ⟨hnodup, fun x => ?_⟩
        rw [hiff, List.mem_append, List.mem_singleton, List.mem_cons, or_assoc]
  obtain ⟨hnodup, hiff⟩ := hfold ids [] hkeys List.nodup_nil
  exact ⟨hnodup, fun x => (hiff x).trans (by simp)⟩

/-! ## The slot -/

section Slot

open VenueRepo

variable {text : TextRules} {v : Venue} {db : VenueDB} {hallIDs halls : List String} {date : String} {d : PgDate} {tf tt : PgTime}

/-- A row of the venue that is in the way of an interval. -/
def InTheWay (venueID : String) (keys : List String) (d : PgDate) (tf tt : PgTime) (s : ReservedSlot) : Prop :=
  s.venueID = venueID ∧ s.date = d ∧ s.key ∈ keys ∧ s.timeFrom < tt ∧ tf < s.timeTo

/-- A row of another venue that holds a resource. -/
def HeldElsewhere (venueID : String) (keys : List String) (d : PgDate) (tf tt : PgTime) (s : ReservedSlot) : Prop :=
  s.venueID ≠ venueID ∧ s.date = d ∧ s.key ∈ keys ∧ s.timeFrom < s.timeTo ∧ s.timeFrom < tt ∧ tf < s.timeTo

/-- The halls a request is about. -/
def Venue.effectiveHalls (v : Venue) (hallIDs : List String) : List String := if v.bookingMode = .perHall then hallIDs else []

/-- A venue where a hall has to be chosen, and none is. -/
def Venue.HallMissing (v : Venue) (hallIDs : List String) (db : VenueDB) : Prop :=
  v.bookingMode = .perHall ∧ hallIDs = [] ∧ VenueRepo.hallIDs v.id db ≠ []

theorem slotFree_iff {venueID : String} : slotFree venueID halls d db tf tt = true ↔
    ∀ s ∈ db.reserved.rows, ¬ InTheWay venueID (reservationKeys venueID halls) d tf tt s := by
  unfold slotFree
  rw [decide_eq_true_iff]
  refine forall₂_congr fun s _ => ?_
  rw [← Bool.not_eq_true]
  unfold batchOn InTheWay
  simp only [Bool.and_eq_true, beq_iff_eq, List.contains_iff_mem, decide_eq_true_iff, and_assoc]

theorem isUUID_venue (hv : db.venue v.id = some v) : isUUID v.id = true := by
  have hcheck := db.venues.checked v (List.mem_of_find?_eq_some hv)
  simp only [venueSchema, Bool.and_eq_true] at hcheck
  exact hcheck.1

theorem bookingMode_venue (hv : db.venue v.id = some v) : bookingMode v.id db = .ok v.bookingMode := by
  unfold bookingMode
  rw [hv]

theorem effectiveHalls_check (hv : db.venue v.id = some v) :
    VenueServer.effectiveHalls v.id hallIDs false db = .ok (v.effectiveHalls hallIDs) := by
  unfold VenueServer.effectiveHalls Venue.effectiveHalls
  rw [bookingMode_venue hv]
  cases v.bookingMode with
  | whole => rfl
  | perHall => rfl

theorem effectiveHalls_reserve (hv : db.venue v.id = some v) (hallIDs : List String) :
    (¬ v.HallMissing hallIDs db → VenueServer.effectiveHalls v.id hallIDs true db = .ok (v.effectiveHalls hallIDs)) ∧
    (v.HallMissing hallIDs db → ∃ e, VenueServer.effectiveHalls v.id hallIDs true db = .error e) := by
  unfold VenueServer.effectiveHalls Venue.effectiveHalls Venue.HallMissing
  rw [bookingMode_venue hv]
  cases v.bookingMode with
  | whole => simp
  | perHall =>
    constructor
    · intro h
      dsimp only
      rw [if_neg (by simpa using h), if_pos rfl]
    · rintro ⟨-, hnil, hsome⟩
      dsimp only
      rw [if_pos ⟨rfl, hnil, hsome⟩]
      exact ⟨_, rfl⟩

/-- The pre-check of a booking, on a date that is read. -/
theorem checkSlotAvailability_iff (req : ReserveSlotRequest) (hv : db.venue v.id = some v) (hvenue : req.venueID = v.id)
    (hkeys : ∀ h ∈ req.hallIDs, isUUID h = true) (hf : text.time req.timeFrom = some tf) (ht : text.time req.timeTo = some tt) :
    VenueServer.checkSlotAvailability text req db = .ok true ↔ ∃ d, text.date req.date = some d ∧
      ∀ s ∈ db.reserved.rows, ¬ InTheWay v.id (reservationKeys v.id (v.effectiveHalls req.hallIDs)) d tf tt s := by
  have hid := isUUID_venue hv
  have hall : req.hallIDs.all isUUID = true := List.all_eq_true.2 hkeys
  unfold VenueServer.checkSlotAvailability
  rw [hvenue, hid, hall, effectiveHalls_check hv]
  simp only [Bool.true_eq_false, if_false]
  cases hd : text.date req.date with
  | none =>
    unfold checkSlot interval
    rw [hd, hf, ht]
    simp
  | some d =>
    rw [checkSlot_eq (interval_ok hd hf ht)]
    simp [slotFree_iff]

/-- **The reservation**, of an interval of some length. -/
theorem reserveSlot_ok_iff (req : ReserveSlotRequest) {newID : ℕ → String} (hv : db.venue v.id = some v) (hvenue : req.venueID = v.id)
    (hbooking : isUUID req.bookingID = true) (hkeys : ∀ h ∈ req.hallIDs, isUUID h = true) (honce : req.hallIDs.Nodup)
    (hd : text.date req.date = some d) (hf : text.time req.timeFrom = some tf) (ht : text.time req.timeTo = some tt) (hlen : tf < tt)
    (hday : tt ≤ fullDay) :
    (VenueServer.reserveSlot text newID ((VenueServer.effectiveHalls req.venueID req.hallIDs true db).mapError VenueErr.err) req db).1 =
        .ok () ↔ ¬ v.HallMissing req.hallIDs db ∧
      ∀ s ∈ db.reserved.rows, s.key ∈ reservationKeys v.id (v.effectiveHalls req.hallIDs) →
        rangesOverlap s.slotTs (d * fullDay + tf, d * fullDay + tt) = false := by
  have hid := isUUID_venue hv
  have hall : req.hallIDs.all isUUID = true := List.all_eq_true.2 hkeys
  obtain ⟨hchosen, hmissing⟩ := effectiveHalls_reserve hv req.hallIDs
  unfold VenueServer.reserveSlot
  rw [hvenue, hid, hbooking, hall]
  simp only [Bool.true_eq_false, if_false]
  by_cases hmiss : v.HallMissing req.hallIDs db
  · obtain ⟨e, he⟩ := hmissing hmiss
    rw [he]
    exact iff_of_false (fun h => by cases h) fun h => h.1 hmiss
  · rw [hchosen hmiss, and_iff_right hmiss]
    dsimp only [Except.mapError]
    have hsub : (v.effectiveHalls req.hallIDs).Nodup ∧ ∀ h ∈ v.effectiveHalls req.hallIDs, isUUID h = true := by
      unfold Venue.effectiveHalls
      split
      · exact ⟨honce, hkeys⟩
      · exact ⟨List.nodup_nil, fun h hh => absurd hh List.not_mem_nil⟩
    have hins : (∃ rows db', insertSlots "reserve slot" text
        (fun d tf tt => slotRows newID v.id (some req.bookingID) (v.effectiveHalls req.hallIDs) d tf tt "") req.date req.timeFrom
          req.timeTo db = (.ok rows, db')) ↔ _ :=
      insertSlots_ok_iff (interval_ok hd hf ht) hid (by simpa using hbooking) hsub.2 hsub.1 hlen.le hday
    rw [← hins]
    unfold VenueRepo.reserveSlot
    constructor
    · intro h
      split at h
      · cases h
      · cases h
      · rename_i heq
        split at heq
        · cases heq
        · rename_i rows db' hins
          exact ⟨rows, db', hins⟩
    · rintro ⟨rows, db', hins⟩
      rw [hins]

end Slot

/-! ## What is offered -/

section Offered

open VenueRepo

variable {text : TextRules} {v : Venue} {db : VenueDB} {viewer role : String} {q : AvailabilityQuery}

/-- The times at whose positions the answer has a mark. -/
theorem mem_marked {α : Type} {l : List α} {g : α → String} {f : α → Bool} {x : String} :
    x ∈ ((l.map g).zipIdx.filter fun (_, i) => (l.map f).getD i false).map Prod.fst ↔ ∃ a ∈ l, f a = true ∧ g a = x := by
  constructor
  · intro h
    obtain ⟨⟨y, i⟩, hmem, rfl⟩ := List.mem_map.1 h
    obtain ⟨hzip, hmark⟩ := List.mem_filter.1 hmem
    have hget := List.mk_mem_zipIdx_iff_getElem?.1 hzip
    rw [List.getElem?_map] at hget
    obtain ⟨a, ha, hga⟩ := Option.map_eq_some_iff.1 hget
    dsimp only at hmark
    rw [List.getD_eq_getElem?_getD, List.getElem?_map, ha] at hmark
    exact ⟨a, List.mem_of_getElem? ha, hmark, hga⟩
  · rintro ⟨a, ha, hmark, rfl⟩
    obtain ⟨i, hi⟩ := List.getElem?_of_mem ha
    refine List.mem_map.2 ⟨(g a, i), List.mem_filter.2 ⟨List.mk_mem_zipIdx_iff_getElem?.2 ?_, ?_⟩, rfl⟩
    · rw [List.getElem?_map, hi]
      rfl
    · dsimp only
      rw [List.getD_eq_getElem?_getD, List.getElem?_map, hi]
      exact hmark

/-- The interval that a start time is offered for, in the database's time. -/
def slotTimes (start durationMin : ℕ) : PgTime × PgTime := (start * 60000000, (start + durationMin) % (24 * 60) * 60000000)

/-- The slot is taken. -/
def Taken (v : Venue) (hallIDs : List String) (day : PgDate) (start durationMin : ℕ) (db : VenueDB) : Prop :=
  ∃ s ∈ db.reserved.rows, InTheWay v.id (reservationKeys v.id (v.effectiveHalls hallIDs)) day
    (slotTimes start durationMin).1 (slotTimes start durationMin).2 s

/-- A start time is offered. -/
def Offered (text : TextRules) (v : Venue) (viewer role : String) (q : AvailabilityQuery) (db : VenueDB) (start : ℕ) : Prop :=
  ∃ starts, availabilityBySlug text (.ok v) viewer role q db = .ok starts ∧ clock start ∈ starts

theorem not_taken_iff {hallIDs : List String} {day : PgDate} {start durationMin : ℕ} : ¬ Taken v hallIDs day start durationMin db ↔
    ∀ s ∈ db.reserved.rows, ¬ InTheWay v.id (reservationKeys v.id (v.effectiveHalls hallIDs)) day
      (slotTimes start durationMin).1 (slotTimes start durationMin).2 s := by
  unfold Taken
  simp only [not_exists, not_and]

/-- **A start time is offered** to a viewer of the venue when no row is in the way. -/
theorem offered_iff (htext : text.ReadsTimes) (hv : db.venue v.id = some v) (hkeys : ∀ h ∈ q.hallIDs, isUUID h = true)
    (hdate : q.date ≠ "") {durationMin : ℕ} (hdur : queryInt "duration_min" q.durationMin 120 30 720 = .ok durationMin) {start : ℕ}
    (hstart : start ∈ candidateStarts) :
    Offered text v viewer role q db start ↔ venueDraftVisibleToViewer v.status v.ownerID viewer role = true ∧
      ∃ day, text.date q.date = some day ∧ ¬ Taken v q.hallIDs day start durationMin db := by
  have hid := isUUID_venue hv
  have hall : q.hallIDs.all isUUID = true := List.all_eq_true.2 hkeys
  unfold Offered availabilityBySlug
  rw [if_neg hdate, hdur]
  dsimp only
  by_cases hvisible : venueDraftVisibleToViewer v.status v.ownerID viewer role = true
  · rw [hvisible, if_neg (by decide)]
    unfold VenueServer.batchCheckSlotAvailability
    have hslots : bookingCandidateStartTimes.map (fun start => (start, slotEndFromDuration start durationMin)) =
        candidateStarts.map fun start => (clock start, clock ((start + durationMin) % (24 * 60))) := by
      unfold bookingCandidateStartTimes
      rw [List.map_map]
      refine List.map_congr_left fun a ha => ?_
      have hrange := candidateStarts_range a ha
      dsimp only [Function.comp_apply]
      rw [slotEndFromDuration_clock (by omega)]
    have hlen : (candidateStarts.map fun start => (clock start, clock ((start + durationMin) % (24 * 60)))).length = 25 := by
      rw [List.length_map]
      rfl
    have hne : candidateStarts.map (fun start => (clock start, clock ((start + durationMin) % (24 * 60)))) ≠ [] := by
      intro hnil
      rw [hnil] at hlen
      cases hlen
    have htimes : ∀ a ∈ candidateStarts, text.time (clock a) = some (slotTimes a durationMin).1 ∧
        text.time (clock ((a + durationMin) % (24 * 60))) = some (slotTimes a durationMin).2 := by
      intro a ha
      have hrange := candidateStarts_range a ha
      exact ⟨htext.clock (by omega), htext.clock (Nat.mod_lt _ (by decide))⟩
    rw [hslots, if_neg (by simp [hid]), if_neg hne, if_neg (by omega), if_neg (by simp [hall]), effectiveHalls_check hv]
    dsimp only
    cases hd : text.date q.date with
    | none =>
      have hbatch : ∃ e, batchCheckSlots text v.id (v.effectiveHalls q.hallIDs) q.date
          (candidateStarts.map fun start => (clock start, clock ((start + durationMin) % (24 * 60)))) db = .error e := by
        unfold batchCheckSlots
        rw [if_neg hne, hd]
        exact ⟨_, rfl⟩
      obtain ⟨e, he⟩ := hbatch
      rw [he]
      simp
    | some d =>
      have hbatch : batchCheckSlots text v.id (v.effectiveHalls q.hallIDs) q.date
          (candidateStarts.map fun start => (clock start, clock ((start + durationMin) % (24 * 60)))) db =
            .ok (candidateStarts.map fun start => slotFree v.id (v.effectiveHalls q.hallIDs) d db (slotTimes start durationMin).1
              (slotTimes start durationMin).2) := by
        rw [batchCheckSlots_ok_iff, Except.mapM_ok_iff, List.forall₂_map_left_iff, List.forall₂_map_right_iff, List.forall₂_same]
        intro a ha
        exact checkSlot_eq (interval_ok hd (htimes a ha).1 (htimes a ha).2)
      rw [hbatch]
      dsimp only
      have hrange := candidateStarts_range start hstart
      simp only [Except.ok.injEq, exists_eq_left', Option.some.injEq, true_and]
      unfold bookingCandidateStartTimes
      rw [mem_marked]
      constructor
      · rintro ⟨a, ha, hfree, heq⟩
        have hrange' := candidateStarts_range a ha
        obtain rfl : a = start := clock_inj (by omega) (by omega) heq
        exact not_taken_iff.2 (slotFree_iff.1 hfree)
      · intro hfree
        exact ⟨start, hstart, slotFree_iff.2 (not_taken_iff.1 hfree), rfl⟩
  · have hfalse := Bool.eq_false_iff.2 hvisible
    rw [hfalse, if_pos rfl]
    simp

end Offered

/-! ## What is booked -/

section Booked

variable {uc : BookingUseCase} {text : TextRules} {env : SlotEnv} {w w' : SlotWorld} {input : CreateBookingInput} {vr : VenueResponse}
  {d : Date} {l : List PerformedCall} {r : Except Err Booking}

/-- The runs of a booking whose venue service answers. -/
abbrev BookAnswered (uc : BookingUseCase) (text : TextRules) (env : SlotEnv) (o : BookOp) (w : SlotWorld) (r : o.Res) (w' : SlotWorld) : Prop :=
  SlotWorld.answer uc.loc text env o w = (r, w')

/-- The request for the slot of a booking. -/
def CreateBookingInput.slotRequest (input : CreateBookingInput) (bookingID : String) : ReserveSlotRequest :=
  { venueID := input.venueID, bookingID := bookingID, date := input.date, timeFrom := input.timeFrom, timeTo := input.timeTo
    hallIDs := normalizeBookingHallIDs input.hallIDs }

/-- What a booking has besides its times and its slot: halls of the venue, services that have a price, and a date that is not in
the past. -/
structure CreateBookingInput.Fits (input : CreateBookingInput) (uc : BookingUseCase) (env : SlotEnv) (vr : VenueResponse) (d : Date)
    (minutes : ℤ) : Prop where
  venue : env.getVenue = .ok (some vr)
  halls : ∀ h ∈ normalizeBookingHallIDs input.hallIDs, h ∈ vr.halls.map (·.id)
  date : Date.parse input.date = some d
  selection : ∃ total, computeBookingTotalPriceMulti vr (normalizeBookingServiceIDs input.serviceIDs input.serviceID)
    (normalizeBookingHallIDs input.hallIDs) minutes d.isWeekendDay = .ok total
  notPast : ¬ uc.loc.instant d ⟨0, 0⟩ < uc.loc.instant (uc.loc.dateAt env.now) ⟨0, 0⟩

theorem draft_fits {minutes : ℤ} (h : input.Fits uc env vr d minutes) (timeFrom timeTo : TimeOfDay) :
    ∃ draft, input.draft vr (timeFrom, timeTo, minutes) = .ok draft ∧ draft.hallIDs = normalizeBookingHallIDs input.hallIDs ∧
      draft.date = d := by
  obtain ⟨total, htotal⟩ := h.selection
  have hvalid : validateHallIDs vr (normalizeBookingHallIDs input.hallIDs) = .ok () := by
    unfold validateHallIDs
    rw [if_pos]
    rw [List.all_eq_true]
    intro id hid
    obtain ⟨hall, hhall, rfl⟩ := List.mem_map.1 (h.halls id hid)
    exact List.any_eq_true.2 ⟨hall, hhall, beq_self_eq_true _⟩
  unfold CreateBookingInput.draft
  dsimp only
  rw [hvalid, h.date]
  dsimp only
  rw [htotal]
  exact ⟨_, rfl, rfl, rfl⟩

/-- The reservation of a key, as the venue service answers it. -/
def reservation (text : TextRules) (env : SlotEnv) (req : ReserveSlotRequest) (db : VenueDB) : Except Err Unit × VenueDB :=
  VenueServer.reserveSlot text env.slotID ((VenueServer.effectiveHalls req.venueID req.hallIDs true db).mapError VenueErr.err) req db

theorem answer_create {draft b : Booking} (h : BookAnswered uc text env (.create draft) w (.ok b) w') :
    b.id = env.newID ∧ w'.venue = w.venue := by
  obtain ⟨hres, rfl⟩ := Prod.mk.inj h
  refine ⟨?_, rfl⟩
  have happly : env.fault.apply Err.plain (BookingRepo.create env.now env.newID draft) w.db = (.ok b, _) := Prod.ext hres rfl
  have hown := Fault.of_ok happly
  unfold BookingRepo.create at hown
  dsimp only at hown
  split at hown
  · cases hown
  · rw [← Except.ok.inj (Prod.mk.inj hown).1]

/-- Of the steps of a booking the second one is the reservation. -/
theorem storeBooking_reserves {draft : Booking} {req : String → ReserveSlotRequest} (hrow : ∀ m ∈ l, ¬ RowRefused m)
    (hrun : (uc.storeBooking draft req).RunsBy (BookAnswered uc text env) w l r w') :
    (∃ m ∈ l, SlotReserved m) ↔ (reservation text env (req env.newID) w.venue).1 = .ok () := by
  obtain ⟨r₁, w₁, l₁, hcreate, rfl, hrun⟩ := hrun
  cases r₁ with
  | error e => exact absurd trivial (hrow _ List.mem_cons_self)
  | ok b =>
    obtain ⟨hid, hvenue⟩ := answer_create hcreate
    obtain ⟨r₂, w₂, l₂, hreserve, rfl, hrun⟩ := hrun
    have hres : (reservation text env (req b.id) w₁.venue).1 = r₂ := (Prod.mk.inj hreserve).1
    rw [hid, hvenue] at hres
    rw [hres]
    cases r₂ with
    | ok u => exact iff_of_true ⟨_, List.mem_cons_of_mem _ List.mem_cons_self, trivial⟩ rfl
    | error e =>
      obtain ⟨r₃, w₃, l₃, -, rfl, rfl, -⟩ := hrun
      refine iff_of_false ?_ fun h => by cases h
      rintro ⟨m, hm, hreserved⟩
      simp only [List.mem_cons, List.not_mem_nil, or_false] at hm
      rcases hm with rfl | rfl | rfl
      · exact hreserved
      · exact hreserved
      · exact hreserved

theorem exists_reserved_cons {m : PerformedCall} (h : ¬ SlotReserved m) : (∃ x ∈ m :: l, SlotReserved x) ↔ ∃ x ∈ l, SlotReserved x := by
  simp [h]

/-- **A booking reserves its slot** when its times are in order, the pre-check finds the slot free and the reservation of the
booking's key is accepted. -/
theorem createBooking_reserves {minutes : ℤ} (hfits : input.Fits uc env vr d minutes)
    (hslot : ∀ timeFrom timeTo m, input.slot = .ok (timeFrom, timeTo, m) → m = minutes) (hrow : ∀ m ∈ l, ¬ RowRefused m)
    (hrun : (uc.createBooking input).RunsBy (BookAnswered uc text env) w l r w') :
    (∃ m ∈ l, SlotReserved m) ↔ (∃ slot, input.slot = .ok slot) ∧
      VenueServer.checkSlotAvailability text (input.slotRequest "") w.venue = .ok true ∧
      (reservation text env (input.slotRequest env.newID) w.venue).1 = .ok () := by
  unfold BookingUseCase.createBooking at hrun
  cases hs : input.slot with
  | error e =>
    rw [hs] at hrun
    obtain ⟨rfl, -⟩ := hrun
    simp
  | ok slot =>
    obtain ⟨timeFrom, timeTo, m⟩ := slot
    obtain rfl := hslot _ _ _ hs
    obtain ⟨draft, hdraft, hhalls, hdate⟩ := draft_fits hfits timeFrom timeTo
    have hreq : ∀ id, (⟨input.venueID, id, input.date, input.timeFrom, input.timeTo, draft.hallIDs⟩ : ReserveSlotRequest) =
        input.slotRequest id := by
      intro id
      rw [hhalls]
      rfl
    rw [hs] at hrun
    obtain ⟨r₁, w₁, l₁, hvenue, rfl, hrun⟩ := hrun
    obtain ⟨rfl, rfl⟩ := Prod.mk.inj hvenue
    rw [hfits.venue] at hrun hrow ⊢
    simp only [Prog.bind_ret] at hrun
    rw [hdraft] at hrun
    obtain ⟨r₂, w₂, l₂, hcheck, rfl, hrun⟩ := hrun
    obtain ⟨hfree, rfl⟩ := Prod.mk.inj hcheck
    rw [hreq] at hfree
    rw [exists_reserved_cons id, exists_reserved_cons id, hfree]
    rw [List.forall_mem_cons, List.forall_mem_cons] at hrow
    have hok : ∃ slot, (Except.ok (timeFrom, timeTo, m) : Except Err (TimeOfDay × TimeOfDay × ℤ)) = .ok slot := ⟨_, rfl⟩
    rw [and_iff_right hok]
    cases r₂ with
    | error e =>
      obtain ⟨rfl, -⟩ := hrun
      simp
    | ok free =>
    cases free with
    | false =>
      obtain ⟨rfl, -⟩ := hrun
      simp
    | true =>
      obtain ⟨now, w₃, l₃, hnow, rfl, hrun⟩ := hrun
      obtain ⟨rfl, rfl⟩ := Prod.mk.inj hnow
      simp only [Prog.bind_ret] at hrun
      rw [hdate, if_neg hfits.notPast] at hrun
      rw [List.forall_mem_cons] at hrow
      rw [exists_reserved_cons id, storeBooking_reserves hrow.2.2.2 hrun, hreq]
      exact (and_iff_right rfl).symm

end Booked

/-! ## Offered and booked -/

section Agree

open VenueRepo

variable {uc : BookingUseCase} {text : TextRules} {env : SlotEnv} {w w' : SlotWorld} {input : CreateBookingInput} {vr : VenueResponse}
  {d : Date} {l : List PerformedCall} {r : Except Err Booking} {v : Venue} {db : VenueDB} {hallIDs : List String}

theorem keys_normalized (hkeys : ∀ h ∈ hallIDs, isUUID h = true) (x : String) :
    x ∈ reservationKeys v.id (v.effectiveHalls (normalizeBookingHallIDs hallIDs)) ↔
      x ∈ reservationKeys v.id (v.effectiveHalls hallIDs) := by
  obtain ⟨-, hmem⟩ := normalizeIDs_mem hkeys
  unfold Venue.effectiveHalls
  by_cases hmode : v.bookingMode = .perHall
  · rw [if_pos hmode, if_pos hmode]
    have hnil : normalizeBookingHallIDs hallIDs = [] ↔ hallIDs = [] := by
      rw [List.eq_nil_iff_forall_not_mem, List.eq_nil_iff_forall_not_mem]
      exact forall_congr' fun y => not_congr (hmem y)
    unfold reservationKeys
    by_cases h : hallIDs = []
    · rw [if_pos h, if_pos (hnil.2 h)]
    · rw [if_neg h, if_neg fun h' => h (hnil.1 h')]
      exact hmem x
  · rw [if_neg hmode, if_neg hmode]

theorem hallMissing_normalized (hkeys : ∀ h ∈ hallIDs, isUUID h = true) :
    v.HallMissing (normalizeBookingHallIDs hallIDs) db ↔ v.HallMissing hallIDs db := by
  obtain ⟨-, hmem⟩ := normalizeIDs_mem hkeys
  have hnil : normalizeBookingHallIDs hallIDs = [] ↔ hallIDs = [] := by
    rw [List.eq_nil_iff_forall_not_mem, List.eq_nil_iff_forall_not_mem]
    exact forall_congr' fun y => not_congr (hmem y)
  unfold Venue.HallMissing
  rw [hnil]

theorem rangesOverlap_empty {d e : ℤ} {a b a' b' : ℕ} (h : b ≤ a) :
    rangesOverlap (d * fullDay + a, d * fullDay + b) (e * fullDay + a', e * fullDay + b') = false := by
  unfold rangesOverlap
  rw [decide_eq_false_iff_not, max_lt_iff, lt_min_iff, lt_min_iff]
  dsimp only
  omega

/-- A row that overlaps an interval takes some time of it. -/
theorem overlap_iff {s : ReservedSlot} {day : PgDate} {tf tt : PgTime} (hs : s.timeTo ≤ fullDay) (hday : tt ≤ fullDay) (hlen : tf < tt) :
    rangesOverlap s.slotTs (day * fullDay + tf, day * fullDay + tt) = true ↔
      s.date = day ∧ s.timeFrom < s.timeTo ∧ s.timeFrom < tt ∧ tf < s.timeTo := by
  by_cases hrow : s.timeFrom < s.timeTo
  · rw [ReservedSlot.slotTs, rangesOverlap_iff hs hday hrow hlen]
    tauto
  · refine iff_of_false (fun h => ?_) fun h => hrow h.2.1
    rw [ReservedSlot.slotTs, rangesOverlap_empty (Nat.le_of_not_lt hrow)] at h
    cases h

/-- What a booking asks besides a free slot: an end on the same day, a hall where one has to be chosen, and none that is held
elsewhere. -/
structure Bookable (v : Venue) (hallIDs : List String) (day : PgDate) (start durationMin : ℕ) (db : VenueDB) : Prop where
  sameDay : start + durationMin < 24 * 60
  hall : ¬ v.HallMissing hallIDs db
  own : ∀ s ∈ db.reserved.rows, ¬ HeldElsewhere v.id (reservationKeys v.id (v.effectiveHalls hallIDs)) day
    (slotTimes start durationMin).1 (slotTimes start durationMin).2 s

theorem slotTimes_lt {start durationMin : ℕ} (hdur : 0 < durationMin) (hday : start + durationMin < 24 * 60) :
    (slotTimes start durationMin).1 < (slotTimes start durationMin).2 := by
  show start * 60000000 < (start + durationMin) % (24 * 60) * 60000000
  rw [Nat.mod_eq_of_lt hday]
  omega

theorem slotTimes_le (start durationMin : ℕ) : (slotTimes start durationMin).2 ≤ fullDay := by
  have hmod : (start + durationMin) % (24 * 60) < 24 * 60 := Nat.mod_lt _ (by decide)
  show (start + durationMin) % (24 * 60) * 60000000 ≤ 24 * 60 * 60 * 1000000
  omega

theorem reserved_timeTo_le (db : VenueDB) : ∀ s ∈ db.reserved.rows, s.timeTo ≤ fullDay := by
  intro s hs
  have hcheck := db.reserved.checked s hs
  simp only [reservedSlotSchema, Bool.and_eq_true, decide_eq_true_iff] at hcheck
  exact hcheck.2

/-- Where a slot is not taken, what overlaps it is held elsewhere. -/
theorem not_overlaps_iff {day : PgDate} {start durationMin : ℕ} (hdur : 0 < durationMin) (hday : start + durationMin < 24 * 60)
    (hfree : ¬ Taken v hallIDs day start durationMin db) :
    (∀ s ∈ db.reserved.rows, s.key ∈ reservationKeys v.id (v.effectiveHalls hallIDs) → rangesOverlap s.slotTs
        (day * fullDay + (slotTimes start durationMin).1, day * fullDay + (slotTimes start durationMin).2) = false) ↔
      ∀ s ∈ db.reserved.rows, ¬ HeldElsewhere v.id (reservationKeys v.id (v.effectiveHalls hallIDs)) day
        (slotTimes start durationMin).1 (slotTimes start durationMin).2 s := by
  have hover : ∀ s ∈ db.reserved.rows, rangesOverlap s.slotTs
      (day * fullDay + (slotTimes start durationMin).1, day * fullDay + (slotTimes start durationMin).2) = true ↔
        s.date = day ∧ s.timeFrom < s.timeTo ∧ s.timeFrom < (slotTimes start durationMin).2 ∧
          (slotTimes start durationMin).1 < s.timeTo := fun s hs =>
    overlap_iff (reserved_timeTo_le db s hs) (slotTimes_le start durationMin) (slotTimes_lt hdur hday)
  constructor
  · rintro h s hs ⟨-, hsd, hskey, hsl, hsf, hst⟩
    have hno := h s hs hskey
    rw [(hover s hs).2 ⟨hsd, hsl, hsf, hst⟩] at hno
    cases hno
  · intro h s hs hskey
    by_contra hyes
    obtain ⟨hsd, hsl, hsf, hst⟩ := (hover s hs).1 (Bool.of_not_eq_false hyes)
    by_cases hown : s.venueID = v.id
    · exact hfree ⟨s, hs, hown, hsd, hskey, hsf, hst⟩
    · exact h s hs ⟨hown, hsd, hskey, hsl, hsf, hst⟩

section Requested

variable {q : AvailabilityQuery} {start durationMin : ℕ}

theorem requested_keys (hkeys : ∀ h ∈ q.hallIDs, isUUID h = true) (hbooks : q.Books v durationMin start input) (id x : String) :
    x ∈ reservationKeys v.id (v.effectiveHalls (input.slotRequest id).hallIDs) ↔
      x ∈ reservationKeys v.id (v.effectiveHalls q.hallIDs) := by
  rw [← keys_normalized hkeys, ← hbooks.hallIDs]
  rfl

theorem requested_missing (hkeys : ∀ h ∈ q.hallIDs, isUUID h = true) (hbooks : q.Books v durationMin start input) (id : String) :
    v.HallMissing (input.slotRequest id).hallIDs db ↔ v.HallMissing q.hallIDs db := by
  rw [← hallMissing_normalized hkeys, ← hbooks.hallIDs]
  rfl

/-- **A slot that ends on its day** is free and reserved when it is not taken and bookable. -/
theorem free_and_reserved_iff (htext : text.ReadsTimes) (hv : db.venue v.id = some v) (hkeys : ∀ h ∈ q.hallIDs, isUUID h = true)
    (hdur : 0 < durationMin) (hday : start + durationMin < 24 * 60) (hbooks : q.Books v durationMin start input)
    (hkey : isUUID env.newID = true) :
    (VenueServer.checkSlotAvailability text (input.slotRequest "") db = .ok true ∧
        (reservation text env (input.slotRequest env.newID) db).1 = .ok ()) ↔
      ∃ day, text.date q.date = some day ∧ ¬ Taken v q.hallIDs day start durationMin db ∧
        Bookable v q.hallIDs day start durationMin db := by
  obtain ⟨honce, hmem⟩ := normalizeIDs_mem hkeys
  have hto : input.timeTo = clock ((start + durationMin) % (24 * 60)) := hbooks.timeTo.trans (slotEndFromDuration_clock (by omega))
  have hf : text.time input.timeFrom = some (slotTimes start durationMin).1 := by
    rw [hbooks.timeFrom]
    exact htext.clock (by omega)
  have ht : text.time input.timeTo = some (slotTimes start durationMin).2 := by
    rw [hto]
    exact htext.clock (Nat.mod_lt _ (by decide))
  have hhalls : ∀ h ∈ normalizeBookingHallIDs input.hallIDs, isUUID h = true := by
    rw [hbooks.hallIDs]
    exact fun h hh => hkeys h ((hmem h).1 hh)
  have hnodup : (normalizeBookingHallIDs input.hallIDs).Nodup := by
    rw [hbooks.hallIDs]
    exact honce
  have hread : ∀ id, (input.slotRequest id).date = q.date := fun _ => hbooks.date
  have hfree : ∀ day, (∀ s ∈ db.reserved.rows, ¬ InTheWay v.id
      (reservationKeys v.id (v.effectiveHalls (input.slotRequest "").hallIDs)) day (slotTimes start durationMin).1
        (slotTimes start durationMin).2 s) ↔ ¬ Taken v q.hallIDs day start durationMin db := by
    intro day
    rw [not_taken_iff]
    refine forall₂_congr fun s _ => not_congr ?_
    unfold InTheWay
    rw [requested_keys hkeys hbooks]
  have hreserve : ∀ day, text.date q.date = some day → ¬ Taken v q.hallIDs day start durationMin db →
      ((reservation text env (input.slotRequest env.newID) db).1 = .ok () ↔ Bookable v q.hallIDs day start durationMin db) := by
    intro day hdate hnot
    have hok : (reservation text env (input.slotRequest env.newID) db).1 = .ok () ↔ _ :=
      reserveSlot_ok_iff (input.slotRequest env.newID) hv hbooks.venueID hkey hhalls hnodup ((hread _).symm ▸ hdate) hf ht
        (slotTimes_lt hdur hday) (slotTimes_le start durationMin)
    rw [hok, requested_missing hkeys hbooks]
    simp only [requested_keys hkeys hbooks]
    rw [not_overlaps_iff hdur hday hnot]
    exact ⟨fun h => ⟨hday, h.1, h.2⟩, fun h => ⟨h.hall, h.own⟩⟩
  rw [checkSlotAvailability_iff (input.slotRequest "") hv hbooks.venueID hhalls hf ht, hread]
  constructor
  · rintro ⟨⟨day, hdate, hnone⟩, hres⟩
    have hnot := (hfree day).1 hnone
    exact ⟨day, hdate, hnot, (hreserve day hdate hnot).1 hres⟩
  · rintro ⟨day, hdate, hnot, hbook⟩
    exact ⟨⟨day, hdate, (hfree day).2 hnot⟩, (hreserve day hdate hnot).2 hbook⟩

end Requested

/-- **A start time is booked** when its slot is not taken and it is bookable. -/
theorem booked_iff {q : AvailabilityQuery} {start durationMin : ℕ} (htext : text.ReadsTimes) (hv : w.venue.venue v.id = some v)
    (hkeys : ∀ h ∈ q.hallIDs, isUUID h = true) (hdur : 30 ≤ durationMin ∧ durationMin ≤ 720) (hstart : start ∈ candidateStarts)
    (hbooks : q.Books v durationMin start input) (hfits : input.Fits uc env vr d durationMin) (hkey : isUUID env.newID = true)
    (hrow : ∀ m ∈ l, ¬ RowRefused m) (hrun : (uc.createBooking input).RunsBy (BookAnswered uc text env) w l r w') :
    (∃ m ∈ l, SlotReserved m) ↔ ∃ day, text.date q.date = some day ∧ ¬ Taken v q.hallIDs day start durationMin w.venue ∧
      Bookable v q.hallIDs day start durationMin w.venue := by
  have hrange := candidateStarts_range start hstart
  obtain ⟨hsame, hpast⟩ := slot_clock hrange hdur hbooks.timeFrom hbooks.timeTo
  by_cases hday : start + durationMin < 24 * 60
  · obtain ⟨f, t, hft⟩ := hsame hday
    have hslot : ∀ timeFrom timeTo m, input.slot = .ok (timeFrom, timeTo, m) → m = durationMin := by
      intro timeFrom timeTo m hm
      rw [hft] at hm
      cases hm
      rfl
    rw [createBooking_reserves hfits hslot hrow hrun, and_iff_right ⟨_, hft⟩]
    exact free_and_reserved_iff htext hv hkeys (by omega) hday hbooks hkey
  · obtain ⟨e, he⟩ := hpast hday
    have hslot : ∀ timeFrom timeTo m, input.slot = .ok (timeFrom, timeTo, m) → m = durationMin := by
      intro timeFrom timeTo m hm
      rw [he] at hm
      cases hm
    rw [createBooking_reserves hfits hslot hrow hrun]
    constructor
    · rintro ⟨⟨slot, hok⟩, -⟩
      rw [he] at hok
      cases hok
    · rintro ⟨day, -, -, hbook⟩
      exact absurd hbook.sameDay hday

/-- **What is offered is what is booked**, as far as it is known of a start time: its slot is taken, or the viewer sees the venue
exactly if the start time is bookable. -/
theorem offered_iff_booked {q : AvailabilityQuery} {start durationMin : ℕ} {viewer role : String} (htext : text.ReadsTimes)
    (hv : w.venue.venue v.id = some v) (hhalls : ∀ h ∈ q.hallIDs, h ∈ VenueRepo.hallIDs v.id w.venue)
    (hdur : queryInt "duration_min" q.durationMin 120 30 720 = .ok durationMin) (hstart : start ∈ candidateStarts)
    (hbooks : q.Books v durationMin start input) (hfits : input.Fits uc env vr d durationMin) (hkey : isUUID env.newID = true)
    (hrow : ∀ m ∈ l, ¬ RowRefused m) (hrun : (uc.createBooking input).RunsBy (BookAnswered uc text env) w l r w') :
    (Offered text v viewer role q w.venue start ↔ ∃ m ∈ l, SlotReserved m) ↔ ∀ day, text.date q.date = some day →
      Taken v q.hallIDs day start durationMin w.venue ∨ (venueDraftVisibleToViewer v.status v.ownerID viewer role = true ↔
        Bookable v q.hallIDs day start durationMin w.venue) := by
  have hkeys : ∀ h ∈ q.hallIDs, isUUID h = true := by
    intro h hh
    obtain ⟨hall, hmem, rfl⟩ := List.mem_map.1 (hhalls h hh)
    have hcheck := w.venue.halls.checked hall (List.mem_filter.1 hmem).1
    simp only [venueHallSchema, Bool.and_eq_true] at hcheck
    exact hcheck.1.1
  have hdate : q.date ≠ "" := by
    intro hnil
    have hparse := hfits.date
    have hnone : Date.parse "" = none := by decide
    rw [hbooks.date, hnil, hnone] at hparse
    cases hparse
  have hrange := queryInt_range hdur (by decide) (by decide)
  rw [offered_iff htext hv hkeys hdate hdur hstart, booked_iff htext hv hkeys (by omega) hstart hbooks hfits hkey hrow hrun]
  cases hd : text.date q.date with
  | none => simp
  | some day =>
    simp only [Option.some.injEq, exists_eq_left', forall_eq']
    by_cases htaken : Taken v q.hallIDs day start durationMin w.venue
    · simp only [htaken, not_true_eq_false, and_false, false_and, true_or]
    · simp only [htaken, not_false_eq_true, and_true, true_and, false_or]

end Agree

/-! ### Two evenings -/

theorem sampleText_reads : sampleText.ReadsTimes := by
  constructor
  intro t ht
  unfold sampleText
  dsimp only
  rw [TimeOfDay.parse_string ht, Option.map_some]

/-- Two hours of the second of June 2025. -/
def eveningQuery : AvailabilityQuery := ⟨"2025-06-02", "", []⟩

theorem eveningQuery_duration : queryInt "duration_min" eveningQuery.durationMin 120 30 720 = .ok (120 : ℕ) := by
  decide

/-- The venue with the evening taken. -/
def takenEvening : SlotWorld := ⟨sampleSlots.db, leakedSlots.venue⟩

theorem bookedInput_fits {input : CreateBookingInput} (hhalls : input.hallIDs = []) (hdate : input.date = "2025-06-02")
    (hservices : input.serviceIDs = [] ∧ input.serviceID = "") :
    input.Fits sampleBookings (sampleSlotEnv sampleKey .none) sampleVenueResponse ⟨2025, 6, 2⟩ (120 : ℕ) := by
  refine ⟨rfl, ?_, ?_, ?_, by decide⟩
  · rw [hhalls]
    decide
  · rw [hdate]
    decide
  · rw [hhalls, hservices.1, hservices.2]
    exact ⟨500000, by decide⟩

/-- The slot of the evening is taken, and it is neither offered nor booked. -/
theorem taken_evening : (Offered sampleText sampleVenue "" "" eveningQuery takenEvening.venue 1080 ↔
    ∃ m ∈ ([⟨takenEvening, .getVenue bookedInput.venueID, .ok (some sampleVenueResponse), takenEvening⟩,
      ⟨takenEvening, .checkSlotAvailability ⟨bookedInput.venueID, "", bookedInput.date, bookedInput.timeFrom, bookedInput.timeTo, []⟩,
        .ok false, takenEvening⟩] : List PerformedCall), SlotReserved m) ↔
    ∀ day, sampleText.date eveningQuery.date = some day → Taken sampleVenue eveningQuery.hallIDs day 1080 120 takenEvening.venue ∨
      (venueDraftVisibleToViewer sampleVenue.status sampleVenue.ownerID "" "" = true ↔
        Bookable sampleVenue eveningQuery.hallIDs day 1080 120 takenEvening.venue) := by
  have hbooks : eveningQuery.Books sampleVenue (120 : ℕ) 1080 bookedInput := ⟨rfl, rfl, rfl, by decide, by decide⟩
  have hrun : (sampleBookings.createBooking bookedInput).RunsBy (BookAnswered sampleBookings sampleText (sampleSlotEnv sampleKey .none))
      takenEvening [⟨takenEvening, .getVenue bookedInput.venueID, .ok (some sampleVenueResponse), takenEvening⟩,
        ⟨takenEvening, .checkSlotAvailability ⟨bookedInput.venueID, "", bookedInput.date, bookedInput.timeFrom, bookedInput.timeTo, []⟩,
          .ok false, takenEvening⟩] (.error (invalidArgument "выбранное время уже занято, выберите другое")) takenEvening := by
    simp only [BookingUseCase.createBooking, bookedInput_slot, Prog.bind_eq, Prog.perform_bind]
    refine ⟨.ok (some sampleVenueResponse), takenEvening, _, rfl, rfl, ?_⟩
    simp only [bookedInput_draft]
    refine ⟨.ok false, takenEvening, _, rfl, rfl, ?_⟩
    exact ⟨rfl, rfl, rfl⟩
  exact offered_iff_booked sampleText_reads rfl (fun h hh => absurd hh List.not_mem_nil) eveningQuery_duration (by decide) hbooks
    (bookedInput_fits rfl rfl ⟨rfl, rfl⟩) (by decide) (by simp [RowRefused]) hrun

/-- Ten in the evening to midnight. -/
def lateInput : CreateBookingInput := { bookedInput with timeFrom := "22:00", timeTo := "00:00" }

/-- The last start time is offered for two hours, and the booking is refused for its end. -/
theorem late_start_offered : ¬ ∀ (uc : BookingUseCase) (text : TextRules) (env : SlotEnv) (w w' : SlotWorld)
    (input : CreateBookingInput) (vr : VenueResponse) (d : Date) (l : List PerformedCall) (r : Except Err Booking) (v : Venue)
    (q : AvailabilityQuery) (start durationMin : ℕ) (viewer role : String), text.ReadsTimes → w.venue.venue v.id = some v →
    (∀ h ∈ q.hallIDs, h ∈ VenueRepo.hallIDs v.id w.venue) →
    queryInt "duration_min" q.durationMin 120 30 720 = .ok durationMin → start ∈ candidateStarts →
    q.Books v durationMin start input → input.Fits uc env vr d durationMin → isUUID env.newID = true →
    (∀ m ∈ l, ¬ RowRefused m) → (uc.createBooking input).RunsBy (BookAnswered uc text env) w l r w' →
    (Offered text v viewer role q w.venue start ↔ ∃ m ∈ l, SlotReserved m) := by
  intro hall
  have hbooks : eveningQuery.Books sampleVenue (120 : ℕ) 1320 lateInput := ⟨rfl, rfl, rfl, by decide, by decide⟩
  have hrun : (sampleBookings.createBooking lateInput).RunsBy (BookAnswered sampleBookings sampleText (sampleSlotEnv sampleKey .none))
      sampleSlots [] (.error (invalidArgument "время окончания должно быть позже времени начала")) sampleSlots := ⟨rfl, rfl, rfl⟩
  have hiff := hall sampleBookings sampleText (sampleSlotEnv sampleKey .none) sampleSlots sampleSlots lateInput sampleVenueResponse
    ⟨2025, 6, 2⟩ [] _ sampleVenue eveningQuery 1320 120 "" "" sampleText_reads rfl (fun h hh => absurd hh List.not_mem_nil)
    eveningQuery_duration (by decide) hbooks (bookedInput_fits rfl rfl ⟨rfl, rfl⟩) (by decide)
    (fun m hm => absurd hm List.not_mem_nil) hrun
  have hoffered : Offered sampleText sampleVenue "" "" eveningQuery sampleSlots.venue 1320 := by
    rw [offered_iff sampleText_reads rfl (fun h hh => absurd hh List.not_mem_nil) (by decide) eveningQuery_duration (by decide)]
    refine ⟨by decide, 739769, by decide, ?_⟩
    rintro ⟨s, hs, -⟩
    exact absurd hs List.not_mem_nil
  obtain ⟨m, hm, -⟩ := hiff.1 hoffered
  exact absurd hm List.not_mem_nil

end Agregator
