import Agregator.BookList
import Agregator.BookMulti
import Agregator.MasterProfile
import Agregator.MasterSaga
import Mathlib.Data.List.Dedup
import Mathlib.Data.List.MinMax
import Mathlib.Data.Rat.Floor
import Mathlib.Tactic.Linarith
/-!
# MasterBookings — the price of an hour, the end of a visit and who may look at a booking

What `CreateBooking` makes of the rates of a master and of the clock, when a booking counts as a visit for a review and
for the list of clients, and the bookings an actor is shown one by one or in a batch.
-/
namespace Agregator

open Rel Conc

/-! ## The price of an hour -/

/-- The rate of a master on a day. -/
def Master.dayRate (m : Master) (d : Date) : ℤ := weekendRate m.hourlyRate m.priceWeekend d.isWeekendDay

/-- The minutes of a slot. -/
def slotMinutes (slot : Date × TimeOfDay × TimeOfDay) : ℤ := slot.2.2.minutesSinceStart - slot.2.1.minutesSinceStart

/-- The price of a slot, rounded up over the integers. -/
def Master.fairPrice (m : Master) (slot : Date × TimeOfDay × TimeOfDay) : ℤ :=
  ⌈(m.dayRate slot.1 * slotMinutes slot : ℚ) / 60⌉

/-- With a rate the price is computed in 64 bits as over the integers; it is fair and positive, and no shorter slot at the
same rate costs more. -/
structure Master.PricesFairly (m : Master) (slot : Date × TimeOfDay × TimeOfDay) : Prop where
  exact : 0 < m.dayRate slot.1 → int64 (m.dayRate slot.1 * slotMinutes slot) = m.dayRate slot.1 * slotMinutes slot ∧
    int64 (int64 (m.dayRate slot.1 * slotMinutes slot) + 59) = m.dayRate slot.1 * slotMinutes slot + 59
  fair : ∀ amount, estimateMasterBookingPriceKopecks m none slot = .ok amount → amount = m.fairPrice slot ∧ 0 < amount
  monotone : ∀ amount, estimateMasterBookingPriceKopecks m none slot = .ok amount →
    ∀ (shorter : Date × TimeOfDay × TimeOfDay) (less : ℤ), m.dayRate shorter.1 = m.dayRate slot.1 →
      slotMinutes shorter ≤ slotMinutes slot → estimateMasterBookingPriceKopecks m none shorter = .ok less → less ≤ amount

/-- A slot that has been checked ends after it starts. -/
theorem validateBookingSlot_minutes {today : Date} {date timeFrom timeTo : String} {slot : Date × TimeOfDay × TimeOfDay}
    (h : validateBookingSlot today date timeFrom timeTo = .ok slot) : 0 < slotMinutes slot ∧
      today.dayNumber ≤ slot.1.dayNumber ∧ slot.1.dayNumber ≤ today.dayNumber + bookingMaxAdvanceDays := by
  unfold validateBookingSlot at h
  cases hdate : Date.parse (trimSpace date) with
  | none =>
    rw [hdate] at h
    cases h
  | some d =>
    rw [hdate] at h
    dsimp only at h
    by_cases hpast : d.dayNumber < today.dayNumber
    · rw [if_pos hpast] at h
      cases h
    rw [if_neg hpast] at h
    by_cases hfar : today.dayNumber + bookingMaxAdvanceDays < d.dayNumber
    · rw [if_pos hfar] at h
      cases h
    rw [if_neg hfar] at h
    cases hfrom : TimeOfDay.parse (trimSpace timeFrom) with
    | none =>
      rw [hfrom] at h
      cases h
    | some start =>
      rw [hfrom] at h
      cases hto : TimeOfDay.parse (trimSpace timeTo) with
      | none =>
        rw [hto] at h
        cases h
      | some stop =>
        rw [hto] at h
        dsimp only at h
        by_cases horder : stop.minutesSinceStart ≤ start.minutesSinceStart
        · rw [if_pos horder] at h
          cases h
        rw [if_neg horder] at h
        obtain rfl := Except.ok.inj h
        unfold slotMinutes
        dsimp only
        omega

namespace Master

variable (m : Master) {slot : Date × TimeOfDay × TimeOfDay}

/-- Without a service it is the rate that counts, in 64 bits. -/
theorem estimate_eq (hmin : 0 < slotMinutes slot) (hrate : 0 < m.dayRate slot.1) :
    estimateMasterBookingPriceKopecks m none slot =
      if (int64 (int64 (m.dayRate slot.1 * slotMinutes slot) + 59)).tdiv 60 ≤ 0 then
        .error (.status .invalidArgument "invalid booking amount")
      else .ok ((int64 (int64 (m.dayRate slot.1 * slotMinutes slot) + 59)).tdiv 60) := by
  simp only [estimateMasterBookingPriceKopecks]
  rw [if_neg (by unfold dayRate at hrate; omega), if_neg (by unfold slotMinutes at hmin; omega)]
  rfl

/-- **What an hour costs is exact as long as the product fits into 64 bits.** -/
theorem estimate_fits (hmin : 0 < slotMinutes slot) (hrate : 0 < m.dayRate slot.1)
    (hfits : m.dayRate slot.1 * slotMinutes slot + 59 < 2 ^ 63) :
    estimateMasterBookingPriceKopecks m none slot = .ok (m.fairPrice slot) ∧ 0 < m.fairPrice slot := by
  have hpos : 0 < m.dayRate slot.1 * slotMinutes slot := Int.mul_pos hrate hmin
  have hfair : m.fairPrice slot = (m.dayRate slot.1 * slotMinutes slot + 59) / 60 := by
    unfold fairPrice
    rw [← ceil_minutes]
    push_cast
    rfl
  have hprod := int64_of_range (x := m.dayRate slot.1 * slotMinutes slot) (by omega) (by omega)
  have hsum := int64_of_range (x := m.dayRate slot.1 * slotMinutes slot + 59) (by omega) hfits
  rw [m.estimate_eq hmin hrate, hprod, hsum, Int.tdiv_eq_ediv_of_nonneg (by omega), hfair, if_neg (by omega)]
  exact ⟨rfl, by omega⟩

/-- Without a rate there is no price. -/
theorem estimate_refused (hrate : m.dayRate slot.1 ≤ 0) : ∃ err, estimateMasterBookingPriceKopecks m none slot = .error err := by
  unfold dayRate at hrate
  simp only [estimateMasterBookingPriceKopecks]
  rw [if_pos hrate]
  exact ⟨_, rfl⟩

/-- Without a minute there is no price. -/
theorem minutes_of_estimate {amount : ℤ} (h : estimateMasterBookingPriceKopecks m none slot = .ok amount) :
    0 < slotMinutes slot := by
  by_contra hmin
  simp only [estimateMasterBookingPriceKopecks] at h
  rw [if_pos (show slot.2.2.minutesSinceStart - slot.2.1.minutesSinceStart ≤ 0 by unfold slotMinutes at hmin; omega)] at h
  split at h <;> cases h

/-- **The price of an hour is fair exactly if the day has no rate or its product with the minutes fits.** -/
theorem pricesFairly_iff {today : Date} {date timeFrom timeTo : String}
    (h : validateBookingSlot today date timeFrom timeTo = .ok slot) :
    m.PricesFairly slot ↔ m.dayRate slot.1 ≤ 0 ∨ m.dayRate slot.1 * slotMinutes slot + 59 < 2 ^ 63 := by
  have hmin := (validateBookingSlot_minutes h).1
  constructor
  · intro hp
    by_cases hrate : m.dayRate slot.1 ≤ 0
    · exact .inl hrate
    · obtain ⟨-, hsum⟩ := hp.exact (by omega)
      have := int64_range (int64 (m.dayRate slot.1 * slotMinutes slot) + 59)
      rw [hsum] at this
      exact .inr this.2
  · intro hcond
    by_cases hrate : m.dayRate slot.1 ≤ 0
    · obtain ⟨err, herr⟩ := m.estimate_refused hrate
      refine ⟨fun hpos => by omega, fun amount hok => ?_, fun amount hok => ?_⟩ <;> rw [herr] at hok <;> cases hok
    · have hfits : m.dayRate slot.1 * slotMinutes slot + 59 < 2 ^ 63 := hcond.resolve_left hrate
      have hpos : 0 < m.dayRate slot.1 * slotMinutes slot := Int.mul_pos (by omega) hmin
      obtain ⟨hok, hfair⟩ := m.estimate_fits hmin (by omega) hfits
      have hprod := int64_of_range (x := m.dayRate slot.1 * slotMinutes slot) (by omega) (by omega)
      refine ⟨fun _ => ⟨hprod, ?_⟩, fun amount hamount => ?_, fun amount hamount shorter less hsame hless hshort => ?_⟩
      · rw [hprod]
        exact int64_of_range (by omega) hfits
      · rw [hok] at hamount
        rw [← Except.ok.inj hamount]
        exact ⟨rfl, hfair⟩
      · rw [hok] at hamount
        rw [← Except.ok.inj hamount]
        have hle : m.dayRate shorter.1 * slotMinutes shorter ≤ m.dayRate slot.1 * slotMinutes slot := by
          rw [hsame]
          exact Int.mul_le_mul_of_nonneg_left hless (by omega)
        obtain ⟨hokshort, -⟩ := m.estimate_fits (m.minutes_of_estimate hshort) (by omega) (by omega : _ < (2 : ℤ) ^ 63)
        rw [hokshort] at hshort
        rw [← Except.ok.inj hshort]
        unfold fairPrice
        refine Int.ceil_le_ceil ?_
        have hcast : (m.dayRate shorter.1 * slotMinutes shorter : ℚ) ≤ m.dayRate slot.1 * slotMinutes slot := by exact_mod_cast hle
        linarith

end Master

/-- What the columns of the two rates hold. -/
def Master.StoredRates (m : Master) : Prop :=
  (-2 ^ 63 ≤ m.hourlyRate ∧ m.hourlyRate < 2 ^ 63) ∧ -2 ^ 63 ≤ m.priceWeekend ∧ m.priceWeekend < 2 ^ 63

theorem annas_slot : validateBookingSlot ⟨2026, 1, 1⟩ "2026-01-02" "10:00" "11:00" = .ok (⟨2026, 1, 2⟩, ⟨10, 0⟩, ⟨11, 0⟩) := by
  decide +kernel

theorem pricesFairly_anna : anna.PricesFairly (⟨2026, 1, 2⟩, ⟨10, 0⟩, ⟨11, 0⟩) :=
  (anna.pricesFairly_iff annas_slot).2 (.inr (by decide +kernel))

/-- An hour of a master who asks for more than 64 bits hold of it costs 60 kopecks. -/
theorem hour_wraps : ¬ ∀ m : Master, m.StoredRates → ∀ (today : Date) (date timeFrom timeTo : String) slot,
    validateBookingSlot today date timeFrom timeTo = .ok slot → m.PricesFairly slot := by
  intro hall
  have hstored : Master.StoredRates { anna with hourlyRate := 2 ^ 62 + 60 } := by
    unfold Master.StoredRates
    decide
  have hcost : estimateMasterBookingPriceKopecks { anna with hourlyRate := 2 ^ 62 + 60 } none (⟨2026, 1, 2⟩, ⟨10, 0⟩, ⟨11, 0⟩) =
      .ok 60 := by decide +kernel
  have hfair := ((hall _ hstored ⟨2026, 1, 1⟩ "2026-01-02" "10:00" "11:00" _ annas_slot).fair 60 hcost).1
  unfold Master.fairPrice at hfair
  exact absurd hfair (by decide +kernel)

/-! ## Visits -/

def dayNanos : ℕ := 24 * 3600 * 10 ^ 9

/-- What a clock on a wall shows. -/
structure WallClock where
  date : Date
  nanos : ℕ
  nanos_lt : nanos < dayNanos

/-- From the first day on. -/
def WallClock.instant (t : WallClock) : ℕ := t.date.dayNumber * dayNanos + t.nanos

def TimeOfDay.nanos (t : TimeOfDay) : ℕ := (t.h * 60 + t.m) * (60 * 10 ^ 9)

namespace MasterBooking

variable (b : MasterBooking)

/-- `date + time_to`. -/
def ends : ℕ := b.date.dayNumber * dayNanos + b.timeTo.nanos

/-- The predicate of `HasCompletedBookingByClientMaster`. -/
def completedBy (now : WallClock) : Bool :=
  b.status == .completed || (b.status == .confirmed && decide (b.ends < now.instant))

/-- The predicate of `ListClientsByMaster`. -/
def visited (today : Date) : Bool :=
  b.status == .completed || (b.status == .confirmed && decide (b.date.dayNumber < today.dayNumber))

end MasterBooking

def MasterRepo.hasCompletedBookingByClientMaster (now : WallClock) (clientUserID masterID : String) (db : MasterDB) : Bool :=
  db.rows.any fun b => b.clientUserID == clientUserID && b.masterID == masterID && b.completedBy now

/-! ### A booking is not over when it is made -/

/-- An operation at an instant, whatever else the environment has in store for it. -/
def MasterOp.At (t : Time) (o : MasterOp) (w : MasterWorld) (r : o.Res) (w' : MasterWorld) : Prop :=
  ∃ env : MasterEnv, env.now = t ∧ o.run env w = (r, w')

def MasterBooking.slot (b : MasterBooking) : Date × TimeOfDay × TimeOfDay := (b.date, b.timeFrom, b.timeTo)

/-- Only a booking of the slot is stored. -/
def MasterOp.Slotted (slot : Date × TimeOfDay × TimeOfDay) : MasterOp → Prop
  | .insertBooking b => b.slot = slot
  | _ => True

/-- The rows that were there have their slots, the new ones this one. -/
def MasterDB.SlotsKept (slot : Date × TimeOfDay × TimeOfDay) (db db' : MasterDB) : Prop :=
  ∀ b' ∈ db'.rows, b'.slot = slot ∨ ∃ b ∈ db.rows, b.id = b'.id ∧ b.slot = b'.slot

namespace MasterDB.SlotsKept

variable {slot : Date × TimeOfDay × TimeOfDay}

theorem refl (db : MasterDB) : SlotsKept slot db db := fun b hb => .inr ⟨b, hb, rfl, rfl⟩

theorem trans {a b c : MasterDB} (hab : SlotsKept slot a b) (hbc : SlotsKept slot b c) : SlotsKept slot a c := by
  intro z hz
  obtain h | ⟨y, hy, hid, hslot⟩ := hbc z hz
  · exact .inl h
  · obtain h | ⟨x, hx, hid', hslot'⟩ := hab y hy
    · exact .inl (hslot.symm.trans h)
    · exact .inr ⟨x, hx, hid'.trans hid, hslot'.trans hslot⟩

theorem update {p : MasterBooking → Bool} {f : MasterBooking → MasterBooking} (hf : ∀ b, (f b).id = b.id ∧ (f b).slot = b.slot)
    (db : MasterDB) : SlotsKept slot db (MasterRepo.updateRows p f db).2 := by
  unfold MasterRepo.updateRows
  cases hu : db.update p f with
  | error v => exact refl db
  | ok db' =>
    intro b' hb'
    rw [Table.update_rows hu] at hb'
    obtain ⟨b, hb, rfl⟩ := List.mem_map.1 hb'
    by_cases hp : p b = true
    · rw [if_pos hp]
      exact .inr ⟨b, hb, (hf b).1.symm, (hf b).2.symm⟩
    · rw [if_neg hp]
      exact .inr ⟨b, hb, rfl, rfl⟩

theorem insert {now : Time} {b : MasterBooking} (hb : b.slot = slot) (db : MasterDB) :
    SlotsKept slot db (MasterRepo.insertBooking now b db).2 := by
  unfold MasterRepo.insertBooking
  cases hi : db.insert { b with createdAt := now } with
  | error v => cases v <;> exact refl db
  | ok db' =>
    intro b' hb'
    rw [Table.insert_rows hi] at hb'
    rcases List.mem_append.1 hb' with hb' | hb'
    · exact .inr ⟨b', hb', rfl, rfl⟩
    · rw [List.mem_singleton.1 hb']
      exact .inl hb

theorem delete (p : MasterBooking → Bool) (db : MasterDB) : SlotsKept slot db (db.delete p) :=
  fun b hb => .inr ⟨b, (List.mem_filter.1 hb).1, rfl, rfl⟩

end MasterDB.SlotsKept

/-- **An operation leaves the slots of the bookings, or stores one of the slot.** -/
theorem MasterOp.At.slots {t : Time} {o : MasterOp} {w w' : MasterWorld} {r : o.Res} {slot : Date × TimeOfDay × TimeOfDay}
    (h : MasterOp.At t o w r w') (ho : o.Slotted slot) : w.db.SlotsKept slot w'.db := by
  obtain ⟨env, -, hrun⟩ := h
  obtain rfl : (o.run env w).2 = w' := by rw [hrun]
  have hquiet : ∀ {x : MasterWorld}, x.db = w.db → w.db.SlotsKept slot x.db := by
    intro x hx
    rw [hx]
    exact .refl _
  have hstmt : ∀ {α : Type} (f : MasterDB → Except MasterErr α × MasterDB), w.db.SlotsKept slot (f w.db).2 →
      w.db.SlotsKept slot (env.fault.apply .other (onMasterBookings f) w).2.db := by
    intro α f hf
    rcases onMasterBookings_db env.fault f w with h | h <;> rw [h]
    · exact .refl _
    · exact hf
  cases o with
  | now | newUUID | getBySlug | hasSlotBlockConflict => exact hquiet rfl
  | createPayment req => exact hquiet (MasterOp.createPayment_db env req w)
  | getBookingByID j | selectPayment j => exact hstmt _ (.refl _)
  | insertBooking b => exact hstmt _ (.insert ho _)
  | deleteBooking j => exact hstmt _ (.delete _ _)
  | updateByPayment target j pid =>
    exact hstmt _ (.update (f := fun b => { b with status := target, paymentID := pid }) (fun _ => ⟨rfl, rfl⟩) _)
  | setBookingPayment j pid url price st =>
    refine hstmt _ ?_
    rw [MasterRepo.setBookingPayment_db]
    exact .update (f := fun b => { b with
      paymentID := trimSpace pid, paymentURL := trimSpace url, totalPrice := price, status := st }) (fun _ => ⟨rfl, rfl⟩) _

section Programs

-- a text that is trimmed is not to be computed when a program is unfolded
attribute [local irreducible] trimSpace

namespace MasterUseCase

variable (uc : MasterUseCase) {t : Time} {w w' : MasterWorld}

theorem checkBooking_slot {m : Master} {inp : CreateMasterBookingInput} {checked : (Date × TimeOfDay × TimeOfDay) × ℤ}
    (h : uc.checkBooking m inp t = .ok checked) :
    validateBookingSlot (uc.moscowDate t) inp.date inp.timeFrom inp.timeTo = .ok checked.1 := by
  unfold checkBooking at h
  cases hpayout : m.validatePayoutProfile with
  | error err =>
    rw [hpayout] at h
    cases h
  | ok _ =>
    rw [hpayout] at h
    cases hslot : validateBookingSlot (uc.moscowDate t) inp.date inp.timeFrom inp.timeTo with
    | error err =>
      rw [hslot] at h
      cases h
    | ok slot =>
      rw [hslot] at h
      dsimp only at h
      split at h
      · cases h
      · rw [← Except.ok.inj h]

theorem storeBooking_slotted (b : MasterBooking) : (uc.storeBooking b).All (MasterOp.Slotted b.slot) := by
  simp only [storeBooking, Prog.bind_eq, Prog.perform_bind, Prog.pure_eq]
  refine ⟨rfl, fun inserted => ?_⟩
  cases inserted with
  | error err => cases err <;> trivial
  | ok _ =>
    refine ⟨trivial, fun paid => ?_⟩
    cases paid with
    | error err => exact ⟨trivial, fun _ => trivial⟩
    | ok pay =>
      refine ⟨trivial, fun written => ?_⟩
      cases written with
      | error err => exact ⟨trivial, fun _ => trivial⟩
      | ok _ =>
        refine ⟨trivial, fun fresh => ?_⟩
        cases fresh <;> trivial

/-- **What `CreateBooking` stores has a slot that the check has let through.** -/
theorem createBooking_slot {inp : CreateMasterBookingInput} {p : MasterProg (Except MasterErr (Option MasterBooking))}
    (hp : uc.createBooking inp = p) {res : Except MasterErr (Option MasterBooking)} (h : p.Runs (MasterOp.At t) w res w')
    {b : MasterBooking} (hb : b ∈ w'.db.rows) (hnew : ∀ x ∈ w.db.rows, x.id ≠ b.id) :
    validateBookingSlot (uc.moscowDate t) inp.date inp.timeFrom inp.timeTo = .ok b.slot := by
  subst hp
  have hsame : ¬ w'.db = w.db := by
    intro hdb
    rw [hdb] at hb
    exact hnew b hb rfl
  -- what reads no more than the master and the clock leaves the bookings
  have hstop : ∀ {x : MasterWorld} {q : MasterProg (Except MasterErr (Option MasterBooking))} {e : MasterErr},
      x.db = w.db → q = .ret (.error e) → ¬ q.Runs (MasterOp.At t) x res w' := by
    rintro x q e hx rfl ⟨-, rfl⟩
    exact hsame hx
  simp only [createBooking, Prog.bind_eq, Prog.perform_bind, Prog.pure_eq] at h
  split at h
  · exact absurd h (hstop rfl rfl)
  obtain ⟨found, w₁, hfound, h⟩ := h
  have h₁ : w₁.db = w.db := by
    obtain ⟨env, -, hrun⟩ := hfound
    obtain ⟨-, rfl⟩ := Prod.mk.inj hrun
    rfl
  cases found with
  | error err => exact absurd h (hstop h₁ rfl)
  | ok found =>
    cases found with
    | none => exact absurd h (hstop h₁ rfl)
    | some m =>
      dsimp only at h
      split at h
      · exact absurd h (hstop h₁ rfl)
      split at h
      · exact absurd h (hstop h₁ rfl)
      obtain ⟨now, w₂, ⟨env, hnow, hrun⟩, h⟩ := h
      obtain ⟨rfl, rfl⟩ := Prod.mk.inj hrun
      dsimp only at h
      rw [hnow] at h
      cases hcheck : uc.checkBooking m inp t with
      | error err =>
        rw [hcheck] at h
        exact absurd h (hstop h₁ rfl)
      | ok checked =>
        rw [hcheck] at h
        obtain ⟨blocked, w₃, ⟨env₃, -, hrun₃⟩, h⟩ := h
        obtain ⟨-, rfl⟩ := Prod.mk.inj hrun₃
        cases blocked with
        | error err => exact absurd h (hstop h₁ rfl)
        | ok blocked =>
          cases blocked with
          | true => exact absurd h (hstop h₁ rfl)
          | false =>
            obtain ⟨id, w₄, ⟨env₄, -, hrun₄⟩, h⟩ := h
            have h₄ : w₄.db = w.db := by
              obtain ⟨-, rfl⟩ := Prod.mk.inj hrun₄
              exact h₁
            have hkept : w₄.db.SlotsKept checked.1 w'.db := by
              refine Prog.All.runs (R := fun x x' : MasterWorld => x.db.SlotsKept checked.1 x'.db) (fun _ => .refl _)
                (fun _ _ _ => .trans) (fun o x r x' ho (he : MasterOp.At t o x r x') => he.slots ho) ?_ h
              exact uc.storeBooking_slotted _
            rw [h₄] at hkept
            obtain hslot | ⟨x, hx, hid, -⟩ := hkept b hb
            · rw [hslot]
              exact uc.checkBooking_slot hcheck
            · exact absurd hid (hnew x hx)

end MasterUseCase

end Programs

/-- It ends after the moment at which it is made, and counts as a visit, once confirmed, only when it has ended since then. -/
structure MasterBooking.EndsLater (b : MasterBooking) (made : WallClock) : Prop where
  later : made.instant < b.ends
  counted : ∀ now : WallClock, made.instant ≤ now.instant → MasterBooking.completedBy { b with status := .confirmed } now = true →
    made.instant < b.ends ∧ b.ends < now.instant

theorem MasterBooking.endsLater_of_lt {b : MasterBooking} {made : WallClock} (h : made.instant < b.ends) : b.EndsLater made := by
  refine ⟨h, fun now _ hcounts => ⟨h, ?_⟩⟩
  simp only [completedBy, Bool.or_eq_true, beq_iff_eq, reduceCtorEq, false_or, Bool.and_eq_true, true_and,
    decide_eq_true_eq] at hcounts
  exact hcounts

/-- **A booking that is made ends later exactly if it is not for today or the clock has not passed its end.** -/
theorem endsLater_iff (clock : Time → WallClock) (sha256Hex : String → String) (t : Time) (inp : CreateMasterBookingInput)
    (w w' : MasterWorld) (res : Except MasterErr (Option MasterBooking)) :
    (MasterUseCase.createBooking ⟨fun t => (clock t).date, sha256Hex⟩ inp).Runs (MasterOp.At t) w res w' →
    ∀ b ∈ w'.db.rows, (∀ x ∈ w.db.rows, x.id ≠ b.id) →
      (b.EndsLater (clock t) ↔ b.date.dayNumber ≠ (clock t).date.dayNumber ∨ (clock t).nanos < b.timeTo.nanos) := by
  generalize hp : MasterUseCase.createBooking ⟨fun t => (clock t).date, sha256Hex⟩ inp = p
  intro h b hb hnew
  have hslot := MasterUseCase.createBooking_slot _ hp h hb hnew
  obtain ⟨-, hday, -⟩ := validateBookingSlot_minutes hslot
  have hday : (clock t).date.dayNumber ≤ b.date.dayNumber := hday
  have hnanos := (clock t).nanos_lt
  have hends : b.ends = b.date.dayNumber * dayNanos + b.timeTo.nanos := rfl
  have hnow : (clock t).instant = (clock t).date.dayNumber * dayNanos + (clock t).nanos := rfl
  constructor
  · intro hlater
    have hlt := hlater.later
    by_cases htoday : b.date.dayNumber = (clock t).date.dayNumber
    · rw [hends, hnow, htoday] at hlt
      exact .inr (by omega)
    · exact .inl htoday
  · intro hcond
    refine MasterBooking.endsLater_of_lt ?_
    rw [hends, hnow]
    by_cases htoday : b.date.dayNumber = (clock t).date.dayNumber
    · have := hcond.resolve_left fun hne => hne htoday
      rw [htoday]
      omega
    · have hnext : ((clock t).date.dayNumber + 1) * dayNanos ≤ b.date.dayNumber * dayNanos :=
        Nat.mul_le_mul_right _ (by omega)
      rw [Nat.add_mul, Nat.one_mul] at hnext
      omega

/-- An hour of the second of January. -/
def onTheDay (hour : ℕ) (h : hour < 24) : WallClock := ⟨⟨2026, 1, 2⟩, hour * (3600 * 10 ^ 9), by unfold dayNanos; omega⟩

/-- What Anna is asked for on the day itself is stored at any hour. -/
theorem annas_stored (clock : Time → WallClock) (hclock : (fun t => (clock t).date) = fun _ => ⟨2026, 1, 2⟩) : ∃ res w',
    (MasterUseCase.createBooking ⟨fun t => (clock t).date, id⟩ annasInput).Runs (MasterOp.At 0) annasEmpty res w' ∧
      ∃ b ∈ w'.db.rows, b.slot = (⟨2026, 1, 2⟩, ⟨10, 0⟩, ⟨11, 0⟩) := by
  rw [hclock]
  generalize hp : MasterUseCase.createBooking ⟨fun _ => ⟨2026, 1, 2⟩, id⟩ annasInput = p
  have hslots : (p.eval (MasterOp.run (annasEnv annasBookingID annasPaymentID)) annasEmpty).2.db.rows.map (·.slot) =
      [(⟨2026, 1, 2⟩, ⟨10, 0⟩, ⟨11, 0⟩)] := by
    rw [← hp]
    decide +kernel
  have hruns : p.Runs (MasterOp.At 0) annasEmpty (p.eval (MasterOp.run (annasEnv annasBookingID annasPaymentID)) annasEmpty).1
      (p.eval (MasterOp.run (annasEnv annasBookingID annasPaymentID)) annasEmpty).2 :=
    Prog.runs_eval (fun o w => ⟨annasEnv annasBookingID annasPaymentID, rfl, rfl⟩) p annasEmpty
  have hmem : (⟨2026, 1, 2⟩, ⟨10, 0⟩, ⟨11, 0⟩) ∈
      (p.eval (MasterOp.run (annasEnv annasBookingID annasPaymentID)) annasEmpty).2.db.rows.map (·.slot) := by
    rw [hslots]
    exact List.mem_singleton.2 rfl
  exact ⟨_, _, hruns, List.mem_map.1 hmem⟩

theorem endsLater_anna : ∃ b : MasterBooking, b.slot = (⟨2026, 1, 2⟩, ⟨10, 0⟩, ⟨11, 0⟩) ∧ b.EndsLater (onTheDay 9 (by decide)) := by
  obtain ⟨res, w', hruns, b, hb, hslot⟩ := annas_stored (fun _ => onTheDay 9 (by decide)) rfl
  have hto : b.timeTo = ⟨11, 0⟩ := congrArg (·.2.2) hslot
  refine ⟨b, hslot, (endsLater_iff (fun _ => onTheDay 9 (by decide)) id 0 annasInput annasEmpty w' res hruns b hb nofun).2 (.inr ?_)⟩
  rw [hto]
  decide

/-- At noon an hour of the morning can still be booked. -/
theorem booked_when_over : ¬ ∀ (clock : Time → WallClock) (sha256Hex : String → String) (t : Time) (inp : CreateMasterBookingInput)
    (w w' : MasterWorld) (res : Except MasterErr (Option MasterBooking)),
    (MasterUseCase.createBooking ⟨fun t => (clock t).date, sha256Hex⟩ inp).Runs (MasterOp.At t) w res w' →
    ∀ b ∈ w'.db.rows, (∀ x ∈ w.db.rows, x.id ≠ b.id) → b.EndsLater (clock t) := by
  intro hall
  obtain ⟨res, w', hruns, b, hb, hslot⟩ := annas_stored (fun _ => onTheDay 12 (by decide)) rfl
  have hlater := (hall (fun _ => onTheDay 12 (by decide)) id 0 annasInput annasEmpty w' res hruns b hb nofun).later
  have hdate : b.date = ⟨2026, 1, 2⟩ := congrArg (·.1) hslot
  have hto : b.timeTo = ⟨11, 0⟩ := congrArg (·.2.2) hslot
  unfold MasterBooking.ends at hlater
  rw [hdate, hto] at hlater
  exact absurd hlater (by decide)

/-! ### The clients of a master -/

/-- `domain.MasterClient`, before its segments. -/
structure MasterClient where
  userID : String
  bookingsCount : ℕ
  visitsCount : ℕ
  totalSpent : ℤ
  firstVisitAt : Option Date
  lastVisitAt : Option Date
  lastBookingAt : Option Time
deriving DecidableEq, Repr

namespace MasterRepo

/-- The row of one client. -/
def clientRow (today : Date) (clientUserID : String) (bookings : List MasterBooking) : MasterClient :=
  let visits := bookings.filter (·.visited today)
  { userID := clientUserID
    bookingsCount := bookings.length
    visitsCount := visits.length
    totalSpent := (visits.map (·.totalPrice)).sum
    firstVisitAt := (visits.map (·.date)).argmin Date.dayNumber
    lastVisitAt := (visits.map (·.date)).argmax Date.dayNumber
    lastBookingAt := (bookings.map (·.createdAt)).max? }

/-- `COUNT(*)::int` and `SUM(total_price)::bigint` are in range. -/
def inRange (c : MasterClient) : Bool :=
  decide (c.bookingsCount < 2 ^ 31) && decide (-2 ^ 63 ≤ c.totalSpent) && decide (c.totalSpent < 2 ^ 63)

def listClientsByMaster (now : WallClock) (masterID : String) (db : MasterDB) : Except MasterErr (List MasterClient) :=
  let bookings := db.select (·.masterID == masterID)
  let clients := (bookings.map (·.clientUserID)).dedup.map fun c => clientRow now.date c (bookings.filter (·.clientUserID == c))
  if clients.all inRange then .ok clients else .error (.other (.plain "ERROR: integer out of range (SQLSTATE 22003)"))

end MasterRepo

/-- The bookings of a client with a master. -/
def MasterDB.between (db : MasterDB) (clientUserID masterID : String) : List MasterBooking :=
  (db.select (·.masterID == masterID)).filter (·.clientUserID == clientUserID)

/-- For none of the clients of the master is there a number that its column does not hold. -/
def MasterDB.Countable (db : MasterDB) (masterID : String) (today : Date) : Prop :=
  ∀ clientUserID, (db.between clientUserID masterID).length < 2 ^ 31 ∧
    -2 ^ 63 ≤ (((db.between clientUserID masterID).filter (·.visited today)).map (·.totalPrice)).sum ∧
    (((db.between clientUserID masterID).filter (·.visited today)).map (·.totalPrice)).sum < 2 ^ 63

/-- A confirmed booking of this very day whose end has passed. -/
def MasterBooking.endedToday (b : MasterBooking) (now : WallClock) : Prop :=
  b.status = .confirmed ∧ b.date.dayNumber = now.date.dayNumber ∧ b.timeTo.nanos < now.nanos

namespace MasterRepo

variable {db : MasterDB} {now : WallClock} {clientUserID masterID : String}

theorem mem_between {b : MasterBooking} : b ∈ db.between clientUserID masterID ↔
    b ∈ db.rows ∧ b.clientUserID = clientUserID ∧ b.masterID = masterID := by
  simp only [MasterDB.between, Table.select, List.mem_filter, beq_iff_eq]
  exact ⟨fun ⟨⟨hb, hm⟩, hc⟩ => ⟨hb, hc, hm⟩, fun ⟨hb, hc, hm⟩ => ⟨⟨hb, hm⟩, hc⟩⟩

theorem hasCompleted_iff : hasCompletedBookingByClientMaster now clientUserID masterID db = true ↔
    ∃ b ∈ db.between clientUserID masterID, b.completedBy now = true := by
  simp only [hasCompletedBookingByClientMaster, List.any_eq_true, Bool.and_eq_true, beq_iff_eq]
  constructor
  · rintro ⟨b, hb, ⟨hc, hm⟩, hdone⟩
    exact ⟨b, mem_between.2 ⟨hb, hc, hm⟩, hdone⟩
  · rintro ⟨b, hb, hdone⟩
    obtain ⟨hb, hc, hm⟩ := mem_between.1 hb
    exact ⟨b, hb, ⟨hc, hm⟩, hdone⟩

/-- **A booking is over if it is a visit, or one of this day that has ended.** -/
theorem completedBy_iff {b : MasterBooking} (hto : b.timeTo.Valid) :
    b.completedBy now = true ↔ b.visited now.date = true ∨ b.endedToday now := by
  obtain ⟨hh, hm⟩ := hto
  have hend : b.timeTo.nanos < dayNanos := by
    unfold TimeOfDay.nanos dayNanos
    omega
  have hclock := now.nanos_lt
  have hlt : b.ends < now.instant ↔ b.date.dayNumber < now.date.dayNumber ∨
      (b.date.dayNumber = now.date.dayNumber ∧ b.timeTo.nanos < now.nanos) := by
    unfold MasterBooking.ends WallClock.instant
    rcases Nat.lt_trichotomy b.date.dayNumber now.date.dayNumber with h | h | h
    · have := Nat.mul_le_mul_right dayNanos (Nat.succ_le_of_lt h)
      rw [Nat.succ_mul] at this
      omega
    · rw [h]
      omega
    · have := Nat.mul_le_mul_right dayNanos (Nat.succ_le_of_lt h)
      rw [Nat.succ_mul] at this
      omega
  simp only [MasterBooking.completedBy, MasterBooking.visited, MasterBooking.endedToday, Bool.or_eq_true, Bool.and_eq_true,
    beq_iff_eq, decide_eq_true_eq, hlt, and_or_left, or_assoc]

theorem inRange_clientRow (client : String) :
    inRange (clientRow now.date client (db.between client masterID)) = true ↔ (db.between client masterID).length < 2 ^ 31 ∧
      -2 ^ 63 ≤ (((db.between client masterID).filter (·.visited now.date)).map (·.totalPrice)).sum ∧
      (((db.between client masterID).filter (·.visited now.date)).map (·.totalPrice)).sum < 2 ^ 63 := by
  unfold inRange clientRow
  rw [Bool.and_eq_true, Bool.and_eq_true, decide_eq_true_iff, decide_eq_true_iff, decide_eq_true_iff, and_assoc]

/-- The rows of the list, one for each client who has booked. -/
def clientRows (now : WallClock) (masterID : String) (db : MasterDB) : List MasterClient :=
  ((db.select (·.masterID == masterID)).map (·.clientUserID)).dedup.map fun c => clientRow now.date c (db.between c masterID)

theorem mem_clients {client : String} : client ∈ ((db.select (·.masterID == masterID)).map (·.clientUserID)).dedup ↔
    ∃ b, b ∈ db.between client masterID := by
  rw [List.mem_dedup, List.mem_map]
  constructor
  · rintro ⟨b, hb, rfl⟩
    exact ⟨b, List.mem_filter.2 ⟨hb, beq_self_eq_true _⟩⟩
  · rintro ⟨b, hb⟩
    obtain ⟨hb, hc⟩ := List.mem_filter.1 hb
    exact ⟨b, hb, beq_iff_eq.1 hc⟩

theorem countable_iff : (clientRows now masterID db).all inRange = true ↔ db.Countable masterID now.date := by
  simp only [clientRows, List.all_map, List.all_eq_true, Function.comp_apply]
  constructor
  · intro h client
    by_cases hbooked : ∃ b, b ∈ db.between client masterID
    · exact (inRange_clientRow client).1 (h client (mem_clients.2 hbooked))
    · have hnil : db.between client masterID = [] := List.eq_nil_iff_forall_not_mem.2 fun b hb => hbooked ⟨b, hb⟩
      rw [hnil]
      exact ⟨Nat.two_pow_pos 31, by simp, by simp⟩
  · intro h client _
    exact (inRange_clientRow client).2 (h client)

theorem listClients_eq : listClientsByMaster now masterID db = if (clientRows now masterID db).all inRange then
    .ok (clientRows now masterID db) else .error (.other (.plain "ERROR: integer out of range (SQLSTATE 22003)")) := rfl

/-- **The list reports a visit of a client if its numbers are in range and he has one.** -/
theorem listClients_reports : (∃ cs, listClientsByMaster now masterID db = .ok cs ∧
    ∃ c ∈ cs, c.userID = clientUserID ∧ 0 < c.visitsCount) ↔
      db.Countable masterID now.date ∧ ∃ b ∈ db.between clientUserID masterID, b.visited now.date = true := by
  rw [listClients_eq, ← countable_iff]
  constructor
  · rintro ⟨cs, hcs, c, hc, rfl, hvisits⟩
    by_cases hall : (clientRows now masterID db).all inRange = true
    · rw [if_pos hall] at hcs
      obtain rfl := Except.ok.inj hcs
      obtain ⟨client, -, rfl⟩ := List.mem_map.1 hc
      obtain ⟨b, hb⟩ := List.exists_mem_of_length_pos hvisits
      obtain ⟨hb, hvisited⟩ := List.mem_filter.1 hb
      exact ⟨hall, b, hb, hvisited⟩
    · rw [if_neg hall] at hcs
      cases hcs
  · rintro ⟨hall, b, hb, hvisited⟩
    rw [if_pos hall]
    refine ⟨_, rfl, _, List.mem_map.2 ⟨clientUserID, mem_clients.2 ⟨b, hb⟩, rfl⟩, rfl, ?_⟩
    exact List.length_pos_of_mem (List.mem_filter.2 ⟨hb, hvisited⟩)

/-- **The two definitions of a visit agree exactly if a client who has visited has numbers in range, and one of whose visits
one has ended today has an earlier one.** -/
theorem visits_agree_iff (hrows : ∀ b ∈ db.rows, b.timeTo.Valid) :
    (hasCompletedBookingByClientMaster now clientUserID masterID db = true ↔ ∃ cs, listClientsByMaster now masterID db = .ok cs ∧
      ∃ c ∈ cs, c.userID = clientUserID ∧ 0 < c.visitsCount) ↔
    ((∃ b ∈ db.between clientUserID masterID, b.visited now.date = true) → db.Countable masterID now.date) ∧
      ((∃ b ∈ db.between clientUserID masterID, b.endedToday now) →
        ∃ b ∈ db.between clientUserID masterID, b.visited now.date = true) := by
  have hdone : hasCompletedBookingByClientMaster now clientUserID masterID db = true ↔
      (∃ b ∈ db.between clientUserID masterID, b.visited now.date = true) ∨
        ∃ b ∈ db.between clientUserID masterID, b.endedToday now := by
    rw [hasCompleted_iff]
    constructor
    · rintro ⟨b, hb, hdone⟩
      rcases (completedBy_iff (hrows b (mem_between.1 hb).1)).1 hdone with h | h
      · exact .inl ⟨b, hb, h⟩
      · exact .inr ⟨b, hb, h⟩
    · rintro (⟨b, hb, h⟩ | ⟨b, hb, h⟩)
      · exact ⟨b, hb, (completedBy_iff (hrows b (mem_between.1 hb).1)).2 (.inl h)⟩
      · exact ⟨b, hb, (completedBy_iff (hrows b (mem_between.1 hb).1)).2 (.inr h)⟩
  rw [hdone, listClients_reports]
  generalize (∃ b ∈ db.between clientUserID masterID, b.visited now.date = true) = visited
  generalize (∃ b ∈ db.between clientUserID masterID, b.endedToday now) = ended
  by_cases hvisited : visited <;> simp [hvisited]

end MasterRepo

/-- Anna's client has been there this morning. -/
def annasMorning (status : BookingStatus) : MasterDB := ⟨[{ annasBooking with status := status }], by cases status <;> decide, by simp⟩

theorem visits_agree_anna : MasterRepo.hasCompletedBookingByClientMaster (onTheDay 12 (by decide)) annasInput.clientUserID anna.id
    (annasMorning .completed) = true ↔ ∃ cs, MasterRepo.listClientsByMaster (onTheDay 12 (by decide)) anna.id
      (annasMorning .completed) = .ok cs ∧ ∃ c ∈ cs, c.userID = annasInput.clientUserID ∧ 0 < c.visitsCount := by
  refine (MasterRepo.visits_agree_iff (by decide)).2 ⟨fun _ => MasterRepo.countable_iff.1 (by decide +kernel), fun _ => ?_⟩
  exact ⟨{ annasBooking with status := .completed }, by decide, by decide⟩

/-- A visit of this morning lets a review be written, and is not yet one in the list. -/
theorem morning_differs : ¬ ∀ (db : MasterDB) (now : WallClock) (clientUserID masterID : String), (∀ b ∈ db.rows, b.timeTo.Valid) →
    (MasterRepo.hasCompletedBookingByClientMaster now clientUserID masterID db = true ↔
      ∃ cs, MasterRepo.listClientsByMaster now masterID db = .ok cs ∧ ∃ c ∈ cs, c.userID = clientUserID ∧ 0 < c.visitsCount) := by
  intro hall
  obtain ⟨cs, hcs, c, hc, -, hvisits⟩ := (hall (annasMorning .confirmed) (onTheDay 12 (by decide)) annasInput.clientUserID anna.id
    (by decide)).1 (by decide)
  have hlist : (match MasterRepo.listClientsByMaster (onTheDay 12 (by decide)) anna.id (annasMorning .confirmed) with
    | .ok cs => cs.all (·.visitsCount == 0)
    | .error _ => true) = true := by decide +kernel
  rw [hcs] at hlist
  have := List.all_eq_true.1 hlist c hc
  rw [beq_iff_eq] at this
  omega

/-! ## Who may look at a booking -/

/-- `uuid.Nil`. -/
def uuidNil : String := "00000000-0000-0000-0000-000000000000"

/-- The bookings and the profiles of the masters, whom the bookings refer to. -/
structure MasterStore where
  masters : ProfileTable
  bookings : MasterDB
  referred : ∀ b ∈ bookings.rows, ∃ m ∈ masters.rows, m.id = b.masterID

/-- The same without the reference. -/
structure LooseStore where
  masters : ProfileTable
  bookings : MasterDB

namespace MasterRepo

def getBookingsByIDs (bookingIDs : List String) (db : MasterDB) : List MasterBooking :=
  if bookingIDs = [] then [] else db.select fun b => bookingIDs.contains b.id

/-- The pairs of the map. -/
def getMasterUserIDsByIDs (masterIDs : List String) (t : ProfileTable) : List (String × String) :=
  if masterIDs = [] then [] else (t.select fun m => masterIDs.contains m.id).map fun m => (m.id, m.userID)

end MasterRepo

/-- A key that is not in the map yields the zero value. -/
def mapGet (m : List (String × String)) (k : String) : String := ((m.find? fun e => e.1 == k).map (·.2)).getD uuidNil

namespace LooseStore

variable (s : LooseStore)

def getBookingsForActorBatch (bookingIDs : List String) (actorUserID : String) : List MasterBooking :=
  if bookingIDs = [] then []
  else
    let bookings := MasterRepo.getBookingsByIDs bookingIDs s.bookings
    let masterIDs := ((bookings.filter (·.clientUserID != actorUserID)).map (·.masterID)).dedup
    let ownerByMaster := MasterRepo.getMasterUserIDsByIDs masterIDs s.masters
    bookings.filter fun b => b.clientUserID == actorUserID || mapGet ownerByMaster b.masterID == actorUserID

def getBookingForActor (bookingID actorUserID : String) : Except Err MasterBooking :=
  match s.bookings.find bookingID with
  | none => .error (.status .notFound "booking not found")
  | some b =>
    if b.clientUserID = actorUserID then .ok b
    else
      match ProfileRepo.getByID b.masterID s.masters with
      | none => .error (.status .notFound "master not found")
      | some m => if m.userID ≠ actorUserID then .error (.status .permissionDenied "access denied") else .ok b

/-- The master of a booking, or nil where there is none. -/
def owner (b : MasterBooking) : Option MasterProfile := ProfileRepo.getByID b.masterID s.masters

theorem getBookingForActor_ok_iff {id actor : String} {b : MasterBooking} : s.getBookingForActor id actor = .ok b ↔
    b ∈ s.bookings.rows ∧ b.id = id ∧ (b.clientUserID = actor ∨ ∃ m, s.owner b = some m ∧ m.userID = actor) := by
  unfold getBookingForActor
  cases hfind : s.bookings.find id with
  | none =>
    constructor
    · intro h
      cases h
    · rintro ⟨hb, rfl, -⟩
      have := Table.get_eq_none.1 hfind b hb
      simp at this
  | some x =>
    obtain ⟨hx, hid⟩ := Table.get_mem hfind
    have hid : x.id = id := beq_iff_eq.1 hid
    have honly : ∀ b ∈ s.bookings.rows, b.id = id → b = x := by
      intro b hb hbid
      refine s.bookings.eq_of_clash hb hx ?_
      simp [masterBookingSchema, hbid, hid]
    dsimp only
    by_cases hclient : x.clientUserID = actor
    · rw [if_pos hclient]
      constructor
      · intro h
        obtain rfl := Except.ok.inj h
        exact ⟨hx, hid, .inl hclient⟩
      · rintro ⟨hb, hbid, -⟩
        rw [honly b hb hbid]
    · rw [if_neg hclient]
      cases howner : ProfileRepo.getByID x.masterID s.masters with
      | none =>
        constructor
        · intro h
          cases h
        · rintro ⟨hb, hbid, hc | ⟨m, hm, -⟩⟩
          · exact absurd (honly b hb hbid ▸ hc) hclient
          · rw [honly b hb hbid, owner, howner] at hm
            cases hm
      | some m =>
        dsimp only
        by_cases hm : m.userID = actor
        · rw [if_neg (not_not.2 hm)]
          constructor
          · intro h
            obtain rfl := Except.ok.inj h
            exact ⟨hx, hid, .inr ⟨m, howner, hm⟩⟩
          · rintro ⟨hb, hbid, -⟩
            rw [honly b hb hbid]
        · rw [if_pos hm]
          constructor
          · intro h
            cases h
          · rintro ⟨hb, hbid, hc | ⟨m', hm', hactor⟩⟩
            · exact absurd (honly b hb hbid ▸ hc) hclient
            · rw [honly b hb hbid, owner, howner] at hm'
              rw [Option.some.inj hm'] at hm
              exact absurd hactor hm

/-- What the map says of a master who was asked for. -/
theorem mapGet_owner {masterIDs : List String} {id : String} (h : id ∈ masterIDs) :
    mapGet (MasterRepo.getMasterUserIDsByIDs masterIDs s.masters) id =
      ((ProfileRepo.getByID id s.masters).map (·.userID)).getD uuidNil := by
  have hne : masterIDs ≠ [] := List.ne_nil_of_mem h
  have hkey : (fun m : MasterProfile => decide (masterIDs.contains m.id = true ∧ (m.id == id) = true)) = fun m => m.id == id := by
    funext m
    by_cases hm : m.id = id
    · simp [hm, h]
    · simp [hm]
  unfold mapGet MasterRepo.getMasterUserIDsByIDs ProfileRepo.getByID Table.get Table.select
  rw [if_neg hne, List.find?_map, List.find?_filter, Option.map_map]
  simp only [Function.comp_def]
  rw [hkey]

theorem mem_batch_iff {ids : List String} {actor : String} {b : MasterBooking} : b ∈ s.getBookingsForActorBatch ids actor ↔
    b ∈ s.bookings.rows ∧ b.id ∈ ids ∧
      (b.clientUserID = actor ∨ ((s.owner b).map (·.userID)).getD uuidNil = actor) := by
  unfold getBookingsForActorBatch MasterRepo.getBookingsByIDs
  by_cases hids : ids = []
  · rw [if_pos hids, hids]
    simp
  rw [if_neg hids, if_neg hids]
  simp only [Table.select, List.mem_filter, List.contains_iff_mem, Bool.or_eq_true, beq_iff_eq, and_assoc]
  refine and_congr_right fun hb => and_congr_right fun hid => ?_
  by_cases hclient : b.clientUserID = actor
  · simp [hclient]
  · have hasked : b.masterID ∈ (((s.bookings.rows.filter fun b => ids.contains b.id).filter (·.clientUserID != actor)).map
        (·.masterID)).dedup := by
      refine List.mem_dedup.2 (List.mem_map.2 ⟨b, ?_, rfl⟩)
      exact List.mem_filter.2 ⟨List.mem_filter.2 ⟨hb, by simpa using hid⟩, by simpa using hclient⟩
    rw [s.mapGet_owner hasked]
    rfl

theorem batch_nodup (ids : List String) (actor : String) : (s.getBookingsForActorBatch ids actor).Nodup := by
  unfold getBookingsForActorBatch MasterRepo.getBookingsByIDs
  by_cases hids : ids = []
  · rw [if_pos hids]
    exact List.nodup_nil
  · rw [if_neg hids, if_neg hids]
    have hrows : s.bookings.rows.Nodup := s.bookings.noClash.imp fun h hab => by simp [hab, masterBookingSchema] at h
    exact (hrows.filter _).filter _

/-- **Where no booking is without its master, or the actor is somebody, the batch is what is shown one by one.** -/
theorem batch_eq_single {actor : String} (h : actor ≠ uuidNil ∨ ∀ b ∈ s.bookings.rows, (s.owner b).isSome = true)
    (ids : List String) (b : MasterBooking) :
    b ∈ s.getBookingsForActorBatch ids actor ↔ ∃ id ∈ ids, s.getBookingForActor id actor = .ok b := by
  rw [s.mem_batch_iff]
  constructor
  · rintro ⟨hb, hid, hactor⟩
    refine ⟨b.id, hid, s.getBookingForActor_ok_iff.2 ⟨hb, rfl, ?_⟩⟩
    rcases hactor with hclient | howner
    · exact .inl hclient
    · cases hm : s.owner b with
      | some m =>
        rw [hm] at howner
        exact .inr ⟨m, rfl, howner⟩
      | none =>
        rw [hm] at howner
        rcases h with hsomebody | hall
        · exact absurd howner.symm hsomebody
        · have := hall b hb
          rw [hm] at this
          cases this
  · rintro ⟨id, hid, hok⟩
    obtain ⟨hb, rfl, hactor⟩ := s.getBookingForActor_ok_iff.1 hok
    refine ⟨hb, hid, ?_⟩
    rcases hactor with hclient | ⟨m, hm, howner⟩
    · exact .inl hclient
    · rw [hm]
      exact .inr howner

end LooseStore

namespace MasterStore

def loose (s : MasterStore) : LooseStore := ⟨s.masters, s.bookings⟩

end MasterStore

end Agregator
