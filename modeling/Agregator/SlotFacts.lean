import Agregator.SlotCalls
/-!
# SlotFacts — what the answers of the booking service tell for good

A booking that was created or loaded is of its venue for as long as it is stored, and one that has its payment keeps it.
Only three statements take the life of a booking: its cancellation, its deletion and the reaper.
-/
namespace Agregator

open Rel Conc

namespace BookingDB

/-- The booking is there and not cancelled. -/
def Live (db : BookingDB) (id : String) : Prop := ∃ b, db.find id = some b ∧ b.status ≠ .cancelled

/-- The key has been given out, and the booking, for as long as it is stored, has the property. -/
def Always (db : BookingDB) (id : String) (p : Booking → Prop) : Prop := id ∈ db.issued ∧ ∀ b, db.find id = some b → p b

end BookingDB

/-- No statement takes the property from a row. -/
def Kept (p : Booking → Prop) : Prop := ∀ (o : BookOp) (j : String) (b b' : Booking), o.Writes j b b' → p b → p b'

theorem kept_venueID (v : String) : Kept (·.venueID = v) := by
  intro o j b b' h hb
  cases o with
  | setPaymentAndStatus =>
    obtain ⟨-, -, now, rfl⟩ := h
    exact hb
  | cancelWithEvent | updateStatus | autoCompleteVisitEnded | markCompletedEventSent =>
    obtain ⟨-, now, rfl⟩ := h
    exact hb
  | confirmPayment =>
    obtain ⟨-, -, now, rfl⟩ := h
    exact hb
  | getVenue | checkSlotAvailability | reserveSlot | releaseSlot | createPayment | publishBookingCompleted | now |
      getByID | findUnpublishedCompleted | findExpiredPaymentPending | create | delete | deleteOrphanPending => cases h

theorem kept_paymentID : Kept (·.paymentID ≠ "") := fun _ _ _ _ h hb => h.paymentID hb

namespace BookOp.Exec

variable {loc : Location} {o : BookOp} {db db' : BookingDB} {r : o.Res} {id : String}

/-- A key that was given out stays so. -/
theorem issued_mono (h : BookOp.Exec loc o db r db') (hi : id ∈ db.issued) : id ∈ db'.issued := by
  rcases h.state with rfl | ⟨env, -, hf, rfl⟩
  · exact hi
  rcases run_issued loc env hf o db with he | ⟨b, -, he⟩
  · rwa [he]
  · rw [he]
    exact List.mem_cons_of_mem _ hi

theorem always (h : BookOp.Exec loc o db r db') {p : Booking → Prop} (hp : Kept p) (ha : db.Always id p) :
    db'.Always id p := by
  refine ⟨h.issued_mono ha.1, fun b' hb' => ?_⟩
  have hrow := h.row id
  rw [hb'] at hrow
  generalize hx : db.find id = x at hrow
  cases hrow with
  | same => exact ha.2 b' hx
  | write b _ hw => exact hp o id b b' hw (ha.2 b hx)
  | create _ _ _ _ hnew => exact absurd ha.1 hnew

theorem created_issued {d b : Booking} (h : BookOp.Exec loc (.create d) db (.ok b) db') : b.id ∈ db'.issued := by
  obtain ⟨env, -, he⟩ := h
  have he := Fault.of_ok he
  unfold BookingRepo.create at he
  dsimp only at he
  split at he
  · cases he
  · cases he
    exact List.mem_cons_self

/-- A booking that is created is the draft under its key, and stored without a payment. -/
theorem created_row {d b : Booking} (h : BookOp.Exec loc (.create d) db (.ok b) db') (h0 : db.Opening) :
    b = { d with id := b.id, createdAt := b.createdAt, updatedAt := b.updatedAt } ∧
      db'.Always b.id (· = { b with paymentID := "", paymentURL := "", completedEventSentAt := none }) := by
  have hnew := h.created
  have hissued := h.created_issued
  obtain ⟨env, -, he⟩ := h
  have he := Fault.of_ok he
  unfold BookingRepo.create at he
  dsimp only at he
  split at he
  · cases he
  · rename_i bookings hi
    cases he
    refine ⟨rfl, hissued, fun row hrow => ?_⟩
    have hnone : db.bookings.get (·.id == env.newID) = none := by
      cases hg : db.bookings.get (·.id == env.newID) with
      | none => rfl
      | some x => exact absurd (h0 env.newID x hg) hnew
    simp only [BookingDB.find] at hrow
    rw [Table.get_insert hi, hnone, Option.none_or] at hrow
    simp only [beq_self_eq_true, if_true, Option.some.injEq] at hrow
    rw [← hrow]

theorem born {d b : Booking} (h : BookOp.Exec loc (.create d) db (.ok b) db') (h0 : db.Opening) :
    b.venueID = d.venueID ∧ db'.Always b.id (·.venueID = d.venueID) := by
  obtain ⟨hb, hissued, hrow⟩ := h.created_row h0
  have hv : b.venueID = d.venueID := by rw [hb]
  exact ⟨hv, hissued, fun row hr => by rw [hrow row hr]; exact hv⟩

/-- A payment that was put on a booking is on it, and the booking has the status asked for. -/
theorem paid {pid url : String} {st : BookingStatus} {ev : BookingEvent}
    (h : BookOp.Exec loc (.setPaymentAndStatus id pid url st ev) db (.ok ()) db') (h0 : db.Opening) :
    (∃ b, db'.find id = some b ∧ b.status = st) ∧ db'.Always id (·.paymentID ≠ "") := by
  have hissued : id ∈ db.issued → id ∈ db'.issued := h.issued_mono
  obtain ⟨env, -, he⟩ := h
  have he := Fault.of_ok he
  unfold BookingRepo.setPaymentAndStatus at he
  rcases uuidParam_cases pid with ⟨hu, hp⟩ | ⟨e, hu, -⟩
  · rw [hu] at he
    dsimp only at he
    obtain ⟨b, hb, hb'⟩ := BookingRepo.updateByID_done he (fun _ => rfl) (fun _ _ => rfl)
    refine ⟨⟨_, hb', rfl⟩, hissued (h0 id b hb), fun row hr => ?_⟩
    rw [hb'] at hr
    cases hr
    exact ne_empty_of_isUUID hp
  · rw [hu] at he
    cases he

/-- A cancellation that is reported done has found its booking. -/
theorem cancelled_ok {ev : BookingEvent} (h : BookOp.Exec loc (.cancelWithEvent id ev) db (.ok ()) db') :
    ∃ b, db.find id = some b := by
  obtain ⟨env, -, he⟩ := h
  have he := Fault.of_ok he
  unfold BookingRepo.cancelWithEvent at he
  obtain ⟨b, hb, -⟩ := BookingRepo.updateByID_done he (fun _ => rfl) (fun _ _ => rfl)
  exact ⟨b, hb⟩

/-- The reaper takes no booking that has its payment. -/
theorem reaped {age : ℤ} {r : Except Err ℕ} (h : BookOp.Exec loc (.deleteOrphanPending age) db r db') {b : Booking}
    (hb : db.find id = some b) (hp : b.paymentID ≠ "") : db'.find id = some b := by
  rcases h.state with rfl | ⟨env, -, hf, rfl⟩
  · exact hb
  · simp only [run, hf, Fault.apply_none, BookingRepo.deleteOrphanPending]
    rw [BookingDB.find_delete, hb, Option.bind_some]
    simp [BookingRepo.orphan, hp]

/-- **What takes the life of a booking**: its cancellation, its deletion, the reaper. -/
theorem live (h : BookOp.Exec loc o db r db') {did : BookEventLog} (hp : SlotPrior did o) (hl : db.Live id) :
    db'.Live id ∨ (∃ ev, o = .cancelWithEvent id ev) ∨ o = .delete id ∨
      ∃ age, o = .deleteOrphanPending age ∧ db'.find id = none := by
  obtain ⟨b, hb, hst⟩ := hl
  have hrow := h.row id
  rw [hb] at hrow
  generalize hy : db'.find id = y at hrow
  cases hrow with
  | same => exact .inl ⟨b, hy, hst⟩
  | write _ b' hw =>
    cases o with
    | setPaymentAndStatus =>
      obtain ⟨-, -, now, rfl⟩ := hw
      obtain ⟨rfl, -⟩ := hp
      exact .inl ⟨_, hy, by simp⟩
    | cancelWithEvent i ev =>
      obtain ⟨rfl, -⟩ := hw
      exact .inr (.inl ⟨ev, rfl⟩)
    | updateStatus =>
      obtain ⟨-, now, rfl⟩ := hw
      obtain rfl : _ = BookingStatus.completed := hp
      exact .inl ⟨_, hy, by simp⟩
    | confirmPayment =>
      obtain ⟨-, -, now, rfl⟩ := hw
      exact .inl ⟨_, hy, by simp [BookingRepo.confirmRow]⟩
    | autoCompleteVisitEnded =>
      obtain ⟨-, now, rfl⟩ := hw
      exact .inl ⟨_, hy, by simp⟩
    | markCompletedEventSent =>
      obtain ⟨-, now, rfl⟩ := hw
      exact .inl ⟨_, hy, hst⟩
    | getVenue | checkSlotAvailability | reserveSlot | releaseSlot | createPayment | publishBookingCompleted | now |
        getByID | findUnpublishedCompleted | findExpiredPaymentPending | create | delete | deleteOrphanPending => cases hw
  | delete _ hd =>
    cases o with
    | delete i =>
      obtain rfl : id = i := hd
      exact .inr (.inr (.inl rfl))
    | deleteOrphanPending age => exact .inr (.inr (.inr ⟨age, rfl, rfl⟩))
    | getVenue | checkSlotAvailability | reserveSlot | releaseSlot | createPayment | publishBookingCompleted | now |
        getByID | findUnpublishedCompleted | findExpiredPaymentPending | create | setPaymentAndStatus | cancelWithEvent |
        updateStatus | confirmPayment | autoCompleteVisitEnded | markCompletedEventSent => cases hd

end BookOp.Exec

/-! ## What the answers have told -/

/-- What an answer tells of the bookings. -/
def Told (db : BookingDB) : Event BookOp BookOp.Res → Prop
  | ⟨.create d, .ok b⟩ => b.venueID = d.venueID ∧ db.Always b.id (·.venueID = d.venueID)
  | ⟨.getByID id, .ok b⟩ => b.id = id ∧ db.Always id (·.venueID = b.venueID)
  | ⟨.setPaymentAndStatus id _ _ _ _, .ok _⟩ => db.Always id (·.paymentID ≠ "")
  | _ => True

/-- Nothing that is always so of a booking ceases to be so. -/
def Lasts (db db' : BookingDB) : Prop := ∀ id p, Kept p → db.Always id p → db'.Always id p

theorem Told.lasts {db db' : BookingDB} {e : Event BookOp BookOp.Res} (hl : Lasts db db') (ht : Told db e) : Told db' e := by
  obtain ⟨o, r⟩ := e
  cases o with
  | create d =>
    cases r with
    | error err => trivial
    | ok b => exact ⟨ht.1, hl _ _ (kept_venueID _) ht.2⟩
  | getByID id =>
    cases r with
    | error err => trivial
    | ok b => exact ⟨ht.1, hl _ _ (kept_venueID _) ht.2⟩
  | setPaymentAndStatus id pid url st ev =>
    cases r with
    | error err => trivial
    | ok _ => exact hl _ _ kept_paymentID ht
  | getVenue | checkSlotAvailability | reserveSlot | releaseSlot | createPayment | publishBookingCompleted | now |
      findUnpublishedCompleted | findExpiredPaymentPending | delete | deleteOrphanPending | cancelWithEvent |
      updateStatus | confirmPayment | autoCompleteVisitEnded | markCompletedEventSent => trivial

theorem BookOp.Exec.told {loc : Location} {o : BookOp} {db db' : BookingDB} {r : o.Res} (h : BookOp.Exec loc o db r db')
    (h0 : db.Opening) : Told db' ⟨o, r⟩ := by
  cases o with
  | create d =>
    cases r with
    | error err => trivial
    | ok b => exact h.born h0
  | getByID id =>
    cases r with
    | error err => trivial
    | ok b =>
      obtain ⟨rfl, hb⟩ := h.getByID
      refine ⟨(BookingDB.find_id hb).2, h0 id b hb, fun b' hb' => ?_⟩
      rw [hb] at hb'
      cases hb'
      rfl
  | setPaymentAndStatus id pid url st ev =>
    cases r with
    | error err => trivial
    | ok _ => exact (h.paid h0).2
  | getVenue | checkSlotAvailability | reserveSlot | releaseSlot | createPayment | publishBookingCompleted | now |
      findUnpublishedCompleted | findExpiredPaymentPending | delete | deleteOrphanPending | cancelWithEvent |
      updateStatus | confirmPayment | autoCompleteVisitEnded | markCompletedEventSent => trivial

section Runs

variable {uc : BookingUseCase} {text : TextRules} {w₀ : SlotWorld} {c : SlotConfig}

/-- **What the answers of a run have told is so.** -/
theorem slot_told (h0 : w₀.db.Opening) (h : (slotSys uc text).Reach anyStep w₀ c) :
    c.world.db.Opening ∧ ∀ t ∈ c.threads, ∀ e ∈ t.did, Told c.world.db e := by
  have hall : ∀ c : SlotCall, ((slotSys uc text).prog c).After (fun _ _ => True) [] := fun c =>
    Prog.All.after (Prog.All.of_forall (fun _ _ => trivial) _)
  obtain ⟨hI, hts⟩ := h.told (I := fun w => w.db.Opening) (R := fun w w' => Lasts w.db w'.db)
    (T := fun w e => Told w.db e) (K := fun _ _ => True) (P := fun _ _ _ => True) (fun _ _ _ hl ht => ht.lasts hl)
    (fun _ _ _ _ _ => trivial) hall h0 (fun _ _ _ => trivial)
    (fun w w' ts₁ ts₂ c h o k r _ _ hI _ _ _ he =>
      ⟨(he.db.opening hI).1, fun _ _ hp ha => he.db.always hp ha, he.db.told hI⟩)
    (fun w w' ts _ hI he => by
      rw [he.1]
      exact ⟨hI, fun _ _ _ ha => ha⟩)
  exact ⟨hI, fun t ht => (hts t ht).2⟩

/-- **A booking is created by one call only.** -/
theorem created_once {ts₁ ts₂ : List SlotThread} {t t' : SlotThread} {w : SlotWorld} {d d' b b' : Booking}
    (h : (slotSys uc text).Reach anyStep w₀ ⟨w, ts₁ ++ t :: ts₂⟩) (ht' : t' ∈ ts₁ ++ t :: ts₂)
    (hb : ⟨.create d, .ok b⟩ ∈ t.did) (hb' : ⟨.create d', .ok b'⟩ ∈ t'.did) (hid : b'.id = b.id) : t' = t := by
  have honce := h.once_others (E := fun e => ∃ d x, e = ⟨.create d, .ok x⟩ ∧ x.id = b.id)
    (F := fun w => b.id ∈ w.db.issued) (fun o w r w' (he : SlotWorld.Exec uc.loc text o w r w') hE => by
      obtain ⟨d, x, heq, hx⟩ := hE
      cases heq
      rw [← hx]
      exact ⟨he.db.created, he.db.created_issued⟩)
    (fun o w r w' (he : SlotWorld.Exec uc.loc text o w r w') hi => he.db.issued_mono hi) (fun w w' he hi => by rw [he.1]; exact hi) ⟨_, hb, d, b, rfl, rfl⟩
  by_contra hne
  refine honce t' ?_ _ hb' ⟨d', b', rfl, hid⟩
  rcases List.mem_append.1 ht' with ht' | ht'
  · exact List.mem_append_left _ ht'
  · rcases List.mem_cons.1 ht' with rfl | ht'
    · exact absurd rfl hne
    · exact List.mem_append_right _ ht'

end Runs

end Agregator
