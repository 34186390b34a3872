import Agregator.BookFacts
/-!
# BookStates — the status of a booking under concurrent operations

Cancellation and completion load a booking, check its status and write by id alone; only `ConfirmPayment` and the two
batch statements check it again in the write.  So the status keeps to its transitions in exactly the runs in which every
write by id finds the booking in a status its call still accepts (`statesKept_iff`).
-/
namespace Agregator

open Rel Conc

/-! ## What is to be kept -/

/-- A move of a stored status: none, a declared one, a booking created pending, one deleted before it is final. -/
def moves : Option BookingStatus → Option BookingStatus → Bool
  | none, none => true
  | none, some s => s == .pending
  | some s, none => !s.isTerminal
  | some s, some s' => s == s' || s.next s'

@[simp] theorem moves_refl (s : Option BookingStatus) : moves s s = true := by
  cases s <;> simp [moves]

theorem moves_terminal {s : BookingStatus} {s' : Option BookingStatus} (hs : s.isTerminal = true)
    (h : moves (some s) s' = true) : s' = some s := by
  cases s' with
  | none => simp [moves, hs] at h
  | some s' =>
    simp only [moves, BookingStatus.next_of_terminal hs, Bool.or_false, beq_iff_eq] at h
    rw [h]

namespace BookCall

/-- The calls that cancel a booking for want of its payment. -/
def byPayment : BookCall → Bool
  | cancelBookingByPayment _ | expireUnpaidBookings => true
  | _ => false

/-- The check a call makes of a booking it has loaded, made of the row it is about to write: the one of `SetPaymentAndStatus`
is that the booking is as it was created, and a booking is deleted before it is final. -/
def accepts (c : BookCall) (b : Booking) : BookOp → Bool
  | .setPaymentAndStatus _ _ _ _ _ => b.status == .pending
  | .cancelWithEvent _ _ => if c.byPayment then b.status == .paymentPending else b.canCancel
  | .updateStatus _ _ => b.canComplete
  | .delete _ => !b.isTerminal
  | _ => true

end BookCall

abbrev BookMoment := Moment BookingDB BookCall BookOp BookOp.Res (Option Err)

abbrev BookConfig := Config BookingDB BookCall BookOp BookOp.Res (Option Err)

/-- One operation keeps to the transitions, and cancels no confirmed booking for want of its payment. -/
structure StatusKept (m : BookMoment) : Prop where
  declared : ∀ id, moves (m.before.world.status id) (m.after.status id) = true
  unpaid : m.thread.call.byPayment = true → ∀ id, m.before.world.status id = some .confirmed →
    m.after.status id ≠ some .cancelled

/-- A run keeps to the transitions, and a final status stays. -/
structure StatesKept (w₀ : BookingDB) (tr : List BookMoment) (c : BookConfig) : Prop where
  each : ∀ m ∈ tr, StatusKept m
  final : ∀ id s, s.isTerminal = true → (∃ m ∈ tr, m.after.status id = some s) ∨ w₀.status id = some s →
    c.world.status id = some s

/-- A write by id finds a booking that its call still accepts, or that has the status it writes. -/
def StillAccepted (m : BookMoment) : Prop :=
  ∀ i s b, m.op.target = some (i, s) → m.before.world.find i = some b →
    some b.status = s ∨ m.thread.call.accepts b m.op = true

/-! ## What the programs do before they write -/

namespace BookCall

/-- The booking was created by the call itself. -/
def Created (h : List (Event BookOp BookOp.Res)) (id : String) : Prop := ∃ d b, ⟨.create d, .ok b⟩ ∈ h ∧ b.id = id

/-- What a call has created or loaded when it comes to a write. -/
def Preceded (c : BookCall) (h : List (Event BookOp BookOp.Res)) : BookOp → Prop
  | .create b => b.status = .pending
  | .setPaymentAndStatus id _ _ st _ => st = .paymentPending ∧ Created h id
  | .delete id => Created h id
  | .cancelWithEvent id ev => ∃ b, ⟨.getByID id, .ok b⟩ ∈ h ∧ ev = newBookingEvent .cancelled { b with status := .cancelled } ∧
      (c.byPayment = true → b.status = .paymentPending)
  | .updateStatus id st => st = .completed ∧ ∃ b, ⟨.getByID id, .ok b⟩ ∈ h ∧ b.canComplete = true
  | _ => True

end BookCall

theorem CreateBookingInput.draft_status {input : CreateBookingInput} {v : VenueResponse}
    {slot : TimeOfDay × TimeOfDay × ℤ} {b : Booking} (h : input.draft v slot = .ok b) : b.status = .pending := by
  unfold CreateBookingInput.draft at h
  dsimp only at h
  split at h
  · cases h
  · split at h
    · cases h
    · split at h
      · cases h
      · cases h
        rfl

section Programs

open BookCall BookingUseCase

variable {c : BookCall} {h : List (Event BookOp BookOp.Res)}

theorem BookCall.Created.snoc {id : String} (hc : Created h id) (e : Event BookOp BookOp.Res) : Created (h ++ [e]) id := by
  obtain ⟨d, b, hb, hid⟩ := hc
  exact ⟨d, b, List.mem_append_left _ hb, hid⟩

theorem undoBooking_after {b : Booking} (hb : Created h b.id) (err : Err) : (undoBooking b err).After c.Preceded h :=
  ⟨trivial, fun _ => ⟨hb.snoc _, fun _ => trivial⟩⟩

theorem storeBooking_after (uc : BookingUseCase) (draft : Booking) (hd : draft.status = .pending)
    (req : String → ReserveSlotRequest) : (uc.storeBooking draft req).After c.Preceded h := by
  refine ⟨hd, fun r => ?_⟩
  cases r with
  | error err => trivial
  | ok b =>
    have hb : Created (h ++ [⟨.create draft, .ok b⟩]) b.id := ⟨draft, b, by simp, rfl⟩
    refine ⟨trivial, fun r => ?_⟩
    cases r with
    | error err => exact ⟨hb.snoc _, fun _ => trivial⟩
    | ok _ =>
      refine ⟨trivial, fun r => ?_⟩
      cases r with
      | error err => exact undoBooking_after ((hb.snoc _).snoc _) _
      | ok pay =>
        refine ⟨⟨rfl, (hb.snoc _).snoc _⟩, fun r => ?_⟩
        cases r with
        | error err => exact undoBooking_after (((hb.snoc _).snoc _).snoc _) _
        | ok _ => trivial

theorem createBooking_after (uc : BookingUseCase) (input : CreateBookingInput) :
    (uc.createBooking input).After c.Preceded h := by
  unfold BookingUseCase.createBooking
  split
  · trivial
  · rename_i slot _
    refine ⟨trivial, fun r => ?_⟩
    rcases r with err | _ | v
    · trivial
    · trivial
    · dsimp only [Prog.bind_ret]
      split
      · trivial
      · rename_i draft hd
        refine ⟨trivial, fun r => ?_⟩
        rcases r with err | _ | _
        · trivial
        · trivial
        · refine ⟨trivial, fun now => ?_⟩
          dsimp only [Prog.bind_ret]
          split
          · trivial
          · exact storeBooking_after uc draft (CreateBookingInput.draft_status hd) _

/-- A cancellation of a booking that the call has loaded. -/
theorem storeCancelled_after {id : String} {b : Booking} (hb : ⟨.getByID id, .ok b⟩ ∈ h)
    (hst : c.byPayment = true → b.status = .paymentPending) : (storeCancelled id b).After c.Preceded h := by
  refine ⟨⟨b, hb, rfl, hst⟩, fun r => ?_⟩
  cases r with
  | error err => trivial
  | ok _ => exact ⟨trivial, fun _ => trivial⟩

theorem cancelBooking_after (uc : BookingUseCase) (id userID : String) (hc : c.byPayment = false) :
    (uc.cancelBooking id userID).After c.Preceded h := by
  refine ⟨trivial, fun r => ?_⟩
  cases r with
  | error err => trivial
  | ok b =>
    dsimp only [Prog.bind_ret]
    split
    · trivial
    · split
      · trivial
      · have hst : c.byPayment = true → b.status = .paymentPending := fun h => by rw [hc] at h; cases h
        unfold BookingUseCase.pastDeadline
        split
        · refine ⟨trivial, fun now => ?_⟩
          dsimp only [Prog.bind_eq, Prog.bind_ret, Prog.pure_eq]
          split
          · trivial
          · exact storeCancelled_after (by simp) hst
        · dsimp only [Prog.bind_eq, Prog.bind_ret, Prog.pure_eq]
          exact storeCancelled_after (by simp) hst

theorem confirmBooking_after (id paymentID : String) : (BookingUseCase.confirmBooking id paymentID).After c.Preceded h :=
  ⟨trivial, fun r => by cases r <;> trivial⟩

theorem completeBooking_after (id : String) : (BookingUseCase.completeBooking id).After c.Preceded h := by
  refine ⟨trivial, fun r => ?_⟩
  cases r with
  | error err => trivial
  | ok b =>
    dsimp only [Prog.bind_ret]
    split
    · trivial
    · rename_i hb
      refine ⟨⟨rfl, b, by simp, by simpa using hb⟩, fun r => ?_⟩
      cases r <;> trivial

theorem cancelBookingByPayment_after (bookingID : String) :
    (BookingUseCase.cancelBookingByPayment bookingID).After c.Preceded h := by
  refine ⟨trivial, fun r => ?_⟩
  cases r with
  | error err =>
    dsimp only [Prog.bind_ret]
    split <;> trivial
  | ok b =>
    dsimp only [Prog.bind_ret]
    split
    · trivial
    · rename_i hb
      refine Prog.After.bind (fun h a => ?_) (storeCancelled_after (by simp) fun _ => by simpa using hb)
      cases a <;> trivial

theorem expireEach_after (ids : List String) : ∀ {h : List (Event BookOp BookOp.Res)}, (expireEach ids).After c.Preceded h := by
  induction ids with
  | nil => exact trivial
  | cons id ids ih =>
    refine Prog.After.bind (fun h a => ?_) (cancelBookingByPayment_after id)
    cases a with
    | some _ => exact ih
    | none => exact Prog.After.bind (fun _ _ => by trivial) ih

theorem publishCompleted_after (refs : List Booking) :
    ∀ {h : List (Event BookOp BookOp.Res)}, (publishCompleted refs).After c.Preceded h := by
  induction refs with
  | nil => exact trivial
  | cons ref refs ih =>
    simp only [publishCompleted, Prog.bind_eq, Prog.perform_bind]
    refine ⟨trivial, fun r => ?_⟩
    cases r with
    | error _ => exact ih
    | ok _ => exact ⟨trivial, fun _ => Prog.After.bind (fun _ _ => by trivial) ih⟩

theorem autoCompletePastVisits_after : BookingUseCase.autoCompletePastVisits.After c.Preceded h := by
  simp only [BookingUseCase.autoCompletePastVisits, Prog.bind_eq, Prog.perform_bind]
  refine ⟨trivial, fun r => ?_⟩
  cases r with
  | error err => trivial
  | ok refs =>
    refine Prog.After.bind (fun h _ => ?_) (publishCompleted_after refs)
    refine ⟨trivial, fun r => Prog.After.bind (fun h _ => ?_) (publishCompleted_after _)⟩
    exact ⟨trivial, fun _ => trivial⟩

theorem expireUnpaidBookings_after : BookingUseCase.expireUnpaidBookings.After c.Preceded h := by
  simp only [BookingUseCase.expireUnpaidBookings, Prog.bind_eq, Prog.perform_bind]
  refine ⟨trivial, fun r => ?_⟩
  cases r with
  | error err => trivial
  | ok ids => exact Prog.After.bind (fun _ _ => by trivial) (expireEach_after ids)

/-- **Every call has loaded, and checked, what it writes by id.** -/
theorem BookCall.prog_after (uc : BookingUseCase) (c : BookCall) : (c.prog uc).After c.Preceded [] := by
  cases c with
  | createBooking input => exact Prog.After.bind (fun _ _ => by trivial) (createBooking_after uc input)
  | cancelBooking id userID => exact Prog.After.bind (fun _ _ => by trivial) (cancelBooking_after uc id userID rfl)
  | confirmBooking id paymentID => exact confirmBooking_after id paymentID
  | completeBooking id => exact Prog.After.bind (fun _ _ => by trivial) (completeBooking_after id)
  | cancelBookingByPayment bookingID => exact cancelBookingByPayment_after bookingID
  | autoCompletePastVisits => exact Prog.After.bind (fun _ _ => by trivial) autoCompletePastVisits_after
  | expireUnpaidBookings => exact Prog.After.bind (fun _ _ => by trivial) expireUnpaidBookings_after

end Programs

/-! ## What a row once loaded says of the row that is stored -/

namespace BookingStatus

/-- What may become of a status along the transitions. -/
def leads : BookingStatus → BookingStatus → Bool
  | pending, _ => true
  | paymentPending, s => s != pending
  | confirmed, s => s == confirmed || s == completed || s == cancelled
  | completed, s => s == completed
  | cancelled, s => s == cancelled

theorem leads_refl (s : BookingStatus) : s.leads s = true := by cases s <;> rfl

theorem leads_moves {a b c : BookingStatus} (h : a.leads b = true) (hm : moves (some b) (some c) = true) :
    a.leads c = true := by
  revert h hm
  cases a <;> cases b <;> cases c <;> decide

end BookingStatus

/-- A row loaded earlier: its key has been given out, and the row stored now comes of it. -/
structure BookingDB.Since (db : BookingDB) (id : String) (b : Booking) : Prop where
  issued : id ∈ db.issued
  stored : ∀ b', db.find id = some b' → b.status.leads b'.status = true ∧ (b.paymentID ≠ "" → b'.paymentID ≠ "")

section Step

variable {loc : Location} {o : BookOp} {db db' : BookingDB} {r : o.Res}

/-- No statement takes the payment off a booking. -/
theorem BookOp.Writes.paymentID {j : String} {b b' : Booking} (h : o.Writes j b b') (hb : b.paymentID ≠ "") :
    b'.paymentID ≠ "" := by
  cases o with
  | setPaymentAndStatus =>
    obtain ⟨-, hp, now, rfl⟩ := h
    exact ne_empty_of_isUUID hp
  | cancelWithEvent | updateStatus | autoCompleteVisitEnded | markCompletedEventSent =>
    obtain ⟨-, now, rfl⟩ := h
    exact hb
  | confirmPayment =>
    obtain ⟨-, hp, now, rfl⟩ := h
    simp [BookingRepo.confirmRow, hb]
  | getVenue | checkSlotAvailability | reserveSlot | releaseSlot | createPayment | publishBookingCompleted | now |
      getByID | findUnpublishedCompleted | findExpiredPaymentPending | create | delete | deleteOrphanPending => cases h

theorem BookingDB.Since.step {id : String} {b : Booking} (hs : db.Since id b) (h : BookOp.Exec loc o db r db')
    (h0 : db.Opening) (hm : moves (db.status id) (db'.status id) = true) : db'.Since id b := by
  refine ⟨(h.opening h0).2 id hs.issued, fun b' hb' => ?_⟩
  have hrow := h.row id
  rw [hb'] at hrow
  generalize hx : db.find id = x at hrow
  cases hrow with
  | same => exact hs.stored b' hx
  | write b₀ _ hw =>
    obtain ⟨hl, hp⟩ := hs.stored b₀ hx
    rw [BookingDB.status_of_find hx, BookingDB.status_of_find hb'] at hm
    exact ⟨BookingStatus.leads_moves hl hm, fun hb => hw.paymentID (hp hb)⟩
  | create b₀ _ _ _ hnew => exact absurd hs.issued hnew

/-- A call that writes no booking by id alone moves every status along the transitions. -/
theorem BookOp.Exec.guarded_moves (h : BookOp.Exec loc o db r db') (ht : o.target = none)
    (hc : ∀ b, o = .create b → b.status = .pending) (id : String) :
    moves (db.status id) (db'.status id) = true ∧ (db.status id = some .confirmed → db'.status id ≠ some .cancelled) := by
  have hrow := h.row id
  unfold BookingDB.status
  generalize db.find id = x at hrow
  generalize db'.find id = y at hrow
  cases hrow with
  | same x => exact ⟨moves_refl _, fun h => by rw [h]; simp⟩
  | write b b' hw =>
    cases o with
    | setPaymentAndStatus | cancelWithEvent | updateStatus => cases ht
    | confirmPayment =>
      obtain ⟨hb, -, now, rfl⟩ := hw
      simp only [BookingRepo.confirmable, Bool.and_eq_true, beq_iff_eq] at hb
      simp [moves, hb.1.2, BookingRepo.confirmRow, BookingStatus.next]
    | autoCompleteVisitEnded =>
      obtain ⟨hb, now, rfl⟩ := hw
      simp [moves, hb, BookingStatus.next]
    | markCompletedEventSent =>
      obtain ⟨-, now, rfl⟩ := hw
      refine ⟨moves_refl _, fun h => ?_⟩
      simp only [Option.map_some, Option.some.injEq] at h
      simp [h]
    | getVenue | checkSlotAvailability | reserveSlot | releaseSlot | createPayment | publishBookingCompleted | now |
        getByID | findUnpublishedCompleted | findExpiredPaymentPending | create | delete | deleteOrphanPending => cases hw
  | delete b hd =>
    cases o with
    | delete => cases ht
    | deleteOrphanPending =>
      have hb : b.status = .pending := hd
      simp [moves, hb, BookingStatus.isTerminal]
    | getVenue | checkSlotAvailability | reserveSlot | releaseSlot | createPayment | publishBookingCompleted | now |
        getByID | findUnpublishedCompleted | findExpiredPaymentPending | create | setPaymentAndStatus | cancelWithEvent |
        updateStatus | confirmPayment | autoCompleteVisitEnded | markCompletedEventSent => cases hd
  | create b b' ho hb _ => simp [moves, hb, hc b ho]

theorem BookOp.Writes.at_target {i j : String} {s : Option BookingStatus} {b b' : Booking} (hw : o.Writes j b b')
    (ht : o.target = some (i, s)) : j = i := by
  cases o with
  | setPaymentAndStatus | cancelWithEvent | updateStatus =>
    cases ht
    exact hw.1
  | delete => cases hw
  | getVenue | checkSlotAvailability | reserveSlot | releaseSlot | createPayment | publishBookingCompleted | now | getByID |
      findUnpublishedCompleted | findExpiredPaymentPending | create | confirmPayment | autoCompleteVisitEnded |
      markCompletedEventSent | deleteOrphanPending => cases ht

theorem BookOp.Deletes.at_target {i j : String} {s : Option BookingStatus} {b : Booking} (hd : o.Deletes j b)
    (ht : o.target = some (i, s)) : j = i := by
  cases o with
  | delete =>
    cases ht
    exact hd
  | setPaymentAndStatus | cancelWithEvent | updateStatus => cases hd
  | getVenue | checkSlotAvailability | reserveSlot | releaseSlot | createPayment | publishBookingCompleted | now | getByID |
      findUnpublishedCompleted | findExpiredPaymentPending | create | confirmPayment | autoCompleteVisitEnded |
      markCompletedEventSent | deleteOrphanPending => cases ht

/-- A write by id leaves the other bookings alone. -/
theorem BookOp.Exec.others (h : BookOp.Exec loc o db r db') {i j : String} {s : Option BookingStatus}
    (ht : o.target = some (i, s)) (hj : j ≠ i) : db'.status j = db.status j := by
  have hrow := h.row j
  unfold BookingDB.status
  generalize db.find j = x at hrow
  generalize db'.find j = y at hrow
  cases hrow with
  | same x => rfl
  | write b b' hw => exact absurd (hw.at_target ht) hj
  | delete b hd => exact absurd (hd.at_target ht) hj
  | create b b' ho _ _ =>
    subst ho
    cases ht

end Step

/-! ## One moment of a run -/

section Moment

variable {loc : Location} {m : BookMoment}

/-- **A write by id that its call still accepts keeps to the transitions.** -/
theorem statusKept_of_accepted (he : BookOp.Exec loc m.op m.before.world m.res m.after)
    (hp : m.thread.call.Preceded m.thread.did m.op) (ha : m.after ≠ m.before.world → StillAccepted m) : StatusKept m := by
  by_cases hsame : m.after = m.before.world
  · refine ⟨fun id => by rw [hsame]; exact moves_refl _, fun _ id hb => ?_⟩
    rw [hsame, hb]
    simp
  cases ht : m.op.target with
  | none =>
    have hg := he.guarded_moves ht fun b hb => by rw [hb] at hp; exact hp
    exact ⟨fun id => (hg id).1, fun _ id => (hg id).2⟩
  | some t =>
    obtain ⟨i, s⟩ := t
    obtain hdb | ⟨⟨b, hb⟩, hs⟩ := he.target ht
    · exact absurd hdb hsame
    have hst := BookingDB.status_of_find hb
    -- the booking written: its call accepts it, or it has the status already
    have hi : moves (m.before.world.status i) s = true ∧
        (m.thread.call.byPayment = true → m.before.world.status i = some .confirmed → s ≠ some .cancelled) := by
      rw [hst]
      rcases ha hsame i s b ht hb with rfl | hacc
      · exact ⟨moves_refl _, fun _ h => by rw [h]; simp⟩
      cases ho : m.op with
      | setPaymentAndStatus id pid url st ev =>
        rw [ho] at ht hp hacc
        cases ht
        simp only [BookCall.accepts, beq_iff_eq] at hacc
        obtain ⟨rfl, -⟩ := hp
        simp [moves, hacc, BookingStatus.next]
      | cancelWithEvent id ev =>
        rw [ho] at ht hacc
        cases ht
        simp only [BookCall.accepts] at hacc
        cases hc : m.thread.call.byPayment with
        | true =>
          simp only [hc, if_true, beq_iff_eq] at hacc
          simp [moves, hacc, BookingStatus.next]
        | false =>
          simp only [hc, Bool.false_eq_true, if_false, Booking.canCancel, Booking.isTerminal] at hacc
          refine ⟨?_, fun h => by cases h⟩
          cases hbs : b.status <;> rw [hbs] at hacc <;> revert hacc <;> decide
      | updateStatus id st =>
        rw [ho] at ht hp hacc
        cases ht
        obtain ⟨rfl, -⟩ := hp
        simp only [BookCall.accepts, Booking.canComplete, Bool.and_eq_true, beq_iff_eq] at hacc
        simp [moves, hacc.1, BookingStatus.next]
      | delete id =>
        rw [ho] at ht hacc
        cases ht
        exact ⟨hacc, fun _ _ => by simp⟩
      | getVenue | checkSlotAvailability | reserveSlot | releaseSlot | createPayment | publishBookingCompleted | now |
          getByID | findUnpublishedCompleted | findExpiredPaymentPending | create | confirmPayment |
          autoCompleteVisitEnded | markCompletedEventSent | deleteOrphanPending =>
        rw [ho] at ht
        cases ht
    refine ⟨fun id => ?_, fun hc id hid => ?_⟩
    · by_cases hid : id = i
      · rw [hid, hs]
        exact hi.1
      · rw [he.others ht hid]
        exact moves_refl _
    · by_cases hidi : id = i
      · rw [hidi] at hid ⊢
        rw [hs]
        exact hi.2 hc hid
      · rw [he.others ht hidi, hid]
        simp

/-- **A write by id that keeps to the transitions is one its call still accepts**, when what the call has loaded says so
of the row it writes. -/
theorem accepted_of_statusKept (he : BookOp.Exec loc m.op m.before.world m.res m.after)
    (hp : m.thread.call.Preceded m.thread.did m.op)
    (hsince : ∀ id b, ⟨.getByID id, .ok b⟩ ∈ m.thread.did → m.before.world.Since id b) (hk : StatusKept m)
    (hne : m.after ≠ m.before.world) : StillAccepted m := by
  intro i s b ht hb
  obtain hdb | ⟨-, hs⟩ := he.target ht
  · exact absurd hdb hne
  have hst := BookingDB.status_of_find hb
  have hm := hk.declared i
  have hu := fun hc => hk.unpaid hc i
  rw [hst, hs] at hm hu
  cases ho : m.op with
  | setPaymentAndStatus id pid url st ev =>
    rw [ho] at ht hp
    cases ht
    obtain ⟨rfl, -⟩ := hp
    simp only [BookCall.accepts]
    cases hbs : b.status <;> rw [hbs] at hm <;> revert hm <;> decide
  | cancelWithEvent id ev =>
    rw [ho] at ht hp
    cases ht
    simp only [BookCall.accepts]
    cases hc : m.thread.call.byPayment with
    | true =>
      obtain ⟨b₀, hb₀, -, hpending⟩ := hp
      have hpending := hpending hc
      obtain ⟨hl, -⟩ := (hsince i b₀ hb₀).stored b hb
      have hu := hu hc
      rw [hpending] at hl
      simp only [if_true]
      cases hbs : b.status <;> rw [hbs] at hm hu hl <;> revert hm hu hl <;> decide
    | false =>
      simp only [Bool.false_eq_true, if_false, Booking.canCancel, Booking.isTerminal]
      cases hbs : b.status <;> rw [hbs] at hm <;> revert hm <;> decide
  | updateStatus id st =>
    rw [ho] at ht hp
    cases ht
    obtain ⟨rfl, b₀, hb₀, hcomplete⟩ := hp
    simp only [Booking.canComplete, Bool.and_eq_true, beq_iff_eq, bne_iff_ne] at hcomplete
    have hpid := ((hsince i b₀ hb₀).stored b hb).2 hcomplete.2
    simp only [BookCall.accepts, Booking.canComplete, bne_iff_ne.2 hpid, Bool.and_true]
    cases hbs : b.status <;> rw [hbs] at hm <;> revert hm <;> decide
  | delete id =>
    rw [ho] at ht
    cases ht
    exact .inr hm
  | getVenue | checkSlotAvailability | reserveSlot | releaseSlot | createPayment | publishBookingCompleted | now | getByID |
      findUnpublishedCompleted | findExpiredPaymentPending | create | confirmPayment | autoCompleteVisitEnded |
      markCompletedEventSent | deleteOrphanPending =>
    rw [ho] at ht
    cases ht

end Moment

/-! ## Runs -/

section Runs

variable {uc : BookingUseCase} {w₀ : BookingDB} {tr : List BookMoment} {c : BookConfig}

/-- What has been loaded in a run that keeps to the transitions still says of the rows what it said. -/
theorem loaded_since (h : (bookSys uc).Trace w₀ tr c) (h0 : w₀.Opening) (hk : ∀ m ∈ tr, StatusKept m) :
    c.world.Opening ∧ ∀ t ∈ c.threads, ∀ id b, ⟨.getByID id, .ok b⟩ ∈ t.did → c.world.Since id b := by
  refine h.pool_inv (P := StatusKept) (fun db ts => db.Opening ∧ ∀ t ∈ ts, ∀ id b, ⟨.getByID id, .ok b⟩ ∈ t.did → db.Since id b)
    ⟨h0, by simp⟩ ?_ ?_ (fun _ _ _ _ hf => False.elim hf) hk
  · rintro w ts c ⟨hop, hts⟩ -
    refine ⟨hop, fun t ht => ?_⟩
    rcases List.mem_append.1 ht with ht | ht
    · exact hts t ht
    · rw [List.mem_singleton.1 ht]
      exact fun id b hb => absurd hb (by simp)
  · rintro w w' ts₁ ts₂ c h o k r ⟨hop, hts⟩ he hkept
    refine ⟨(he.opening hop).1, fun t ht id b hb => ?_⟩
    have hold : ∀ t ∈ ts₁ ++ (⟨c, h, .call o k⟩ : Thread _ _ _ _) :: ts₂, ⟨.getByID id, .ok b⟩ ∈ t.did → w'.Since id b :=
      fun t ht hb => (hts t ht id b hb).step he hop (hkept.declared id)
    rcases List.mem_append.1 ht with ht | ht
    · exact hold t (List.mem_append_left _ ht) hb
    rcases List.mem_cons.1 ht with rfl | ht
    · rcases List.mem_append.1 hb with hb | hb
      · exact hold ⟨c, h, .call o k⟩ (by simp) hb
      · -- the row has just been loaded
        cases List.mem_singleton.1 hb
        obtain ⟨rfl, hfind⟩ := he.getByID
        refine ⟨hop id b hfind, fun b' hb' => ?_⟩
        rw [hfind] at hb'
        cases hb'
        exact ⟨BookingStatus.leads_refl _, fun h => h⟩
    · exact hold t (by simp [ht]) hb

end Runs

/-! ## A payment that comes while the booking expires -/

def sampleLocation : Location where
  instant d t := d.dayNumber * 86400 + t.minutesSinceStart * 60
  dateAt _ := ⟨2025, 6, 1⟩

def sampleBookings : BookingUseCase := ⟨sampleLocation, 2, fun s => s⟩

def sampleBooking : Booking where
  id := "00000000-0000-0000-0000-00000000000b"
  userID := "00000000-0000-0000-0000-0000000000a1"
  venueID := "00000000-0000-0000-0000-0000000000e1"
  venueName := "Баня"
  serviceID := ""
  packageServiceIDs := []
  hallIDs := []
  date := ⟨2025, 6, 2⟩
  timeFrom := ⟨18, 0⟩
  timeTo := ⟨20, 0⟩
  guests := 2
  comment := ""
  status := .paymentPending
  totalPrice := 500000
  paymentID := "00000000-0000-0000-0000-0000000000c1"

/-- The booking is sixteen minutes old and not paid. -/
def unpaidBookings : BookingDB where
  bookings := ⟨[sampleBooking], by decide, by simp⟩
  outbox := []
  issued := [sampleBooking.id]

def sampleBookEnv : BookEnv where
  now := 16 * 60
  newID := "00000000-0000-0000-0000-00000000000f"
  fault := .none
  getVenue := .ok none
  checkSlot := .ok true
  reserveSlot := .ok ()
  releaseSlot := .ok ()
  createPayment := .error (.plain "not asked")
  publish := .ok ()

theorem unpaidBookings_find : unpaidBookings.find sampleBooking.id = some sampleBooking := by
  simp [unpaidBookings, BookingDB.find, Table.get]

theorem unpaidBookings_opening : unpaidBookings.Opening := by
  intro j b hb
  obtain ⟨hmem, rfl⟩ := BookingDB.find_id hb
  obtain rfl : b = sampleBooking := List.mem_singleton.1 hmem
  simp [unpaidBookings]

/-- The booking as it is confirmed, and as it is cancelled thereafter. -/
def confirmedBookings : BookingDB :=
  (BookingRepo.confirmPayment sampleBookEnv.now sampleBooking.id sampleBooking.paymentID .confirmed unpaidBookings).2

def cancelledBookings : BookingDB :=
  (BookingRepo.cancelWithEvent sampleBookEnv.now sampleBooking.id
    (newBookingEvent .cancelled { sampleBooking with status := .cancelled }) confirmedBookings).2

theorem confirmedBookings_find : confirmedBookings.find sampleBooking.id =
    some (BookingRepo.confirmRow sampleBookEnv.now sampleBooking.paymentID sampleBooking) :=
  BookingRepo.confirmPayment_ok (by decide) (by decide) unpaidBookings_find (by decide) _ _

theorem confirmedBookings_issued : confirmedBookings.issued = [sampleBooking.id] := by decide +kernel

theorem cancelledBookings_status : cancelledBookings.status sampleBooking.id = some .cancelled := by
  have h := (BookingRepo.cancelWithEvent_ok (by decide) confirmedBookings_find sampleBookEnv.now
    (newBookingEvent .cancelled { sampleBooking with status := .cancelled })).2
  exact BookingDB.status_of_find h

/-- The ticker loads the booking unpaid, the payment confirms it, and the ticker cancels it. -/
theorem expired_while_paid : ∃ tr c, (bookSys sampleBookings).Trace unpaidBookings tr c ∧
    ∃ m ∈ tr, m.thread.call = .expireUnpaidBookings ∧ m.before.world = confirmedBookings ∧ m.after = cancelledBookings := by
  have hnew : ∀ db : BookingDB, db.issued = [sampleBooking.id] → sampleBookEnv.newID ∉ db.issued := by
    intro db h
    rw [h]
    decide
  have hfind : BookOp.Exec sampleLocation (.findExpiredPaymentPending 15 100) unpaidBookings (.ok [sampleBooking.id])
      unpaidBookings := by
    refine ⟨sampleBookEnv, hnew _ rfl, ?_⟩
    simp [BookOp.run, sampleBookEnv, BookingRepo.findExpiredPaymentPending, BookingRepo.oldest, unpaidBookings, Table.select,
      sampleBooking]
  have hload : BookOp.Exec sampleLocation (.getByID sampleBooking.id) unpaidBookings (.ok sampleBooking) unpaidBookings := by
    refine ⟨sampleBookEnv, hnew _ rfl, ?_⟩
    simp only [BookOp.run, sampleBookEnv, Fault.apply_none, BookingRepo.getByID, uuidParam_ok (by decide : isUUID sampleBooking.id = true),
      unpaidBookings_find]
  have hconfirm : BookOp.Exec sampleLocation (.confirmPayment sampleBooking.id sampleBooking.paymentID .confirmed) unpaidBookings
      _ confirmedBookings := ⟨sampleBookEnv, hnew _ rfl, rfl⟩
  have hcancel : BookOp.Exec sampleLocation (.cancelWithEvent sampleBooking.id
      (newBookingEvent .cancelled { sampleBooking with status := .cancelled })) confirmedBookings _ cancelledBookings :=
    ⟨sampleBookEnv, hnew _ confirmedBookings_issued, rfl⟩
  have h : (bookSys sampleBookings).Trace unpaidBookings [] ⟨unpaidBookings, []⟩ := .init
  have h := h.start .expireUnpaidBookings trivial
  have h := h.perform unpaidBookings [] [] _ hfind
  have h := h.perform unpaidBookings [] [] _ hload
  have h := h.start (.confirmBooking sampleBooking.id sampleBooking.paymentID) trivial
  have h := h.perform confirmedBookings [_] [] _ hconfirm
  have h := h.perform cancelledBookings [] [_] _ hcancel
  exact ⟨_, _, h, _, List.mem_append_right _ (List.mem_singleton.2 rfl), rfl, rfl, rfl⟩

end Agregator
