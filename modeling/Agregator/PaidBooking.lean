import Agregator.BookStates
import Agregator.PaidSys
/-!
# PaidBooking — what the booking service keeps of a booking that has its payment

Whatever its calls do at once, the booking stays, with its payment; it does not wait for the payment again once it has left
off; and it is not cancelled without a new event that says so.
-/
namespace Agregator

open Rel Conc

/-- The booking is there with its payment. -/
structure BookSide (p : Payment) (db : BookingDB) : Prop where
  keys : db.Opening
  row : ∃ b, db.find p.bookingID = some b ∧ b.paymentID = p.id ∧ b.status ≠ .pending

/-- What may become of the booking, and what is told of it. -/
structure BookGoes (p : Payment) (db db' : BookingDB) : Prop where
  outbox : ∀ ev ∈ db.outbox, ev ∈ db'.outbox
  settled : db.status p.bookingID ≠ some .paymentPending → db'.status p.bookingID ≠ some .paymentPending
  told : db'.status p.bookingID = some .cancelled → db.status p.bookingID = some .cancelled ∨
    ∃ ev ∈ db'.outbox, ev ∉ db.outbox ∧ ev.cancels p.bookingID

namespace BookGoes

variable {p : Payment}

theorem refl (db : BookingDB) : BookGoes p db db := ⟨fun _ h => h, fun h => h, .inl⟩

theorem trans (a b c : BookingDB) (h1 : BookGoes p a b) (h2 : BookGoes p b c) : BookGoes p a c := by
  refine ⟨fun ev h => h2.outbox ev (h1.outbox ev h), fun h => h2.settled (h1.settled h), fun h => ?_⟩
  rcases h2.told h with h | ⟨ev, hev, hnew, hc⟩
  · rcases h1.told h with h | ⟨ev, hev, hnew, hc⟩
    · exact .inl h
    · exact .inr ⟨ev, h2.outbox ev hev, hnew, hc⟩
  · exact .inr ⟨ev, hev, fun hold => hnew (h1.outbox ev hold), hc⟩

end BookGoes

/-- What the answers say: a booking loaded by its key has that key, and one just created is not the one of the payment. -/
def BookAnswer (bookingID : String) (e : Event BookOp BookOp.Res) : Prop :=
  (∀ id b, e = ⟨.getByID id, .ok b⟩ → b.id = id) ∧ ∀ d b, e = ⟨.create d, .ok b⟩ → b.id ≠ bookingID

section Operation

variable {loc : Location} {p : Payment} {o : BookOp} {db db' : BookingDB} {r : o.Res}

theorem BookSide.answer (hI : BookSide p db) (he : BookOp.Exec loc o db r db') : BookAnswer p.bookingID ⟨o, r⟩ := by
  refine ⟨fun id b h => ?_, fun d b h hid => ?_⟩
  · cases h
    exact (BookingDB.find_id he.getByID.2).2
  · cases h
    obtain ⟨b', hb', -⟩ := hI.row
    exact he.created (hid ▸ hI.keys _ b' hb')

theorem BookAnswer.not_created {h : List (Event BookOp BookOp.Res)} {id : String} (hc : BookCall.Created h id)
    (hh : ∀ e ∈ h, BookAnswer p.bookingID e) : p.bookingID ≠ id := by
  obtain ⟨d, b, hb, rfl⟩ := hc
  exact ((hh _ hb).2 d b rfl).symm

/-- **Every operation keeps the booking**, after what its call has done before it. -/
theorem BookSide.step (hid : p.id ≠ "") {c : BookCall} {h : List (Event BookOp BookOp.Res)} (hp : c.Preceded h o)
    (hh : ∀ e ∈ h, BookAnswer p.bookingID e) (hI : BookSide p db) (he : BookOp.Exec loc o db r db') :
    BookSide p db' ∧ BookGoes p db db' := by
  obtain ⟨b, hb, hpay, hst⟩ := hI.row
  -- what is to be shown, from the row that is left
  have hrow : ∀ b', db'.find p.bookingID = some b' → b'.paymentID = p.id → b'.status ≠ .pending →
      (b'.status = .paymentPending → b.status = .paymentPending) →
      (b'.status = .cancelled → b.status = .cancelled ∨ ∃ ev ∈ db'.outbox, ev ∉ db.outbox ∧ ev.cancels p.bookingID) →
      BookSide p db' ∧ BookGoes p db db' := by
    intro b' hb' hpay' hst' hleft htold
    refine ⟨⟨(he.opening hI.keys).1, b', hb', hpay', hst'⟩, he.outbox, ?_, ?_⟩
    · rw [BookingDB.status_of_find hb, BookingDB.status_of_find hb']
      simp only [ne_eq, Option.some.injEq]
      exact fun h h' => h (hleft h')
    · rw [BookingDB.status_of_find hb, BookingDB.status_of_find hb']
      simpa only [Option.some.injEq] using htold
  have hstep := he.row p.bookingID
  rw [hb] at hstep
  generalize hy : db'.find p.bookingID = y at hstep
  cases hstep with
  | same => exact hrow b hy hpay hst (fun h => h) .inl
  | write _ b' hw =>
    cases o with
    | setPaymentAndStatus i pid url st ev => exact absurd hw.1 (BookAnswer.not_created hp.2 hh)
    | cancelWithEvent i ev =>
      obtain ⟨rfl, now, rfl⟩ := hw
      obtain ⟨b₀, hb₀, rfl, -⟩ := hp
      have hid₀ := (hh _ hb₀).1 _ _ rfl
      refine hrow _ hy hpay nofun nofun fun _ => ?_
      rcases he.cancelled with rfl | ⟨row, hin, hnew, hsub, hpl⟩
      · left
        rw [hb] at hy
        rw [Option.some.inj hy]
      · exact .inr ⟨row, hin, hnew, hsub, by rw [hpl]; exact hid₀⟩
    | updateStatus i st =>
      obtain ⟨rfl, now, rfl⟩ := hw
      obtain ⟨rfl, -⟩ := hp
      exact hrow _ hy hpay nofun nofun nofun
    | confirmPayment i pid subject =>
      obtain ⟨-, -, now, rfl⟩ := hw
      refine hrow _ hy ?_ nofun nofun nofun
      simp [BookingRepo.confirmRow, hpay, hid]
    | autoCompleteVisitEnded =>
      obtain ⟨-, now, rfl⟩ := hw
      exact hrow _ hy hpay nofun nofun nofun
    | markCompletedEventSent i =>
      obtain ⟨-, now, rfl⟩ := hw
      exact hrow _ hy hpay hst (fun h => h) .inl
    | getVenue | checkSlotAvailability | reserveSlot | releaseSlot | createPayment | publishBookingCompleted | now |
        getByID | findUnpublishedCompleted | findExpiredPaymentPending | create | delete | deleteOrphanPending => cases hw
  | delete _ hd =>
    cases o with
    | delete i => exact absurd hd (BookAnswer.not_created hp hh)
    | deleteOrphanPending => exact absurd hd hst
    | getVenue | checkSlotAvailability | reserveSlot | releaseSlot | createPayment | publishBookingCompleted | now |
        getByID | findUnpublishedCompleted | findExpiredPaymentPending | create | setPaymentAndStatus | cancelWithEvent |
        updateStatus | confirmPayment | autoCompleteVisitEnded | markCompletedEventSent => cases hd

/-- **The confirmation of a booking by its payment** leaves it no longer waiting, or fails without a reason that would
have the message dropped. -/
theorem confirmPayment_settles (hI : BookSide p db) (now : Time) (subject : BookingSubject) :
    (∀ x, (BookingRepo.confirmPayment now p.bookingID p.id subject db).1 = .ok x →
      (BookingRepo.confirmPayment now p.bookingID p.id subject db).2.status p.bookingID ≠ some .paymentPending) ∧
    ∀ e, (BookingRepo.confirmPayment now p.bookingID p.id subject db).1 = .error e → e.code = .unknown := by
  obtain ⟨b, hb, hpay, hst⟩ := hI.row
  have hbid := (BookingDB.find_id hb).2
  unfold BookingRepo.confirmPayment
  rcases uuidParam_cases p.bookingID with ⟨hu, -⟩ | ⟨e, hu, he⟩
  swap
  · rw [hu]
    constructor
    · intro _ h
      cases h
    · intro _ h
      cases h
      exact he
  rcases uuidParam_cases p.id with ⟨hv, -⟩ | ⟨e, hv, he⟩
  swap
  · rw [hu, hv]
    constructor
    · intro _ h
      cases h
    · intro _ h
      cases h
      exact he
  rw [hu, hv]
  dsimp only
  cases hup : db.bookings.update (BookingRepo.confirmable p.bookingID p.id) (BookingRepo.confirmRow now p.id) with
  | error v =>
    constructor
    · intro _ h
      cases h
    · intro _ h
      cases h
      cases v <;> rfl
  | ok bookings =>
    dsimp only
    cases hg : db.bookings.get (BookingRepo.confirmable p.bookingID p.id) with
    | some x =>
      refine ⟨fun _ _ => ?_, fun _ h => by cases h⟩
      have hfind : (BookingRepo.insertOutbox now (newBookingEvent subject (BookingRepo.confirmRow now p.id x))
          { db with bookings := bookings }).find p.bookingID =
          some (if BookingRepo.confirmable p.bookingID p.id b then BookingRepo.confirmRow now p.id b else b) := by
        have := BookingDB.find_update hup (fun _ => rfl) db.outbox db.issued p.bookingID
        rw [hb] at this
        exact this
      rw [BookingDB.status_of_find hfind]
      by_cases hc : BookingRepo.confirmable p.bookingID p.id b = true
      · simp [hc, BookingRepo.confirmRow]
      · rw [if_neg hc]
        simpa [BookingRepo.confirmable, hbid, hpay] using hc
    | none =>
      dsimp only
      rw [hb]
      have hno : BookingRepo.confirmable p.bookingID p.id b = false :=
        Table.get_eq_none.1 hg b (BookingDB.find_id hb).1
      have hwait : b.status ≠ .paymentPending := by simpa [BookingRepo.confirmable, hbid, hpay] using hno
      dsimp only
      cases hs : b.status with
      | pending => exact absurd hs hst
      | paymentPending => exact absurd hs hwait
      | confirmed | completed | cancelled =>
        refine ⟨fun _ _ => ?_, fun _ h => by cases h⟩
        rw [BookingDB.status_of_find hb, hs]
        simp

end Operation

/-! ## The calls -/

section Calls

variable (bc : BookingUseCase) {p : Payment} (hid : p.id ≠ "")

/-- A program of the booking service does its part. -/
abbrev BookSafe (bc : BookingUseCase) (p : Payment) {α : Type} (Q : List (Event BookOp BookOp.Res) → α → BookingDB → Prop)
    (did : List (Event BookOp BookOp.Res)) (prog : BookProg α) (db : BookingDB) : Prop :=
  prog.Safe (BookOp.Exec bc.loc) (fun _ _ _ => True) (BookSide p) (BookGoes p) Q did db

include hid

theorem BookCall.prog_safe (c : BookCall) {db : BookingDB} (hI : BookSide p db) :
    BookSafe bc p (fun _ _ _ => True) [] (do return (← c.prog bc).isNone) db := by
  have hsafe : BookSafe bc p (fun _ _ _ => True) [] (c.prog bc) db :=
    Prog.After.safe (E := BookAnswer p.bookingID) (fun o w r w' hI he => hI.answer he)
      (fun h o w r w' hp hh hI he => hI.step hid hp hh he) (BookCall.prog_after bc c) (by simp)
  exact Prog.Safe.bind BookGoes.refl hI (hsafe.mono fun _ _ _ _ _ _ _ _ => trivial)

/-- A payment that is told of, and heard. -/
theorem handlePaymentCompleted_safe (ev : OutboxEvent) (db : BookingDB) :
    BookSafe bc p (fun _ heard db => heard = true → ev.completes p → db.status p.bookingID ≠ some .paymentPending) []
      (handlePaymentCompleted ev.payload) db := by
  simp only [handlePaymentCompleted, BookingUseCase.confirmBooking, Prog.bind_eq, Prog.perform_bind]
  intro db₁ _ hI r db₂ he _
  obtain ⟨hI₂, hg⟩ := hI.step hid (c := .confirmBooking ev.payload.bookingID ev.payload.paymentID) (h := [])
    (by trivial) (by simp) he
  refine ⟨hI₂, hg, ?_⟩
  obtain ⟨env, -, hrun⟩ := he
  cases r with
  | ok x =>
    rintro db₃ hg₃ - - ⟨-, hb, hp⟩
    refine hg₃.settled ?_
    have hok := Fault.of_ok hrun
    rw [hb, hp] at hok
    have := (confirmPayment_settles hI env.now .confirmed).1 x (by rw [hok])
    rwa [hok] at this
  | error err =>
    rintro db₃ - - hheard ⟨-, hb, hp⟩
    have hcode : err.code = .unknown := by
      rcases Fault.of_error hrun with hown | ⟨d, rfl, -⟩
      · rw [hb, hp] at hown
        exact (confirmPayment_settles hI env.now .confirmed).2 err (by rw [hown])
      · rfl
    simp [hcode] at hheard

end Calls

end Agregator
