import Agregator.PaidBooking
import Agregator.PaidPayment
import Agregator.PayAgree
/-!
# PaidRuns — a booking and its payment, when all is said

A refund request that finds the payment pending is answered and forgotten.  If the payment succeeds after that, nobody asks
again: `bookingAgrees` is about the runs in which a cancelled booking's payment succeeds only while a request is still to be
heard, and `paid_after_cancelled` is the run in which it succeeds too late.
-/
namespace Agregator

open Rel Conc

/-! ## The two sides together -/

/-- What both services keep. -/
structure PaidSide (p : Payment) (w : PaidWorld) : Prop where
  book : BookSide p w.book
  pay : PaySide p w.pay

structure PaidGoes (p : Payment) (w w' : PaidWorld) : Prop where
  book : BookGoes p w.book w'.book
  pay : PayGoes p w.pay w'.pay

theorem PaidGoes.refl {p : Payment} (w : PaidWorld) : PaidGoes p w w := ⟨.refl _, .refl _⟩

theorem PaidGoes.trans {p : Payment} (a b c : PaidWorld) (h1 : PaidGoes p a b) (h2 : PaidGoes p b c) : PaidGoes p a c :=
  ⟨.trans _ _ _ h1.book h2.book, .trans _ _ _ h1.pay h2.pay⟩

theorem PaySide.keys {p : Payment} {w : PayWorld} (h : PaySide p w) : p.id ≠ "" ∧ p.bookingID ≠ "" := by
  obtain ⟨q, hq, hs, -⟩ := h
  have hid : q.id = p.id := by rw [hs]
  have hb : q.bookingID = p.bookingID := by rw [hs]
  rw [← hid, ← hb]
  exact ⟨ne_empty_of_isUUID (Payment.uuids hq).1, ne_empty_of_isUUID (Payment.uuids hq).2⟩

theorem PaidWorld.Opening.side {p : Payment} {w : PaidWorld} (h : w.Opening p) : PaidSide p w := by
  obtain ⟨b, hb, hpay, hst⟩ := h.booking
  obtain ⟨q, hq, hs, hpending⟩ := h.payment
  exact ⟨⟨h.keys, b, hb, hpay, by rw [hst]; nofun⟩, q, hq, hs, .inl hpending⟩

/-- What a call that came to a good end has seen to. -/
def PaidDone (p : Payment) : PaidCall → List (Event PaidOp PaidOp.Res) → Bool → PaidWorld → Prop
  | .bookingCancelled ev, did, heard, w => heard = true → ev.payload.bookingID = p.bookingID →
      p.providerID ∈ w.pay.refunded ∨
        ∃ q : Payment, (⟨.pay (.getByBookingID p.bookingID), .ok q⟩ : Event PaidOp PaidOp.Res) ∈ did ∧ q.status = .pending
  | .paymentCompleted ev, _, heard, w => heard = true → ev.completes p →
      w.book.status p.bookingID ≠ some .paymentPending
  | _, _, _, _ => True

section Lift

variable (bc : BookingUseCase) {p : Payment} {α : Type} {w : PaidWorld}

abbrev PaidSysSafe (bc : BookingUseCase) (p : Payment) {α : Type}
    (Q : List (Event PaidOp PaidOp.Res) → α → PaidWorld → Prop) (did : List (Event PaidOp PaidOp.Res)) (prog : PaidProg α)
    (w : PaidWorld) : Prop :=
  prog.Safe (PaidOp.Exec bc.loc p) (fun _ _ _ => True) (PaidSide p) (PaidGoes p) Q did w

theorem onBook_safe {prog : BookProg α} {Q : List (Event BookOp BookOp.Res) → α → BookingDB → Prop}
    (h : BookSafe bc p Q [] prog w.book) :
    PaidSysSafe bc p (fun did a w => ∃ h, Lifts PaidOp.book (fun _ r => r) h did ∧ Q h a w.book) [] (onBook prog) w := by
  refine Prog.Safe.lift PaidWorld.book (fun _ h => h.book) (fun _ _ h => h.book) ?_ (Lifts.nil _ _) h
  intro o w r w' hI he
  refine ⟨he.1, fun hb hg => ⟨⟨hb, ?_⟩, hg, ?_⟩⟩
  · rw [he.2]
    exact hI.pay
  · rw [he.2]
    exact .refl _

theorem onPay_safe {prog : PayProg α} {Q : List (Event PayOp PayOp.Res) → α → PayWorld → Prop}
    (h : PaidSafe p Q [] prog w.pay) :
    PaidSysSafe bc p (fun did a w => ∃ h, Lifts PaidOp.pay (fun _ r => r) h did ∧ Q h a w.pay) [] (onPay prog) w := by
  refine Prog.Safe.lift PaidWorld.pay (fun _ h => h.pay) (fun _ _ h => h.pay) ?_ (Lifts.nil _ _) h
  intro o w r w' hI he
  refine ⟨he.1, fun hp hg => ⟨⟨?_, hp⟩, ?_, hg⟩⟩
  · rw [he.2]
    exact hI.book
  · rw [he.2]
    exact .refl _

/-- **Every call does its part.** -/
theorem PaidCall.prog_safe (pc : PaymentUseCase) (c : PaidCall) (hI : PaidSide p w) :
    PaidSysSafe bc p (PaidDone p c) [] (c.prog bc pc) w := by
  obtain ⟨hid, hbid⟩ := hI.pay.keys
  cases c with
  | booking c =>
    exact (onBook_safe bc (BookCall.prog_safe bc hid c hI.book)).mono fun _ _ _ _ _ => trivial
  | webhook raw =>
    refine (onPay_safe (Q := fun _ _ _ => True) bc ?_).mono fun _ _ _ _ _ => trivial
    exact Prog.Safe.bind PayGoes.refl hI.pay ((handleWebhook_paid pc raw w.pay).mono fun _ _ _ _ _ _ _ _ => trivial)
  | bookingCancelled ev =>
    refine (onPay_safe bc (consumeBookingCancelled_safe ev.payload hbid hI.pay)).mono ?_
    rintro did heard w - ⟨h, hl, hdone⟩ hheard hb
    refine (hdone hheard rfl hb).imp_right fun ⟨q, hq, hst⟩ => ?_
    obtain ⟨r, hr, rfl⟩ := hl _ hq
    exact ⟨q, hr, hst⟩
  | paymentCompleted ev =>
    refine (onBook_safe bc (handlePaymentCompleted_safe bc hid ev w.book)).mono ?_
    rintro did heard w - ⟨h, hl, hdone⟩
    exact hdone

end Lift

/-! ## Requests that are still to be heard -/

/-- Deliveries are of messages that are there, and of a cancelled booking's succeeded payment one has not been heard while it
was pending. -/
structure RequestsHeard (p : Payment) (w : PaidWorld) (ts : List PaidThread) : Prop where
  delivered : ∀ t ∈ ts, ∀ ev, t.call = .bookingCancelled ev → ev ∈ w.book.outbox
  awaits : w.pay.HasStatus p .succeeded → w.book.status p.bookingID = some .cancelled →
    ∃ ev ∈ w.book.outbox, ev.cancels p.bookingID ∧ ¬ ReadUnpaid p ev ts

section Step

variable {bc : BookingUseCase} {p : Payment} {w w' : PaidWorld} {ts₁ ts₂ : List PaidThread} {c : PaidCall}
  {h : List (Event PaidOp PaidOp.Res)} {o : PaidOp} {k : o.Res → PaidProg Bool} {r : o.Res}

/-- A delivery finds the payment pending by reading it so. -/
theorem ReadUnpaid.of_perform {ev : BookingEvent} (hread : ReadUnpaid p ev (ts₁ ++ ⟨c, h ++ [⟨o, r⟩], k r⟩ :: ts₂)) :
    ReadUnpaid p ev (ts₁ ++ ⟨c, h, .call o k⟩ :: ts₂) ∨
      ∃ q : Payment, (⟨o, r⟩ : Event PaidOp PaidOp.Res) = ⟨.pay (.getByBookingID p.bookingID), .ok q⟩ ∧ q.status = .pending := by
  obtain ⟨t, ht, hc, q, hq, hst⟩ := hread
  rcases List.mem_append.1 ht with ht | ht
  · exact .inl ⟨t, List.mem_append_left _ ht, hc, q, hq, hst⟩
  rcases List.mem_cons.1 ht with rfl | ht
  · rcases List.mem_append.1 hq with hq | hq
    · exact .inl ⟨⟨c, h, .call o k⟩, by simp, hc, q, hq, hst⟩
    · exact .inr ⟨q, (List.mem_singleton.1 hq).symm, hst⟩
  · exact .inl ⟨t, by simp [ht], hc, q, hq, hst⟩

/-- A payment that has succeeded is not read as pending. -/
theorem PaidOp.Exec.not_pending (he : PaidOp.Exec bc.loc p o w r w') (hI : PaidSide p w)
    (hs : w.pay.HasStatus p .succeeded) (q : Payment)
    (hq : (⟨o, r⟩ : Event PaidOp PaidOp.Res) = ⟨.pay (.getByBookingID p.bookingID), .ok q⟩) : q.status ≠ .pending := by
  cases hq
  obtain ⟨-, hr⟩ := PayOp.Exec.getByBookingID he.1
  obtain ⟨hq, hb⟩ : q ∈ w.pay.db.payments.rows ∧ q.bookingID = p.bookingID := by
    rcases hr with hr | ⟨t, hr⟩
    · exact PaymentRepo.of_getByBookingID hr.symm
    · cases hr
  rw [PayWorld.HasStatus.of_row hq (hI.pay.sameAs_of_bookingID hq hb)] at hs
  rw [hs]
  nofun

/-- Only an update of its status has a payment succeed. -/
theorem PaidOp.Exec.succeeds (he : PaidOp.Exec bc.loc p o w r w') (hI : PaidSide p w)
    (hs : ¬ w.pay.HasStatus p .succeeded) (hs' : w'.pay.HasStatus p .succeeded) :
    w.pay.HasStatus p .pending ∧ w'.book = w.book ∧
      ∃ st pid ev, o = .pay (.updateStatusWithOutbox p.id st pid ev) := by
  obtain ⟨q, hq, hsame, hst⟩ := hI.pay
  have hqid : q.id = p.id := by rw [hsame]
  have hpending : q.status = .pending := by
    rcases hst with hst | ⟨hst, -⟩
    · exact hst
    · exact absurd ((PayWorld.HasStatus.of_row hq hsame).2 hst) hs
  cases o with
  | book o =>
    rw [he.2] at hs'
    exact absurd hs' hs
  | pay o =>
    refine ⟨(PayWorld.HasStatus.of_row hq hsame).2 hpending, he.2, ?_⟩
    by_cases ho : o.offside
    · obtain ⟨hp, -⟩ := PayOp.Exec.payments he.1 ho
      unfold PayWorld.HasStatus at hs hs'
      rw [hp] at hs'
      exact absurd hs' hs
    cases o with
    | updateStatusWithOutbox id st pid ev =>
      by_cases hid : id = p.id
      · subst hid
        exact ⟨st, pid, ev, rfl⟩
      · -- another payment's status: ours is still pending
        have hkeep := (PayOp.Exec.update_others he.1).1 q hq fun h => hid (h.symm.trans hqid)
        rw [PayWorld.HasStatus.of_row hkeep hsame, hpending] at hs'
        cases hs'
    | _ => exact absurd trivial ho

theorem RequestsHeard.step (hI : PaidSide p w) (hg : PaidGoes p w w')
    (hJ : RequestsHeard p w (ts₁ ++ ⟨c, h, .call o k⟩ :: ts₂)) (he : PaidOp.Exec bc.loc p o w r w')
    (hok : RefundAwaits p ⟨w, ts₁ ++ ⟨c, h, .call o k⟩ :: ts₂⟩ o) :
    RequestsHeard p w' (ts₁ ++ ⟨c, h ++ [⟨o, r⟩], k r⟩ :: ts₂) := by
  refine ⟨fun t ht ev hc => hg.book.outbox ev ?_, fun hs' hc' => ?_⟩
  · rcases List.mem_append.1 ht with ht | ht
    · exact hJ.delivered t (List.mem_append_left _ ht) ev hc
    rcases List.mem_cons.1 ht with rfl | ht
    · exact hJ.delivered ⟨c, h, .call o k⟩ (by simp) ev hc
    · exact hJ.delivered t (by simp [ht]) ev hc
  by_cases hs : w.pay.HasStatus p .succeeded
  · -- it had succeeded: nobody reads it as pending any more
    have hread : ∀ {ev}, ReadUnpaid p ev (ts₁ ++ ⟨c, h ++ [⟨o, r⟩], k r⟩ :: ts₂) →
        ReadUnpaid p ev (ts₁ ++ ⟨c, h, .call o k⟩ :: ts₂) := by
      intro ev hread
      rcases hread.of_perform with hread | ⟨q, hq, hst⟩
      · exact hread
      · exact absurd hst (he.not_pending hI hs q hq)
    rcases hg.book.told hc' with hc | ⟨ev, hev, hnew, hcan⟩
    · obtain ⟨ev, hev, hcan, hun⟩ := hJ.awaits hs hc
      exact ⟨ev, hg.book.outbox ev hev, hcan, fun hr => hun (hread hr)⟩
    · -- the booking has just been cancelled: its event is new, and nobody has had it
      refine ⟨ev, hev, hcan, fun hr => ?_⟩
      obtain ⟨t, ht, hcall, -⟩ := hread hr
      exact hnew (hJ.delivered t ht ev hcall)
  · -- it succeeds now, in time for a request
    obtain ⟨hpending, hbook, st, pid, ev, rfl⟩ := he.succeeds hI hs hs'
    rw [hbook] at hc' ⊢
    obtain ⟨ev, hev, hcan, hun⟩ := hok rfl hpending hc'
    refine ⟨ev, hev, hcan, fun hr => ?_⟩
    rcases hr.of_perform with hr | ⟨q, hq, -⟩
    · exact hun hr
    · cases hq

end Step

/-! ## All runs -/

section Runs

variable {bc : BookingUseCase} {pc : PaymentUseCase} {p : Payment} {w₀ : PaidWorld} {c : PaidConfig}

/-- **A booking and its payment agree when every message has been heard**, in every run in which the payment of a cancelled
booking succeeds only while a request for its refund is still to be heard. -/
theorem bookingAgrees (h0 : w₀.Opening p)
    (h : (paidSys bc pc p).Reach (fun c _ o _ => RefundAwaits p c o) w₀ c) (hd : Drained p c) : c.world.Agrees p := by
  intro hs
  have hsafe := h.safe (fun _ _ _ _ => True) (fun _ _ _ _ _ => trivial) PaidGoes.refl PaidGoes.trans (Q := PaidDone p)
    h0.side (fun c w _ hI _ => PaidCall.prog_safe bc pc c hI) (fun _ _ _ (h : False) => h.elim)
  obtain ⟨hI, -, hdone⟩ := hsafe
  have hheard : RequestsHeard p c.world c.threads := by
    refine h.safe_pool_inv PaidGoes.refl PaidGoes.trans (Q := PaidDone p) h0.side
      (fun c w hI _ => PaidCall.prog_safe bc pc c hI) (fun _ _ _ (h : False) => h.elim) (RequestsHeard p) ?_ ?_ ?_
      (fun _ _ _ _ _ _ (h : False) => h.elim)
    · refine ⟨by simp, fun hs _ => ?_⟩
      obtain ⟨q, hq, hsame, hst⟩ := h0.payment
      rw [PayWorld.HasStatus.of_row hq hsame, hst] at hs
      cases hs
    · intro w ts c _ hJ hr
      refine ⟨fun t ht ev hc => ?_, fun hs hc => ?_⟩
      · rcases List.mem_append.1 ht with ht | ht
        · exact hJ.delivered t ht ev hc
        · rw [List.mem_singleton.1 ht] at hc
          obtain rfl : c = .bookingCancelled ev := hc
          exact hr.1
      · obtain ⟨ev, hev, hcan, hun⟩ := hJ.awaits hs hc
        refine ⟨ev, hev, hcan, fun ⟨t, ht, hread⟩ => ?_⟩
        rcases List.mem_append.1 ht with ht | ht
        · exact hun ⟨t, ht, hread⟩
        · rw [List.mem_singleton.1 ht] at hread
          obtain ⟨-, q, hq, -⟩ := hread
          cases hq
    · exact fun w w' ts₁ ts₂ c h o k r hI _ hg hJ he hok => hJ.step hI hg he hok
  -- what a heard message has seen to
  have hend : ∀ t ∈ c.threads, t.rest = .ret true → PaidDone p t.call t.did true c.world := by
    intro t ht hr
    have := hdone t ht
    rw [hr] at this
    exact this c.world (.refl _) hI
  obtain ⟨b, hb, -, hst⟩ := hI.book.row
  have hstatus := BookingDB.status_of_find hb
  cases hbs : b.status with
  | pending => exact absurd hbs hst
  | confirmed => exact .inl (by rw [hstatus, hbs])
  | completed => exact .inr (.inl (by rw [hstatus, hbs]))
  | paymentPending =>
    -- the payment's event has been heard
    obtain ⟨q, hq, hsame, hqs⟩ := hI.pay
    rw [PayWorld.HasStatus.of_row hq hsame] at hs
    rcases hqs with hqs | ⟨-, ev, hev, hcomp⟩
    · rw [hs] at hqs
      cases hqs
    obtain ⟨t, ht, hcall, hr⟩ := hd.completed ev hev hcomp
    have := hend t ht hr
    rw [hcall] at this
    exact absurd (by rw [hstatus, hbs]) (this rfl hcomp)
  | cancelled =>
    obtain ⟨ev, hev, hcan, hun⟩ := hheard.awaits hs (by rw [hstatus, hbs])
    obtain ⟨t, ht, hcall, hr⟩ := hd.cancelled ev hev hcan
    have := hend t ht hr
    rw [hcall] at this
    rcases this rfl hcan.2 with hpaid | hread
    · exact .inr (.inr hpaid)
    · exact absurd ⟨t, ht, hcall, hread⟩ hun

end Runs

/-! ## A payment that comes after the refund was asked for -/

section Alone

variable (bc : BookingUseCase) {p : Payment} {α : Type} {a : α}

/-- What one service does while the other is left alone. -/
theorem onBook_runs {prog : BookProg α} {db db' : BookingDB} (h : prog.Runs (BookOp.Exec bc.loc) db a db') (pay : PayWorld) :
    (onBook prog).Runs (fun o w r w' => PaidOp.Exec bc.loc p o w r w' ∧ ∃ o', o = .book o') ⟨db, pay⟩ a ⟨db', pay⟩ :=
  Prog.Runs.lift (f := PaidOp.book) (g := fun _ r => r) (fun db => PaidWorld.mk db pay)
    (fun o _ r _ he => ⟨r, rfl, ⟨he, rfl⟩, o, rfl⟩) h

theorem onPay_runs {prog : PayProg α} {w w' : PayWorld} (h : prog.Runs (PayOp.Exec (PayEnv.onlySuccess p)) w a w')
    (db : BookingDB) : (onPay prog).Runs (fun o w r w' => PaidOp.Exec bc.loc p o w r w' ∧ w.book = db) ⟨db, w⟩ a ⟨db, w'⟩ :=
  Prog.Runs.lift (f := PaidOp.pay) (g := fun _ r => r) (fun w => PaidWorld.mk db w)
    (fun _ _ r _ he => ⟨r, rfl, ⟨he, rfl⟩, rfl⟩) h

end Alone

def samplePayments : PaymentUseCase := ⟨"alfa", 86400⟩

/-- The payment of the sample booking. -/
def bookedPayment : Payment :=
  { samplePayment .pending with id := sampleBooking.paymentID, bookingID := sampleBooking.id }

theorem bookedPayment_check : paymentSchema.check bookedPayment = true := by decide

def pendingPays : PayWorld := ⟨.ofPayment bookedPayment bookedPayment_check, []⟩

theorem pendingPays_opening : (⟨unpaidBookings, pendingPays⟩ : PaidWorld).Opening bookedPayment :=
  ⟨unpaidBookings_opening, ⟨sampleBooking, unpaidBookings_find, rfl, rfl⟩, bookedPayment, List.mem_singleton.2 rfl, rfl, rfl⟩

theorem samplePaid_only : samplePaid.onlySuccess bookedPayment := by
  intro raw ev h _ _
  obtain rfl : Alfa.webhookEvent "order-1" Alfa.rbsDeposited = ev := by simpa [samplePaid, calm] using h
  rfl

theorem samplePaid_runs {α : Type} (prog : PayProg α) (w : PayWorld) :
    prog.Runs (PayOp.Exec (PayEnv.onlySuccess bookedPayment)) w (prog.eval (PayOp.run samplePaid) w).1
      (prog.eval (PayOp.run samplePaid) w).2 :=
  Prog.runs_eval (fun _ _ => ⟨samplePaid, samplePaid_only, rfl⟩) prog w

/-- The payment service after the webhook, and its message. -/
def paidPays : PayWorld := ((samplePayments.handleWebhook []).eval (PayOp.run samplePaid) pendingPays).2

def paidEvent : OutboxEvent :=
  { buildOutboxEvent bookedPayment .paymentCompleted with id := 1 }

theorem paidPays_outbox : paidPays.db.outbox = [paidEvent] := by decide +kernel

theorem paidPays_status : paidPays.HasStatus bookedPayment .succeeded :=
  ⟨{ bookedPayment with status := .succeeded }, List.mem_singleton.2 rfl, rfl, rfl⟩

theorem webhook_runs (db : BookingDB) :
    ((PaidCall.webhook []).prog sampleBookings samplePayments).Runs
      (fun o w r w' => PaidOp.Exec sampleLocation bookedPayment o w r w' ∧ w.book = db) ⟨db, pendingPays⟩ true ⟨db, paidPays⟩ :=
  onPay_runs sampleBookings (samplePaid_runs _ pendingPays) db

/-- The booking service after the expiry, and its message. -/
def expiredBookings : BookingDB :=
  (BookingRepo.cancelWithEvent sampleBookEnv.now sampleBooking.id
    (newBookingEvent .cancelled { sampleBooking with status := .cancelled }) unpaidBookings).2

def expiredEvent : BookingEvent :=
  { newBookingEvent .cancelled { sampleBooking with status := .cancelled } with id := 1, createdAt := sampleBookEnv.now }

theorem expiredBookings_outbox : expiredBookings.outbox = [expiredEvent] := by decide +kernel

theorem expiredBookings_issued : expiredBookings.issued = [sampleBooking.id] := by
  rcases BookOp.run_issued sampleLocation sampleBookEnv rfl (.cancelWithEvent sampleBooking.id
    (newBookingEvent .cancelled { sampleBooking with status := .cancelled })) unpaidBookings with h | ⟨b, hb, -⟩
  · exact h
  · cases hb

theorem sampleBookEnv_new {db : BookingDB} (h : db.issued = [sampleBooking.id]) : sampleBookEnv.newID ∉ db.issued := by
  rw [h]
  decide

theorem expiredBookings_find :
    expiredBookings.find sampleBooking.id = some { sampleBooking with status := .cancelled, updatedAt := sampleBookEnv.now } :=
  (BookingRepo.cancelWithEvent_ok (by decide) unpaidBookings_find _ _).2

theorem expiry_runs (pay : PayWorld) :
    ((PaidCall.booking (.cancelBookingByPayment sampleBooking.id)).prog sampleBookings samplePayments).Runs
      (fun o w r w' => PaidOp.Exec sampleLocation bookedPayment o w r w' ∧ ∃ o', o = .book o') ⟨unpaidBookings, pay⟩ true ⟨expiredBookings, pay⟩ := by
  have hload : BookOp.Exec sampleLocation (.getByID sampleBooking.id) unpaidBookings (.ok sampleBooking) unpaidBookings := by
    refine ⟨sampleBookEnv, by decide, ?_⟩
    simp only [BookOp.run, sampleBookEnv, Fault.apply_none, BookingRepo.getByID,
      uuidParam_ok (by decide : isUUID sampleBooking.id = true), unpaidBookings_find]
  have hcancel : BookOp.Exec sampleLocation (.cancelWithEvent sampleBooking.id
      (newBookingEvent .cancelled { sampleBooking with status := .cancelled })) unpaidBookings (.ok ()) expiredBookings :=
    ⟨sampleBookEnv, by decide, rfl⟩
  have hrelease : BookOp.Exec sampleLocation (.releaseSlot sampleBooking.venueID sampleBooking.id) expiredBookings (.ok ())
      expiredBookings := ⟨sampleBookEnv, sampleBookEnv_new expiredBookings_issued, rfl⟩
  have hrun : (do return (← (BookCall.cancelBookingByPayment sampleBooking.id).prog sampleBookings).isNone : BookProg Bool).Runs
      (BookOp.Exec sampleLocation) unpaidBookings true expiredBookings :=
    ⟨_, _, hload, _, _, hcancel, _, _, hrelease, rfl, rfl⟩
  exact onBook_runs sampleBookings hrun pay

/-- The refund of a pending payment is none. -/
theorem refund_nothing_runs (db : BookingDB) :
    ((PaidCall.bookingCancelled expiredEvent).prog sampleBookings samplePayments).Runs
      (fun o w r w' => PaidOp.Exec sampleLocation bookedPayment o w r w' ∧ w.book = db) ⟨db, pendingPays⟩ true
      ⟨db, pendingPays⟩ :=
  onPay_runs sampleBookings (samplePaid_runs _ pendingPays) db

/-- The confirmation of a cancelled booking is none. -/
theorem confirm_nothing_runs (pay : PayWorld) :
    ((PaidCall.paymentCompleted paidEvent).prog sampleBookings samplePayments).Runs
      (fun o w r w' => PaidOp.Exec sampleLocation bookedPayment o w r w' ∧ ∃ o', o = .book o') ⟨expiredBookings, pay⟩ true ⟨expiredBookings, pay⟩ := by
  have hconfirm : BookOp.Exec sampleLocation (.confirmPayment sampleBooking.id sampleBooking.paymentID .confirmed)
      expiredBookings (.ok ({ sampleBooking with status := .cancelled, updatedAt := sampleBookEnv.now }, false))
      expiredBookings := ⟨sampleBookEnv, sampleBookEnv_new expiredBookings_issued, rfl⟩
  have hrun : (handlePaymentCompleted paidEvent.payload).Runs (BookOp.Exec sampleLocation) expiredBookings true
      expiredBookings := ⟨_, _, hconfirm, rfl, rfl⟩
  exact onBook_runs sampleBookings hrun pay

/-- The booking expires, the refund finds nothing to pay back, the payment succeeds, and there is nothing to confirm. -/
theorem paid_after_cancelled : ∃ c : PaidConfig,
    (paidSys sampleBookings samplePayments bookedPayment).Reach anyStep ⟨unpaidBookings, pendingPays⟩ c ∧
      Drained bookedPayment c ∧ ¬ c.world.Agrees bookedPayment := by
  have hany : ∀ (c : PaidCall) (P : PaidOp → PaidWorld → Prop) o w r w',
      PaidOp.Exec sampleLocation bookedPayment o w r w' ∧ P o w →
      (paidSys sampleBookings samplePayments bookedPayment).exec o w r w' ∧
        ∀ (ts : List PaidThread) t, t.call = c → anyStep ⟨w, ts⟩ t o r := fun _ _ _ _ _ _ h => ⟨h.1, fun _ _ _ => trivial⟩
  have h : (paidSys sampleBookings samplePayments bookedPayment).Reach anyStep ⟨unpaidBookings, pendingPays⟩
    ⟨⟨unpaidBookings, pendingPays⟩, []⟩ := .init
  obtain ⟨d₁, h⟩ := h.runs (hany (.booking (.cancelBookingByPayment sampleBooking.id)) _) (expiry_runs pendingPays) trivial
  obtain ⟨d₂, h⟩ := h.runs (hany (.bookingCancelled expiredEvent) _) (refund_nothing_runs expiredBookings)
    ⟨by rw [expiredBookings_outbox]; exact List.mem_singleton.2 rfl, rfl⟩
  obtain ⟨d₃, h⟩ := h.runs (hany (.webhook []) _) (webhook_runs expiredBookings) trivial
  obtain ⟨d₄, h⟩ := h.runs (hany (.paymentCompleted paidEvent) _) (confirm_nothing_runs paidPays)
    ⟨by rw [paidPays_outbox]; exact List.mem_singleton.2 rfl, rfl⟩
  refine ⟨_, h, ⟨fun ev hev _ => ?_, fun ev hev _ => ?_⟩, fun hagree => ?_⟩
  · rw [expiredBookings_outbox, List.mem_singleton] at hev
    exact ⟨⟨.bookingCancelled expiredEvent, d₂, .ret true⟩, by simp, by rw [hev], rfl⟩
  · rw [paidPays_outbox, List.mem_singleton] at hev
    exact ⟨⟨.paymentCompleted paidEvent, d₄, .ret true⟩, by simp, by rw [hev], rfl⟩
  · have hstatus := BookingDB.status_of_find expiredBookings_find
    rcases hagree paidPays_status with h | h | h
    · exact absurd (hstatus.symm.trans h) (by simp)
    · exact absurd (hstatus.symm.trans h) (by simp)
    · exact absurd h (List.not_mem_nil)

/-- The booking service once the payment has confirmed the booking. -/
def bookedBookings : BookingDB :=
  (BookingRepo.confirmPayment sampleBookEnv.now sampleBooking.id sampleBooking.paymentID .confirmed unpaidBookings).2

theorem bookedBookings_outbox : bookedBookings.outbox.map (·.subject) = [.confirmed] := by decide +kernel

theorem confirm_runs (pay : PayWorld) :
    ((PaidCall.paymentCompleted paidEvent).prog sampleBookings samplePayments).Runs
      (fun o w r w' => PaidOp.Exec sampleLocation bookedPayment o w r w' ∧ ∃ o', o = .book o') ⟨unpaidBookings, pay⟩ true
      ⟨bookedBookings, pay⟩ := by
  have hconfirm : BookOp.Exec sampleLocation (.confirmPayment sampleBooking.id sampleBooking.paymentID .confirmed)
      unpaidBookings (.ok (BookingRepo.confirmRow sampleBookEnv.now sampleBooking.paymentID sampleBooking, true))
      bookedBookings := ⟨sampleBookEnv, sampleBookEnv_new rfl, rfl⟩
  have hrun : (handlePaymentCompleted paidEvent.payload).Runs (BookOp.Exec sampleLocation) unpaidBookings true
      bookedBookings := ⟨_, _, hconfirm, rfl, rfl⟩
  exact onBook_runs sampleBookings hrun pay

/-- Where the booking is not cancelled, its payment succeeds in time. -/
theorem RefundAwaits.of_open {p : Payment} {c : PaidConfig} {o : PaidOp}
    (h : c.world.book.status p.bookingID ≠ some .cancelled) : RefundAwaits p c o := by
  unfold RefundAwaits
  split
  · exact fun _ _ hc => absurd hc h
  · trivial

theorem bookingAgrees_sample : ∃ c : PaidConfig, Drained bookedPayment c ∧ c.world.pay.HasStatus bookedPayment .succeeded ∧
    c.world.Agrees bookedPayment := by
  have h : (paidSys sampleBookings samplePayments bookedPayment).Reach (fun c _ o _ => RefundAwaits bookedPayment c o)
    ⟨unpaidBookings, pendingPays⟩ ⟨⟨unpaidBookings, pendingPays⟩, []⟩ := .init
  have hopen : ∀ o w r w', PaidOp.Exec sampleLocation bookedPayment o w r w' ∧ w.book = unpaidBookings →
      PaidOp.Exec sampleLocation bookedPayment o w r w' ∧ ∀ (ts : List PaidThread) (t : PaidThread), t.call = .webhook [] →
        RefundAwaits bookedPayment ⟨w, ts⟩ o := by
    refine fun o w r w' hx => ⟨hx.1, fun ts t _ => RefundAwaits.of_open fun hc => ?_⟩
    rw [hx.2] at hc
    exact absurd ((BookingDB.status_of_find unpaidBookings_find).symm.trans hc) (by decide)
  have hbook : ∀ o w r w', PaidOp.Exec sampleLocation bookedPayment o w r w' ∧ (∃ o', o = .book o') →
      PaidOp.Exec sampleLocation bookedPayment o w r w' ∧ ∀ (ts : List PaidThread) (t : PaidThread), t.call = .paymentCompleted paidEvent →
        RefundAwaits bookedPayment ⟨w, ts⟩ o := by
    rintro _ w r w' ⟨he, o', rfl⟩
    exact ⟨he, fun _ _ _ => trivial⟩
  obtain ⟨d₁, h⟩ := h.runs (c := .webhook []) hopen (webhook_runs unpaidBookings) trivial
  have hready : (PaidCall.paymentCompleted paidEvent).ready ⟨unpaidBookings, paidPays⟩ :=
    ⟨by rw [paidPays_outbox]; exact List.mem_singleton.2 rfl, rfl⟩
  obtain ⟨d₂, h⟩ := h.runs (c := .paymentCompleted paidEvent) hbook (confirm_runs paidPays) hready
  have hd : Drained bookedPayment ⟨⟨bookedBookings, paidPays⟩, [⟨.webhook [], d₁, .ret true⟩, ⟨.paymentCompleted paidEvent, d₂, .ret true⟩]⟩ := by
    refine ⟨fun ev hev hcan => ?_, fun ev hev _ => ?_⟩
    · have := bookedBookings_outbox ▸ List.mem_map_of_mem (f := BookingEvent.subject) hev
      rw [hcan.1, List.mem_singleton] at this
      cases this
    · rw [paidPays_outbox, List.mem_singleton] at hev
      exact ⟨⟨.paymentCompleted paidEvent, d₂, .ret true⟩, by simp, by rw [hev], rfl⟩
  exact ⟨_, hd, paidPays_status, bookingAgrees pendingPays_opening h hd⟩

theorem booking_not_always_agrees : ¬ ∀ (bc : BookingUseCase) (pc : PaymentUseCase) (p : Payment) (w₀ : PaidWorld)
    (c : PaidConfig), w₀.Opening p → (paidSys bc pc p).Reach anyStep w₀ c → Drained p c → c.world.Agrees p := by
  intro h
  obtain ⟨c, hr, hd, hbad⟩ := paid_after_cancelled
  exact hbad (h _ _ _ _ c pendingPays_opening hr hd)

end Agregator
