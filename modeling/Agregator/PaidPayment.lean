import Agregator.PaidSys
/-!
# PaidPayment — what the payment service keeps of a payment

As long as the provider reports nothing but success of it, the payment is pending or has succeeded; success stays and is
told of, and what has been paid back stays so.  A refund that returns nil has paid back, or found the payment pending.
-/
namespace Agregator

open Rel Conc

/-- The payment is there, and its success has been told of. -/
def PaySide (p : Payment) (w : PayWorld) : Prop :=
  ∃ q ∈ w.db.payments.rows, p.sameAs q ∧
    (q.status = .pending ∨ q.status = .succeeded ∧ ∃ ev ∈ w.db.outbox, ev.completes p)

/-- What may become of the payment. -/
structure PayGoes (p : Payment) (w w' : PayWorld) : Prop where
  success : w.HasStatus p .succeeded → w'.HasStatus p .succeeded
  paidBack : p.providerID ∈ w.refunded → p.providerID ∈ w'.refunded

namespace PayGoes

variable {p : Payment}

theorem refl (w : PayWorld) : PayGoes p w w := ⟨fun h => h, fun h => h⟩

theorem trans (a b c : PayWorld) (h1 : PayGoes p a b) (h2 : PayGoes p b c) : PayGoes p a c :=
  ⟨fun h => h2.success (h1.success h), fun h => h2.paidBack (h1.paidBack h)⟩

end PayGoes

/-- The row of a payment is one. -/
theorem PayWorld.HasStatus.of_row {p q : Payment} {w : PayWorld} {s : PaymentStatus} (hq : q ∈ w.db.payments.rows)
    (hs : p.sameAs q) : w.HasStatus p s ↔ q.status = s := by
  have hid : q.id = p.id := by rw [hs]
  constructor
  · rintro ⟨q', hq', hid', rfl⟩
    rw [w.db.payments.eq_of_clash hq' hq (Payment.clash_of_id (hid'.trans hid.symm))]
  · exact fun h => ⟨q, hq, hid, h⟩

namespace PaySide

variable {p q : Payment} {w w' : PayWorld} {A : PayEnv → Prop}

/-- A payment read by its key is the payment. -/
theorem sameAs_of_id (hI : PaySide p w) (hq : q ∈ w.db.payments.rows) (hid : q.id = p.id) : p.sameAs q := by
  obtain ⟨x, hx, hs, -⟩ := hI
  have hxid : x.id = p.id := by rw [hs]
  rw [w.db.payments.eq_of_clash hq hx (Payment.clash_of_id (hid.trans hxid.symm))]
  exact hs

theorem sameAs_of_bookingID (hI : PaySide p w) (hq : q ∈ w.db.payments.rows) (hb : q.bookingID = p.bookingID) : p.sameAs q := by
  obtain ⟨x, hx, hs, -⟩ := hI
  have hxb : x.bookingID = p.bookingID := by rw [hs]
  rw [w.db.payments.eq_of_clash hq hx (Payment.clash_of_bookingID (hb.trans hxb.symm))]
  exact hs

theorem step {o : PayOp} {r : o.Res} (ho : o.offside) (hI : PaySide p w) (he : PayOp.Exec A o w r w') :
    PaySide p w' ∧ PayGoes p w w' := by
  obtain ⟨hp, hout, href⟩ := he.payments ho
  refine ⟨?_, ⟨fun h => ?_, href _⟩⟩
  · unfold PaySide
    rw [hp, hout]
    exact hI
  · unfold PayWorld.HasStatus
    rw [hp]
    exact h

/-- **A status update** of another payment, of one that has succeeded already, or to success with the event that tells
of it. -/
theorem update {id pid : String} {st : PaymentStatus} {ev : OutboxEvent} {r : Except Err Bool} (hI : PaySide p w)
    (hu : id = p.id → w.HasStatus p .succeeded ∨ st = .succeeded ∧ pid = p.providerID ∧ ev.completes p)
    (he : PayOp.Exec A (.updateStatusWithOutbox id st pid ev) w r w') : PaySide p w' ∧ PayGoes p w w' := by
  by_cases hidp : id = p.id
  swap
  · obtain ⟨hkeep, hout, href⟩ := he.update_others
    obtain ⟨q, hq, hs, hst⟩ := hI
    have hqid : q.id = p.id := by rw [hs]
    have hq' := hkeep q hq (fun h => hidp (h.symm.trans hqid))
    refine ⟨⟨q, hq', hs, hst.imp_right fun ⟨hst, ev, hev, hc⟩ => ⟨hst, ev, hout ev hev, hc⟩⟩, fun h => ?_, fun h => href ▸ h⟩
    rw [PayWorld.HasStatus.of_row hq hs] at h
    exact ⟨q, hq', hqid, h⟩
  -- the payment itself: it has succeeded and stays, or moves to success
  rcases he.update_row with rfl | ⟨now, x, l₁, l₂, db', hrows, hid, hterm, rfl, hrows', o, ho, hsub, hpl, -⟩
  · exact ⟨hI, .refl _⟩
  have hx : x ∈ w.db.payments.rows := by simp [hrows]
  have hxid : x.id = p.id := hid.trans hidp
  have hs := hI.sameAs_of_id hx hxid
  rcases hu hidp with hsucc | ⟨rfl, rfl, hev⟩
  · rw [PayWorld.HasStatus.of_row hx hs] at hsucc
    rw [hsucc] at hterm
    cases hterm
  · refine ⟨⟨{ x with status := .succeeded, providerID := p.providerID, updatedAt := now }, by simp [hrows'], ?_,
      .inr ⟨rfl, o, by simp [ho], ?_⟩⟩, fun _ => ?_, fun h => h⟩
    · rw [Payment.sameAs, hs]
    · rw [OutboxEvent.completes, hsub, hpl]
      exact hev
    · exact ⟨{ x with status := .succeeded, providerID := p.providerID, updatedAt := now }, by simp [hrows'], hxid, rfl⟩

end PaySide

/-! ## The calls -/

section Calls

variable {p q : Payment} {w : PayWorld}

/-- A program of the payment service does its part. -/
abbrev PaidSafe (p : Payment) {α : Type} (Q : List (Event PayOp PayOp.Res) → α → PayWorld → Prop)
    (did : List (Event PayOp PayOp.Res)) (prog : PayProg α) (w : PayWorld) : Prop :=
  prog.Safe (PayOp.Exec (PayEnv.onlySuccess p)) (fun _ _ _ => True) (PaySide p) (PayGoes p) Q did w

/-- A program that leaves the payments alone does its part, and keeps what stays. -/
theorem paidSafe_of_offside {α : Type} {prog : PayProg α} (h : prog.All PayOp.offside) (did : List (Event PayOp PayOp.Res))
    (w : PayWorld) : PaidSafe p (fun _ _ w' => PayGoes p w w') did prog w :=
  Prog.All.safe PayGoes.trans (fun _ _ _ _ ho hI he => hI.step ho he) h (.refl w)

theorem handleWebhook_paid (pc : PaymentUseCase) (raw : RawBody) (w : PayWorld) :
    PaidSafe p (fun _ _ _ => True) [] (pc.handleWebhook raw) w := by
  simp only [PaymentUseCase.handleWebhook, Prog.bind_eq, Prog.perform_bind]
  intro w₁ _ hI r w₂ he _
  obtain ⟨env, henv, he⟩ := he
  obtain ⟨rfl, rfl⟩ : env.parse raw = r ∧ w₁ = w₂ := by simpa [PayOp.run] using he
  refine ⟨hI, .refl _, ?_⟩
  cases hparse : env.parse raw with
  | error err => exact fun _ _ _ => trivial
  | ok ev =>
  dsimp only
  split
  · intro w₃ _ hI₃ r w₄ he _
    obtain ⟨hI₄, hg⟩ := hI₃.step (by trivial) he
    refine ⟨hI₄, hg, ?_⟩
    cases r <;> exact fun _ _ _ => trivial
  split
  · exact fun _ _ _ => trivial
  rename_i hterm
  intro w₃ _ hI₃ r w₄ he _
  obtain ⟨rfl, hr⟩ := PayOp.Exec.getByProviderID he
  refine ⟨hI₃, .refl _, ?_⟩
  cases r with
  | error err => exact fun _ _ _ => trivial
  | ok q =>
  dsimp only
  split
  · exact fun _ _ _ => trivial
  -- a payment with the key of ours is ours, and what the provider reports of it is success
  have hupdate : q.id = p.id → ev.status = .succeeded ∧ ev.providerPaymentID = p.providerID ∧
      (buildOutboxEvent q (statusToSubject ev.status)).completes p := by
    intro hid
    obtain ⟨hq, hprov⟩ : q ∈ w₄.db.payments.rows ∧ q.providerID = ev.providerPaymentID := by
      rcases hr with hr | ⟨t, hr⟩
      · exact PaymentRepo.of_getByProviderID hr.symm
      · cases hr
    have hs := hI₃.sameAs_of_id hq hid
    have hqprov : q.providerID = p.providerID := by rw [hs]
    have hpid : ev.providerPaymentID = p.providerID := by rw [← hprov, hqprov]
    have hst := henv raw ev hparse hpid (by simpa using hterm)
    have hqb : q.bookingID = p.bookingID := by rw [hs]
    exact ⟨hst, hpid, by rw [hst]; rfl, hqb, hid⟩
  intro w₅ _ hI₅ r w₆ he _
  obtain ⟨hI₆, hg⟩ := hI₅.update (fun hid => .inr (hupdate hid)) he
  refine ⟨hI₆, hg, ?_⟩
  cases r with
  | error err => exact fun _ _ _ => trivial
  | ok updated =>
  dsimp only
  split
  · exact fun _ _ _ => trivial
  split
  · refine Prog.Safe.bind PayGoes.refl hI₆ (Prog.Safe.mono (fun _ r _ _ _ => ?_)
      (paidSafe_of_offside (writeAccrual_offside pc q) _ _))
    cases r <;> exact fun _ _ _ => trivial
  · exact fun _ _ _ => trivial

/-- What a refund that returned nil has seen to: the payment is paid back, or was pending when it was looked at. -/
def RefundHeard (p : Payment) (bookingID : String) (did : List (Event PayOp PayOp.Res)) (res : Option Err) (w : PayWorld) : Prop :=
  res = none → bookingID = p.bookingID → p.providerID ∈ w.refunded ∨
    ∃ q : Payment, ⟨.getByBookingID p.bookingID, .ok q⟩ ∈ did ∧ q.status = .pending

theorem RefundHeard.of_error {did : List (Event PayOp PayOp.Res)} {err : Err} {b : String} :
    RefundHeard p b did (some err) w := nofun

theorem refundByBooking_paid (b : String) (w : PayWorld) : PaidSafe p (RefundHeard p b) [] (refundByBooking b) w := by
  simp only [refundByBooking, Prog.bind_eq, Prog.perform_bind]
  intro w₁ _ hI r w₂ he _
  obtain ⟨rfl, hr⟩ := PayOp.Exec.getByBookingID he
  refine ⟨hI, .refl _, ?_⟩
  cases r with
  | error err =>
    dsimp only
    split
    · -- the payment is there, so it is another booking's that is not found
      rename_i hcode
      intro w₃ _ _ _ hb
      exfalso
      rcases hr with hr | ⟨t, hr⟩
      · obtain ⟨q, hq, hs, -⟩ := hI
        have hqb : q.bookingID = b := by rw [hs, hb]
        rw [← hqb, PaymentRepo.getByBookingID_mem hq] at hr
        cases hr
      · cases hr
        cases hcode
    · exact fun _ _ _ => .of_error
  | ok q =>
  obtain ⟨hq, hqb⟩ : q ∈ w₂.db.payments.rows ∧ q.bookingID = b := by
    rcases hr with hr | ⟨t, hr⟩
    · exact PaymentRepo.of_getByBookingID hr.symm
    · cases hr
  dsimp only
  split
  · rename_i hst
    intro w₃ _ _ _ hb
    have hs := hI.sameAs_of_bookingID hq (hqb.trans hb)
    obtain ⟨x, hx, hxs, hxst⟩ := hI
    have hqid : q.id = x.id := by rw [hs, hxs]
    obtain rfl : q = x := w₂.db.payments.eq_of_clash hq hx (Payment.clash_of_id hqid)
    rcases hxst with hxst | ⟨hxst, -⟩
    · exact .inr ⟨q, by simp [hb], hxst⟩
    · exact absurd hxst hst
  rename_i hst
  have hsucc : q.id = p.id → w₂.HasStatus p .succeeded := fun hid => ⟨q, hq, hid, by simpa using hst⟩
  have hprov : b = p.bookingID → q.providerID = p.providerID := by
    intro hb
    rw [hI.sameAs_of_bookingID hq (hqb.trans hb)]
  intro w₃ hg₃ hI₃ r w₄ he _
  obtain ⟨hI₄, hg₄⟩ := hI₃.step (by trivial) he
  refine ⟨hI₄, hg₄, ?_⟩
  obtain ⟨-, hback, -⟩ := PayOp.Exec.refund he
  cases r with
  | error err => exact fun _ _ _ => .of_error
  | ok _ =>
  have hpaid : b = p.bookingID → p.providerID ∈ w₄.refunded := fun hb => by
    rw [hback rfl, hprov hb]
    simp
  intro w₅ hg₅ hI₅ r w₆ he _
  obtain ⟨hI₆, hg₆⟩ := hI₅.update
    (fun hid => .inl (hg₅.success (hg₄.success (hg₃.success (hsucc hid))))) he
  refine ⟨hI₆, hg₆, ?_⟩
  cases r with
  | error err => exact fun _ _ _ => .of_error
  | ok _ =>
  refine Prog.Safe.bind PayGoes.refl hI₆ (Prog.Safe.mono (fun _ r w₇ _ hg₇ => ?_)
    (paidSafe_of_offside (writeReversal_offside { q with status := .refunded }) _ _))
  cases r with
  | some err => exact fun _ _ _ => .of_error
  | none => exact fun w₈ hg₈ _ _ hb => .inl (hg₈.paidBack (hg₇.paidBack (hg₆.paidBack (hg₅.paidBack (hpaid hb)))))

/-- A cancellation that is acknowledged. -/
theorem consumeBookingCancelled_safe (evt : BookingEventPayload) (hp : p.bookingID ≠ "") {w : PayWorld} (hI : PaySide p w) :
    PaidSafe p (fun did heard w => heard = true → RefundHeard p evt.bookingID did none w) []
      (consumeBookingCancelled evt) w := by
  unfold consumeBookingCancelled
  split
  · rename_i hb
    exact fun _ _ _ _ _ hb' => absurd (hb'.symm.trans hb) hp
  · refine Prog.Safe.bind PayGoes.refl hI (Prog.Safe.mono (fun did res w _ hh => ?_) (refundByBooking_paid evt.bookingID w))
    cases res with
    | some err => exact fun _ _ _ => nofun
    | none =>
      intro w' hg _ _ _ hb
      exact (hh rfl hb).imp_left hg.paidBack

end Calls

end Agregator
