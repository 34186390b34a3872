import Agregator.MasterUsecase
import Agregator.PayWebhooks
/-!
# MasterContract — what the master service makes of the payment events

The payload of a payment event carries the status of the payment as it was read, in the words of the payment service; the
consumer of the master service waits for `completed` or `failed`.  It takes none of them.
-/
namespace Agregator

open Rel Conc

/-- What the consumer answers once its use case has returned. -/
def answerOf : Option MasterErr → Answer
  | some err => err.answer
  | none => .ack

/-- The handler of the subject, on this message.  Nobody listens to refunds. -/
def MasterSubscriber.handle (s : MasterSubscriber) (subject : OutboxSubject) (data : Option PaymentEventPayload) :
    Option (MasterProg Answer) :=
  match subject with
  | .paymentCompleted => some (s.handlePaymentCompleted data)
  | .paymentFailed => some (s.handlePaymentFailed data)
  | .paymentRefunded => none

/-- What the event is for. -/
def MasterSubscriber.move (s : MasterSubscriber) : OutboxSubject → String → String → MasterProg (Option MasterErr)
  | .paymentCompleted => s.confirmBookingByPayment
  | .paymentFailed | .paymentRefunded => s.cancelBookingByPayment

/-- The event passes the checks of its handler, which calls the use case with these keys. -/
def OutboxEvent.Accepted (ev : OutboxEvent) (bookingID paymentID : String) : Prop :=
  ∀ s : MasterSubscriber, s.handle ev.subject (some ev.payload) =
    some ((s.move ev.subject bookingID paymentID).bind fun r => .ret (answerOf r))

/-- The event is acknowledged, and nothing is called. -/
def OutboxEvent.Dropped (ev : OutboxEvent) : Prop :=
  ∀ s : MasterSubscriber, s.handle ev.subject (some ev.payload) = some (.ret .ack)

/-- A delivery of a notification has written this row about this payment. -/
structure PaymentsMoment.Announced (m : PaymentsMoment) (p : Payment) (ev : OutboxEvent) : Prop where
  delivery : ∃ raw, m.thread.call = .handleWebhook raw
  payment : p ∈ m.before.world.pay.db.payments.rows ∧ p.id = ev.paymentID
  written : ev ∈ m.after.pay.db.outbox ∧ ev ∉ m.before.world.pay.db.outbox

/-! ## What the payment service writes -/

/-- An update tells of its payment in a status of the payment service. -/
def PaymentsOp.Speaks : PaymentsOp → Prop
  | .pay (.updateStatusWithOutbox _ _ _ ev) => ∃ s : PaymentStatus, ev.payload.status = s.string
  | _ => True

theorem PayOp.speaks_offside {o : PayOp} (h : o.offside) : (PaymentsOp.pay o).Speaks := by
  cases o with
  | updateStatusWithOutbox => exact False.elim h
  | _ => trivial

theorem PaymentsCall.prog_speaks (uc : PaymentUseCase) (terms : ChargeTerms) (c : PaymentsCall) :
    (c.prog uc terms).All PaymentsOp.Speaks := by
  cases c with
  | createPayment inp => exact lift_all (Prog.All.of_forall (fun _ => trivial) _)
  | handleWebhook raw =>
    refine lift_all (Prog.All.bind (fun _ => by trivial) (handleWebhook_all (fun _ => PayOp.speaks_offside) ?_ uc raw))
    exact fun p _ _ _ => ⟨p.status, rfl⟩
  | refundByBooking b =>
    exact lift_all (refundByBooking_all (fun _ => PayOp.speaks_offside) (fun _ _ => ⟨.refunded, rfl⟩) b)

/-- A row that an operation adds to the outbox is that of an update. -/
theorem PaymentsOp.Exec.outbox_new {hashtext : String → ℤ} {o : PaymentsOp} {w w' : PaymentsWorld} {r : o.Res}
    (he : PaymentsOp.Exec hashtext o w r w') (ho : o.Announces) {ev : OutboxEvent} (hev : ev ∈ w'.pay.db.outbox)
    (hnew : ev ∉ w.pay.db.outbox) :
    ∃ id st pid out, o = .pay (.updateStatusWithOutbox id st pid out) ∧ ev.payload = out.payload := by
  cases o with
  | create o =>
    have hout := (he.created ho ev.paymentID).2
    have hmem : ev ∈ w'.pay.db.outboxOf ev.paymentID := List.mem_filter.2 ⟨hev, by simp⟩
    rw [hout] at hmem
    exact absurd (List.mem_filter.1 hmem).1 hnew
  | pay o =>
    obtain ⟨he, -⟩ := he
    by_cases hoff : o.offside
    · rw [(PayOp.Exec.payments he hoff).2.1] at hev
      exact absurd hev hnew
    cases o with
    | updateStatusWithOutbox i st pid out =>
      refine ⟨i, st, pid, out, rfl, ?_⟩
      rcases PayOp.Exec.update_row he with h | ⟨now, p, l₁, l₂, db', -, -, -, h, -, row, hrow, -, hpay, -⟩
      · rw [h] at hev
        exact absurd hev hnew
      · rw [h, hrow] at hev
        rcases List.mem_append.1 hev with hev | hev
        · exact absurd hev hnew
        · rw [List.mem_singleton.1 hev, hpay]
    | _ => exact absurd trivial hoff

/-! ## What the master service makes of it -/

/-- No status of the payment service is one the handlers wait for. -/
theorem OutboxEvent.dropped_of_status {ev : OutboxEvent} {s : PaymentStatus} (hs : ev.payload.status = s.string)
    (hsub : ev.subject ≠ .paymentRefunded) : ev.Dropped := by
  have hc : ev.payload.status ≠ MasterSubscriber.paymentStatusCompleted := by
    rw [hs]
    cases s <;> decide
  have hf : ev.payload.status ≠ MasterSubscriber.paymentStatusFailed := by
    rw [hs]
    cases s <;> decide
  intro sub
  unfold MasterSubscriber.handle
  cases hev : ev.subject with
  | paymentCompleted =>
    simp only [MasterSubscriber.handlePaymentCompleted, MasterSubscriber.handlePayment, if_pos hc, Prog.pure_eq]
  | paymentFailed =>
    simp only [MasterSubscriber.handlePaymentFailed, MasterSubscriber.handlePayment, if_pos hf, Prog.pure_eq]
  | paymentRefunded => exact absurd hev hsub

/-- A consumer whose use case looks the booking up. -/
def lookingUp : MasterSubscriber where
  confirmBookingByPayment bookingID _ := .call (.selectPayment bookingID) fun _ => .ret none
  cancelBookingByPayment bookingID _ := .call (.selectPayment bookingID) fun _ => .ret none

theorem OutboxEvent.Dropped.not_accepted {ev : OutboxEvent} (h : ev.Dropped) (bookingID paymentID : String) :
    ¬ ev.Accepted bookingID paymentID := by
  intro ha
  have heq := (h lookingUp).symm.trans (ha lookingUp)
  cases hs : ev.subject <;> rw [hs] at heq <;> cases heq

/-- **No event of a notification is accepted**: each is acknowledged, and nothing is called. -/
theorem webhook_events_dropped {uc : PaymentUseCase} {terms : ChargeTerms} {hashtext : String → ℤ} {w₀ : PaymentsWorld}
    {tr : List PaymentsMoment} {c : PaymentsConfig} (h : (paymentsSys uc terms hashtext).Trace w₀ tr c) :
    ∀ m ∈ tr, ∀ p ev, m.Announced p ev → ev.subject ≠ .paymentRefunded →
      ev.Dropped ∧ ¬ ev.Accepted p.bookingID p.id := by
  have hops : ∀ m ∈ tr, PaymentsOp.Exec hashtext m.op m.before.world m.res m.after ∧ m.op.Announces ∧ m.op.Speaks := by
    refine h.all_of_step (P := fun _ => True) (fun _ _ => trivial) fun tr w w' ts₁ ts₂ c did o k r ht _ he _ => ?_
    have hmem : (⟨c, did, .call o k⟩ : Thread _ _ _ _) ∈ ts₁ ++ ⟨c, did, .call o k⟩ :: ts₂ := by simp
    exact ⟨he, (ht.reach.all (P := fun _ => PaymentsOp.Announces) (PaymentsCall.prog_announces uc terms) _ hmem).1,
      (ht.reach.all (P := fun _ => PaymentsOp.Speaks) (PaymentsCall.prog_speaks uc terms) _ hmem).1⟩
  intro m hm p ev hann hsub
  obtain ⟨he, ho, hsp⟩ := hops m hm
  obtain ⟨id, st, pid, out, hop, hpay⟩ := he.outbox_new ho hann.written.1 hann.written.2
  rw [hop] at hsp
  obtain ⟨s, hs⟩ := hsp
  have hd := ev.dropped_of_status (hpay ▸ hs) hsub
  exact ⟨hd, hd.not_accepted _ _⟩

/-! ### A payment that has succeeded -/

theorem success_announced : ∃ tr c, ∃ m : PaymentsMoment, (paymentsSys ⟨"alfa", 86400⟩ sampleTerms fun _ => 0).Trace samplePaymentsWorld tr c ∧
    m ∈ tr ∧ m.Announced (samplePayment .pending) paidRow := by
  obtain ⟨tr, c, m, h, hm, hcall, hbefore, hafter⟩ := success_reported
  refine ⟨tr, c, m, h, hm, hcall, ?_, ?_⟩
  · rw [hbefore]
    exact ⟨List.mem_singleton.2 rfl, rfl⟩
  · rw [hbefore, hafter]
    exact ⟨List.mem_singleton.2 rfl, List.not_mem_nil⟩

theorem webhook_events_dropped_sample : ∃ ev : OutboxEvent, ev.subject = .paymentCompleted ∧ ev.Dropped ∧
    ¬ ev.Accepted (samplePayment .pending).bookingID (samplePayment .pending).id := by
  obtain ⟨tr, c, m, h, hm, hann⟩ := success_announced
  exact ⟨paidRow, rfl, webhook_events_dropped h m hm _ paidRow hann (by decide)⟩

theorem webhook_events_not_accepted : ¬ ∀ (uc : PaymentUseCase) (terms : ChargeTerms) (hashtext : String → ℤ)
    (w₀ : PaymentsWorld) (tr : List PaymentsMoment) (c : PaymentsConfig), (paymentsSys uc terms hashtext).Trace w₀ tr c →
    ∀ m ∈ tr, ∀ p ev, m.Announced p ev → ev.subject ≠ .paymentRefunded → ev.Accepted p.bookingID p.id := by
  intro hall
  obtain ⟨tr, c, m, h, hm, hann⟩ := success_announced
  have hd : paidRow.Dropped := paidRow.dropped_of_status (s := .pending) rfl (by decide)
  exact hd.not_accepted _ _ (hall _ _ _ _ _ _ h m hm _ _ hann (by decide))

end Agregator
