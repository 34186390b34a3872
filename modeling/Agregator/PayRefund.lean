import Agregator.PayView
import Mathlib.Logic.Relation
/-!
# PayRefund — what a refund leaves behind

`RefundByBooking` pays a succeeded payment back at the provider and then asks for the status `refunded`; the guard of
the status update takes `succeeded` for final, so the row stays and no `payment.refunded` is written.  What does change
is the ledger.
-/
namespace Agregator

open Rel Conc

/-! ## One refund of a succeeded payment -/

/-- The lookup of an accrual and the write of a reversal. -/
def PayOp.ofReversal : PayOp → Prop
  | .findAccrualByPayment _ | .appendReversal _ => True
  | _ => False

theorem writeReversal_all (p : Payment) : (writeReversal p).All PayOp.ofReversal := by
  simp only [writeReversal, Prog.bind_eq, Prog.perform_bind]
  refine ⟨trivial, fun r => ?_⟩
  cases r with
  | error err => dsimp only; split <;> trivial
  | ok a =>
    refine ⟨trivial, fun r => ?_⟩
    cases r with
    | error err => dsimp only; split <;> trivial
    | ok u => trivial

theorem appendReversal_frame (now : Time) (e : LedgerEntry) (db : PaymentDB) :
    (LedgerRepo.appendReversal now e db).2.payments = db.payments ∧
      (LedgerRepo.appendReversal now e db).2.outbox = db.outbox := by
  rcases LedgerRepo.appendReversal_cases now e db with ⟨_, h, -⟩ | ⟨_, h, -⟩ | ⟨_, h, -⟩ <;> rw [h] <;> exact ⟨rfl, rfl⟩

/-- Writing a reversal touches neither the payments nor the outbox. -/
theorem writeReversal_frame {A : PayEnv → Prop} {w w' : PayWorld} {p : Payment} {r : Option Err}
    (h : (writeReversal p).Runs (PayOp.Exec A) w r w') :
    w'.db.payments = w.db.payments ∧ w'.db.outbox = w.db.outbox := by
  refine Prog.All.runs (R := fun a b => b.db.payments = a.db.payments ∧ b.db.outbox = a.db.outbox)
    (fun _ => ⟨rfl, rfl⟩) ?_ ?_ (writeReversal_all p) h
  · rintro a b c ⟨h1, h2⟩ ⟨h3, h4⟩
    exact ⟨h3.trans h1, h4.trans h2⟩
  intro o w r w' ho he
  cases o with
  | findAccrualByPayment i =>
    obtain ⟨rfl, -⟩ := PayOp.Exec.findAccrualByPayment he
    exact ⟨rfl, rfl⟩
  | appendReversal e =>
    obtain ⟨now, ⟨-, rfl⟩ | ⟨t, -, rfl | rfl⟩⟩ := PayOp.Exec.appendReversal he
    · exact appendReversal_frame now e w.db
    · exact ⟨rfl, rfl⟩
    · exact appendReversal_frame now e w.db
  | _ => cases ho

/-- **A refund of a succeeded payment that returns nil leaves the payments and the outbox as they were.** -/
theorem refundByBooking_keeps {A : PayEnv → Prop} {w w' : PayWorld} {p : Payment} (hp : p ∈ w.db.payments.rows)
    (hst : p.status = .succeeded) (h : (refundByBooking p.bookingID).Runs (PayOp.Exec A) w none w') :
    w'.db.payments = w.db.payments ∧ w'.db.outbox = w.db.outbox := by
  simp only [refundByBooking, Prog.bind_eq, Prog.perform_bind] at h
  obtain ⟨r1, w1, he1, h⟩ := h
  obtain ⟨rfl, hr | ⟨t, hr⟩⟩ := PayOp.Exec.getByBookingID he1
  swap
  · -- a failed lookup is reported
    subst hr
    simp [Prog.Runs] at h
  rw [PaymentRepo.getByBookingID_mem hp] at hr
  subst hr
  simp only [hst, ne_eq, not_true_eq_false, if_false] at h
  obtain ⟨r2, w2, he2, h⟩ := h
  obtain ⟨hdb, -⟩ := PayOp.Exec.refund he2
  cases r2 with
  | error err => cases h.1
  | ok u =>
  obtain ⟨r3, w3, he3, h⟩ := h
  rw [← hdb] at hp
  -- the guard of the update takes the payment for final
  have hterm : ∀ now ev, PaymentRepo.updateStatusWithOutbox now p.id .refunded p.providerID ev w2.db =
      (.ok false, w2.db) :=
    fun now ev => PaymentRepo.updateStatusWithOutbox_terminal hp (by rw [hst]; rfl) now .refunded p.providerID ev
  obtain ⟨now, hw⟩ := PayOp.Exec.updateStatusWithOutbox he3
  simp only [hterm] at hw
  cases r3 with
  | error err => cases h.1
  | ok b =>
  obtain ⟨-, rfl⟩ | ⟨t, hr, -⟩ := hw
  swap
  · cases hr
  obtain ⟨r4, w4, h4, h⟩ := (Prog.runs_bind _ _ _ _ _ _).1 h
  obtain ⟨hpay, hout⟩ := writeReversal_frame h4
  have hw' : w' = w4 := by
    cases r4 with
    | none => exact h.2
    | some err => cases h.1
  rw [hw', hpay, hout, hdb]
  exact ⟨rfl, rfl⟩

/-! ## A refund can always return nil -/

/-- An environment in which nothing fails. -/
def calm (now : Time) (parse : RawBody → Except Err WebhookEvent) : PayEnv where
  now := now
  parse := parse
  capture := .ok ()
  refund := .none
  faults := {}

theorem exec_run (env : PayEnv) (o : PayOp) (w : PayWorld) :
    PayOp.Exec anyEnv o w (o.run env w).1 (o.run env w).2 := ⟨env, trivial, rfl⟩

theorem writeReversal_calm (now : Time) (parse : RawBody → Except Err WebhookEvent) (w : PayWorld) {q : Payment}
    (hq : w.db.Has q.id) : ((writeReversal q).eval (PayOp.run (calm now parse)) w).1 = none := by
  have hfind : (PayOp.run (calm now parse) (.findAccrualByPayment q.id) w) =
      (LedgerRepo.findAccrualByPayment q.id w.db, w) := rfl
  simp only [writeReversal, Prog.bind_eq, Prog.perform_bind, Prog.eval_call, hfind]
  cases hacc : LedgerRepo.findAccrualByPayment q.id w.db with
  | error err =>
    -- with the id of a payment, only a missing accrual makes the lookup fail
    have hcode : err.code = .notFound := by
      simp only [LedgerRepo.findAccrualByPayment, uuidParam_ok hq.isUUID] at hacc
      split at hacc
      · cases hacc
      · cases hacc
        rfl
    simp [hcode]
  | ok a =>
    obtain ⟨ha, hof⟩ := LedgerRepo.of_findAccrualByPayment hacc
    have happ : (PayOp.run (calm now parse) (.appendReversal (reversalEntry q a)) w).1 =
        (LedgerRepo.appendReversal now (reversalEntry q a) w.db).1 := rfl
    simp only [Prog.eval_call, happ]
    rcases appendReversal_written hq ha hof now with ⟨t, hw, -⟩ | ⟨hw, -⟩ <;> rw [hw] <;> rfl

/-- **A refund returns nil when nothing fails.** -/
theorem refundByBooking_calm {w : PayWorld} {p : Payment} (hp : p ∈ w.db.payments.rows) (hst : p.status = .succeeded)
    (now : Time) (parse : RawBody → Except Err WebhookEvent) :
    ((refundByBooking p.bookingID).eval (PayOp.run (calm now parse)) w).1 = none := by
  have hget : PayOp.run (calm now parse) (.getByBookingID p.bookingID) w = (.ok p, w) := by
    rw [← PaymentRepo.getByBookingID_mem hp]
    rfl
  have hrefund : PayOp.run (calm now parse) (.refund p.providerID p.amount (p.id ++ "-refund")) w =
      (.ok (), { w with refunded := w.refunded ++ [p.providerID] }) := rfl
  have hupd : ∀ ev : OutboxEvent, ∀ w' : PayWorld, w'.db = w.db →
      PayOp.run (calm now parse) (.updateStatusWithOutbox p.id .refunded p.providerID ev) w' = (.ok false, w') := by
    intro ev w' hw'
    have hterm := PaymentRepo.updateStatusWithOutbox_terminal hp (by rw [hst]; rfl) now .refunded p.providerID ev
    have hrun : PayOp.run (calm now parse) (.updateStatusWithOutbox p.id .refunded p.providerID ev) w' =
        onPayments (PaymentRepo.updateStatusWithOutbox now p.id .refunded p.providerID ev) w' := rfl
    rw [hrun, onPayments, hw', hterm, ← hw']
  simp only [refundByBooking, Prog.bind_eq, Prog.perform_bind, Prog.eval_call, hget, hst, ne_eq, not_true_eq_false,
    if_false, hrefund, hupd _ { w with refunded := w.refunded ++ [p.providerID] } rfl, Prog.eval_bind]
  have hrev := writeReversal_calm now parse { w with refunded := w.refunded ++ [p.providerID] }
    (q := { p with status := .refunded }) ⟨p, hp, rfl⟩
  rw [hrev]
  rfl

/-! ## Completeness of a refund -/

def LedgerRepo.isReversalOf (pid : String) (e : LedgerEntry) : Bool := e.paymentID == pid && e.entryType == .reversal

def OutboxEvent.isRefundOf (pid : String) (o : OutboxEvent) : Bool := o.paymentID == pid && o.subject == .paymentRefunded

/-- What a completed refund of a payment is to leave: the status, one event, and one reversal of the accrual. -/
structure PaymentDB.Refunded (db : PaymentDB) (p : Payment) : Prop where
  status   : ∃ q ∈ db.payments.rows, q.id = p.id ∧ q.status = .refunded
  event    : ∃ o, db.outbox.filter (OutboxEvent.isRefundOf p.id) = [o]
  reversal : ∀ a ∈ db.ledger.rows, LedgerRepo.isAccrualOf p.id a = true →
    ∃ r, db.ledger.select (LedgerRepo.isReversalOf p.id) = [r] ∧ r.amountKopecks = -a.amountKopecks

/-- Any number of further refunds of the booking, each with any result. -/
def FurtherRefunds (bookingID : String) : PayWorld → PayWorld → Prop :=
  Relation.ReflTransGen fun w w' => ∃ r, (refundByBooking bookingID).Runs (PayOp.Exec anyEnv) w r w'

/-- A refund that returns nil is complete, and stays as it is however often it is repeated. -/
def RefundComplete (w : PayWorld) (p : Payment) : Prop :=
  ∀ w', (refundByBooking p.bookingID).Runs (PayOp.Exec anyEnv) w none w' →
    w'.db.Refunded p ∧ ∀ w'', FurtherRefunds p.bookingID w' w'' → w''.db = w'.db

theorem Payment.not_refunded {db : PaymentDB} {p : Payment} (hp : p ∈ db.payments.rows) (hst : p.status = .succeeded) :
    ¬ db.Refunded p := by
  intro h
  obtain ⟨q, hq, hid, hr⟩ := h.status
  rw [db.payments.eq_of_clash hq hp (Payment.clash_of_id hid), hst] at hr
  cases hr

theorem not_refundComplete {w : PayWorld} {p : Payment} (hp : p ∈ w.db.payments.rows) (hst : p.status = .succeeded) :
    ¬ RefundComplete w p := by
  intro hcomplete
  have hrun := Prog.runs_eval (exec_run (calm 0 fun _ => .error (.plain ""))) (refundByBooking p.bookingID) w
  rw [refundByBooking_calm hp hst] at hrun
  obtain ⟨hpay, -⟩ := refundByBooking_keeps hp hst hrun
  exact Payment.not_refunded (by rw [hpay]; exact hp) hst (hcomplete _ hrun).1

/-- **No refund of a succeeded payment is complete**: whenever one returns nil, the payments and the outbox are what they
were, and one always can return nil. -/
theorem refundByBooking_never_complete {w : PayWorld} {p : Payment} (hp : p ∈ w.db.payments.rows)
    (hst : p.status = .succeeded) :
    ¬ RefundComplete w p ∧
    ∀ w', (refundByBooking p.bookingID).Runs (PayOp.Exec anyEnv) w none w' →
      w'.db.payments = w.db.payments ∧ w'.db.outbox = w.db.outbox ∧ ¬ w'.db.Refunded p := by
  refine ⟨not_refundComplete hp hst, fun w' h => ?_⟩
  obtain ⟨hpay, hout⟩ := refundByBooking_keeps hp hst h
  exact ⟨hpay, hout, Payment.not_refunded (by rw [hpay]; exact hp) hst⟩

def samplePayment (status : PaymentStatus) : Payment where
  id := "00000000-0000-0000-0000-000000000001"
  bookingID := "00000000-0000-0000-0000-000000000002"
  amount := 100000
  status := status
  providerID := "order-1"
  paymentURL := ""
  idempotencyKey := "key-1"
  platformFeeKopecks := 15000
  counterpartyNetKopecks := 85000
  counterpartyType := "venue"
  counterpartyID := "00000000-0000-0000-0000-000000000003"
  providerName := "alfa"
  serviceAt := some 0
  createdAt := 0
  updatedAt := 0

theorem samplePayment_check (status : PaymentStatus) : paymentSchema.check (samplePayment status) = true := by
  have h : paymentSchema.check (samplePayment .pending) = true := by decide
  exact h

/-- The payment alone in the database. -/
def sampleWorld (status : PaymentStatus) : PayWorld := ⟨.ofPayment (samplePayment status) (samplePayment_check status), []⟩

theorem refundByBooking_never_complete_sample :
    ¬ RefundComplete (sampleWorld .succeeded) (samplePayment .succeeded) :=
  (refundByBooking_never_complete (w := sampleWorld .succeeded) (p := samplePayment .succeeded)
    (List.mem_singleton.2 rfl) rfl).1

theorem refund_not_always_complete : ¬ ∀ (w : PayWorld) (p : Payment), p ∈ w.db.payments.rows →
    p.status = .succeeded → RefundComplete w p :=
  fun h => not_refundComplete (w := sampleWorld .succeeded) (p := samplePayment .succeeded) (List.mem_singleton.2 rfl)
    rfl (h _ _ (List.mem_singleton.2 rfl) rfl)

end Agregator
