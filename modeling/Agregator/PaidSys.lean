import Agregator.BookFacts
import Agregator.PayView
import Agregator.ConcLift
/-!
# PaidSys — the booking and the payment service together

The two services keep a database each and tell each other what happened: a row of an outbox is a message, and every message
is delivered at some time, perhaps more than once.  A delivery may be started whenever its row is there; it does what the
subscriber of the other service does, and says whether the message is acknowledged.
-/
namespace Agregator

open Rel Conc

/-! ## The subscribers -/

/-- What the payment service makes of `booking.cancelled`. -/
def consumeBookingCancelled (evt : BookingEventPayload) : PayProg Bool := do
  if evt.bookingID = "" then return true
  else
    match ← refundByBooking evt.bookingID with
    | some _ => return false
    | none => return true

/-- What the booking service makes of `payment.completed`: it does not ask again for what will not go through. -/
def handlePaymentCompleted (evt : PaymentEventPayload) : BookProg Bool := do
  match ← BookingUseCase.confirmBooking evt.bookingID evt.paymentID with
  | some err => return err.code == .invalidArgument || err.code == .notFound
  | none => return true

/-! ## The system -/

structure PaidWorld where
  book : BookingDB
  pay : PayWorld

inductive PaidOp where
  | book (o : BookOp)
  | pay (o : PayOp)
deriving DecidableEq

@[reducible] def PaidOp.Res : PaidOp → Type
  | book o => o.Res
  | pay o => o.Res

abbrev PaidProg := Prog PaidOp PaidOp.Res

inductive PaidCall where
  | booking (c : BookCall)
  | webhook (rawBody : RawBody)
  | bookingCancelled (ev : BookingEvent)
  | paymentCompleted (ev : OutboxEvent)
deriving DecidableEq

/-- A program of the booking service. -/
def onBook {α : Type} (p : BookProg α) : PaidProg α := p.lift .book fun _ r => r

/-- A program of the payment service. -/
def onPay {α : Type} (p : PayProg α) : PaidProg α := p.lift .pay fun _ r => r

namespace PaidCall

/-- The call, and whether it came to a good end. -/
def prog (bc : BookingUseCase) (pc : PaymentUseCase) : PaidCall → PaidProg Bool
  | booking c => onBook do return (← c.prog bc).isNone
  | webhook rawBody => onPay do return (← pc.handleWebhook rawBody).2.isNone
  | bookingCancelled ev => onPay (consumeBookingCancelled ev.payload)
  | paymentCompleted ev => onBook (handlePaymentCompleted ev.payload)

/-- A message is delivered when it is there. -/
def ready : PaidCall → PaidWorld → Prop
  | booking _, _ | webhook _, _ => True
  | bookingCancelled ev, w => ev ∈ w.book.outbox ∧ ev.subject = .cancelled
  | paymentCompleted ev, w => ev ∈ w.pay.db.outbox ∧ ev.subject = .paymentCompleted

end PaidCall

/-- Of this payment the provider reports nothing for good but that it has succeeded. -/
def PayEnv.onlySuccess (p : Payment) (env : PayEnv) : Prop :=
  ∀ raw ev, env.parse raw = .ok ev → ev.providerPaymentID = p.providerID → ev.status.isTerminal = true →
    ev.status = .succeeded

def PaidOp.Exec (loc : Location) (p : Payment) : (o : PaidOp) → PaidWorld → o.Res → PaidWorld → Prop
  | book o, w, r, w' => BookOp.Exec loc o w.book r w'.book ∧ w'.pay = w.pay
  | pay o, w, r, w' => PayOp.Exec (PayEnv.onlySuccess p) o w.pay r w'.pay ∧ w'.book = w.book

/-- Everything the booking service does, webhooks of any payments, and the deliveries between the two services, all at
once. -/
def paidSys (bc : BookingUseCase) (pc : PaymentUseCase) (p : Payment) : Sys PaidWorld PaidCall PaidOp PaidOp.Res Bool where
  prog := PaidCall.prog bc pc
  ready := PaidCall.ready
  exec := PaidOp.Exec bc.loc p
  env _ _ := False

abbrev PaidConfig := Config PaidWorld PaidCall PaidOp PaidOp.Res Bool

abbrev PaidThread := Thread PaidCall PaidOp PaidOp.Res Bool

/-! ## A payment and its booking -/

/-- The payment has this status. -/
def PayWorld.HasStatus (w : PayWorld) (p : Payment) (s : PaymentStatus) : Prop :=
  ∃ q ∈ w.db.payments.rows, q.id = p.id ∧ q.status = s

/-- The booking waits for the payment, and the payment for the provider. -/
structure PaidWorld.Opening (w : PaidWorld) (p : Payment) : Prop where
  keys : w.book.Opening
  booking : ∃ b, w.book.find p.bookingID = some b ∧ b.paymentID = p.id ∧ b.status = .paymentPending
  payment : ∃ q ∈ w.pay.db.payments.rows, p.sameAs q ∧ q.status = .pending

/-- The event asks for the refund of the booking. -/
def BookingEvent.cancels (ev : BookingEvent) (bookingID : String) : Prop :=
  ev.subject = .cancelled ∧ ev.payload.bookingID = bookingID

/-- The event tells of the payment. -/
def OutboxEvent.completes (ev : OutboxEvent) (p : Payment) : Prop :=
  ev.subject = .paymentCompleted ∧ ev.payload.bookingID = p.bookingID ∧ ev.payload.paymentID = p.id

/-- Every message about the booking has been delivered and acknowledged. -/
structure Drained (p : Payment) (c : PaidConfig) : Prop where
  cancelled : ∀ ev ∈ c.world.book.outbox, ev.cancels p.bookingID →
    ∃ t ∈ c.threads, t.call = .bookingCancelled ev ∧ t.rest = .ret true
  completed : ∀ ev ∈ c.world.pay.db.outbox, ev.completes p →
    ∃ t ∈ c.threads, t.call = .paymentCompleted ev ∧ t.rest = .ret true

/-- A captured payment has its booking, or the guest has the money back. -/
def PaidWorld.Agrees (w : PaidWorld) (p : Payment) : Prop :=
  w.pay.HasStatus p .succeeded → w.book.status p.bookingID = some .confirmed ∨
    w.book.status p.bookingID = some .completed ∨ p.providerID ∈ w.pay.refunded

/-- A delivery of the event has found the payment not paid yet, which is the end of it. -/
def ReadUnpaid (p : Payment) (ev : BookingEvent) (ts : List PaidThread) : Prop :=
  ∃ t ∈ ts, t.call = .bookingCancelled ev ∧
    ∃ q : Payment, (⟨.pay (.getByBookingID p.bookingID), .ok q⟩ : Event PaidOp PaidOp.Res) ∈ t.did ∧ q.status = .pending

/-- When the payment of a cancelled booking succeeds, a request for its refund is still to be heard. -/
def RefundAwaits (p : Payment) (c : PaidConfig) : PaidOp → Prop
  | .pay (.updateStatusWithOutbox id _ _ _) => id = p.id → c.world.pay.HasStatus p .pending →
      c.world.book.status p.bookingID = some .cancelled →
      ∃ ev ∈ c.world.book.outbox, ev.cancels p.bookingID ∧ ¬ ReadUnpaid p ev c.threads
  | _ => True

end Agregator
