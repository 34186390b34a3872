import Agregator.ConcPool
import Agregator.PayFacts
/-!
# PayUsecase — webhooks and refunds

`HandleWebhook` and `RefundByBooking` as programs over the calls they make.  A call on the database is one transaction;
a call on the provider is answered by the environment, which also says which calls fail and whether a failed one took
effect all the same.
-/
namespace Agregator

open Conc

abbrev RawBody := List UInt8

/-- The calls the payment use case makes: on its repositories, the clock and the provider. -/
inductive PayOp where
  | getByBookingID (bookingID : String)
  | getByProviderID (providerID : String)
  | updateStatusWithOutbox (id : String) (newStatus : PaymentStatus) (providerID : String) (event : OutboxEvent)
  | appendAccrual (e : LedgerEntry)
  | appendReversal (e : LedgerEntry)
  | findAccrualByPayment (paymentID : String)
  | now
  | parseWebhook (rawBody : RawBody)
  | capture (providerPaymentID : String) (captureKey : String)
  | refund (providerPaymentID : String) (amountKopecks : ℤ) (idempotencyKey : String)
deriving DecidableEq

namespace PayOp

@[reducible] def Res : PayOp → Type
  | getByBookingID _ | getByProviderID _ => Except Err Payment
  | updateStatusWithOutbox _ _ _ _ => Except Err Bool
  | appendAccrual _ | appendReversal _ => Except Err Unit
  | findAccrualByPayment _ => Except Err LedgerEntry
  | now => Time
  | parseWebhook _ => Except Err WebhookEvent
  | capture _ _ | refund _ _ _ => Except Err Unit

end PayOp

abbrev PayProg := Prog PayOp PayOp.Res

abbrev PayOp.call (o : PayOp) : PayProg o.Res := Prog.perform o

open PayOp (call)

structure PaymentUseCase where
  activeProvider : String
  holdDuration : Time

def statusToSubject : PaymentStatus → OutboxSubject
  | .succeeded => .paymentCompleted
  | .cancelled => .paymentFailed
  | .refunded => .paymentRefunded
  | .pending => .paymentFailed

def buildOutboxEvent (p : Payment) (subject : OutboxSubject) : OutboxEvent where
  subject := subject
  payload := { paymentID := p.id, bookingID := p.bookingID, status := p.status.string }
  paymentID := p.id

/-- The service date, or the present when there is none. -/
def Payment.baseAt (p : Payment) : PayProg Time :=
  match p.serviceAt with
  | some t => return t
  | none => call .now

namespace PaymentUseCase

variable (uc : PaymentUseCase)

def accrualEntry (p : Payment) (baseAt : Time) : LedgerEntry where
  partnerType := PartnerType.ofString p.counterpartyType
  partnerID := p.counterpartyID
  entryType := .accrual
  amountKopecks := p.counterpartyNetKopecks
  paymentID := p.id
  availableAt := some (baseAt + uc.holdDuration)

/-- `AlreadyExists` is the retry of an accrual that is there. -/
def writeAccrual (p : Payment) : PayProg (Option Err) :=
  if p.counterpartyID = "" ∨ p.counterpartyType = "" then return none
  else if p.counterpartyNetKopecks ≤ 0 then return none
  else do
    let baseAt ← p.baseAt
    match ← call (.appendAccrual (uc.accrualEntry p baseAt)) with
    | .error err => if err.code = .alreadyExists then return none else return (some err)
    | .ok () => return none

def providerMismatch (p : Payment) : Err :=
  .status .failedPrecondition ("webhook provider mismatch: payment created by \"" ++ p.providerName ++
    "\", active provider is \"" ++ uc.activeProvider ++ "\"")

/-- The event is nil only when the notification cannot be parsed. -/
def handleWebhook (rawBody : RawBody) : PayProg (Option WebhookEvent × Option Err) := do
  match ← call (.parseWebhook rawBody) with
  | .error err => return (none, some (err.wrap "parse webhook"))
  | .ok event =>
    if event.requiresCapture then
      match ← call (.capture event.providerPaymentID event.captureKey) with
      | .error err => return (some event, some (err.wrap "capture payment"))
      | .ok () => return (some event, none)
    else if event.status.isTerminal = false then
      return (some event, none)
    else
      match ← call (.getByProviderID event.providerPaymentID) with
      | .error err => return (some event, some (err.wrap ("payment not found for provider_id " ++ event.providerPaymentID)))
      | .ok p =>
        if uc.activeProvider ≠ "" ∧ p.providerName ≠ uc.activeProvider then
          return (some event, some (uc.providerMismatch p))
        else
          -- the payload is built from the row as it was read: its status is the one before this event
          match ← call (.updateStatusWithOutbox p.id event.status event.providerPaymentID
            (buildOutboxEvent p (statusToSubject event.status))) with
          | .error err => return (some event, some err)
          | .ok updated =>
            if updated = false then
              return (some event, none)
            else if event.status = .succeeded then
              match ← uc.writeAccrual p with
              | some err => return (some event, some (err.wrap "write accrual"))
              | none => return (some event, none)
            else
              return (some event, none)

end PaymentUseCase

def reversalEntry (p : Payment) (accrual : LedgerEntry) : LedgerEntry where
  partnerType := accrual.partnerType
  partnerID := accrual.partnerID
  entryType := .reversal
  amountKopecks := -accrual.amountKopecks
  paymentID := p.id
  reversesEntryID := accrual.id
  reason := "refund"

/-- No accrual, nothing to reverse. -/
def writeReversal (p : Payment) : PayProg (Option Err) := do
  match ← call (.findAccrualByPayment p.id) with
  | .error err => if err.code = .notFound then return none else return (some (err.wrap "find accrual"))
  | .ok accrual =>
    match ← call (.appendReversal (reversalEntry p accrual)) with
    | .error err => if err.code = .alreadyExists then return none else return (some err)
    | .ok () => return none

def refundByBooking (bookingID : String) : PayProg (Option Err) := do
  match ← call (.getByBookingID bookingID) with
  | .error err => if err.code = .notFound then return none else return (some (err.wrap "get payment by booking"))
  | .ok p =>
    if p.status ≠ .succeeded then
      return none
    else
      match ← call (.refund p.providerID p.amount (p.id ++ "-refund")) with
      | .error err => return (some (err.wrap ("refund booking " ++ bookingID)))
      | .ok () =>
        -- whether the row was updated is not looked at
        match ← call (.updateStatusWithOutbox p.id .refunded p.providerID
          (buildOutboxEvent { p with status := .refunded } .paymentRefunded)) with
        | .error err => return (some (err.wrap "update payment status to refunded"))
        | .ok _ =>
          match ← writeReversal { p with status := .refunded } with
          | some err => return (some (err.wrap "write reversal"))
          | none => return none

/-! ## What the calls do -/

/-- The payment database, and the payments the provider has paid back. -/
structure PayWorld where
  db : PaymentDB
  refunded : List String

/-- Which transactions of the database fail. -/
structure PayFaults where
  getByBookingID : Fault String := .none
  getByProviderID : Fault String := .none
  updateStatusWithOutbox : Fault String := .none
  appendAccrual : Fault String := .none
  appendReversal : Fault String := .none
  findAccrualByPayment : Fault String := .none

/-- What the environment has in store for a call: the time, the provider's answers, the failures of the database. -/
structure PayEnv where
  now : Time
  parse : RawBody → Except Err WebhookEvent
  capture : Except Err Unit
  refund : Fault Err
  faults : PayFaults

/-- A transaction of the payment database. -/
def onPayments {α : Type} (f : PaymentDB → Except Err α × PaymentDB) (w : PayWorld) : Except Err α × PayWorld :=
  ((f w.db).1, { w with db := (f w.db).2 })

namespace PayOp

def run (env : PayEnv) : (o : PayOp) → PayWorld → o.Res × PayWorld
  | getByBookingID b, w => env.faults.getByBookingID.apply Err.plain
      (onPayments fun db => (PaymentRepo.getByBookingID b db, db)) w
  | getByProviderID i, w => env.faults.getByProviderID.apply Err.plain
      (onPayments fun db => (PaymentRepo.getByProviderID i db, db)) w
  | updateStatusWithOutbox id st pid ev, w => env.faults.updateStatusWithOutbox.apply Err.plain
      (onPayments (PaymentRepo.updateStatusWithOutbox env.now id st pid ev)) w
  | appendAccrual e, w => env.faults.appendAccrual.apply Err.plain
      (onPayments (LedgerRepo.appendAccrual env.now e)) w
  | appendReversal e, w => env.faults.appendReversal.apply Err.plain
      (onPayments (LedgerRepo.appendReversal env.now e)) w
  | findAccrualByPayment pid, w => env.faults.findAccrualByPayment.apply Err.plain
      (onPayments fun db => (LedgerRepo.findAccrualByPayment pid db, db)) w
  | now, w => (env.now, w)
  | parseWebhook raw, w => (env.parse raw, w)
  | capture _ _, w => (env.capture, w)
  | refund pid _ _, w => env.refund.apply id (fun w => (.ok (), { w with refunded := w.refunded ++ [pid] })) w

/-- A call in an environment that may be any at every call. -/
def Exec (allowed : PayEnv → Prop) (o : PayOp) (w : PayWorld) (r : o.Res) (w' : PayWorld) : Prop :=
  ∃ env, allowed env ∧ o.run env w = (r, w')

end PayOp

/-- Any environment. -/
def anyEnv (_ : PayEnv) : Prop := True

/-- What neither writes a payment nor tells of one. -/
def PayOp.offside : PayOp → Prop
  | .updateStatusWithOutbox _ _ _ _ => False
  | _ => True

theorem writeAccrual_offside (pc : PaymentUseCase) (q : Payment) : (pc.writeAccrual q).All PayOp.offside := by
  have happ : ∀ base, (do
      match ← PayOp.call (.appendAccrual (pc.accrualEntry q base)) with
      | .error err => if err.code = .alreadyExists then return none else return (some err)
      | .ok () => return none : PayProg (Option Err)).All PayOp.offside := by
    intro base
    refine ⟨trivial, fun r => ?_⟩
    cases r with
    | error err =>
      dsimp only [Prog.bind_ret]
      split <;> trivial
    | ok _ => trivial
  unfold PaymentUseCase.writeAccrual
  split
  · trivial
  · split
    · trivial
    · refine Prog.All.bind happ ?_
      unfold Payment.baseAt
      split
      · trivial
      · exact ⟨trivial, fun _ => trivial⟩

theorem writeReversal_offside (q : Payment) : (writeReversal q).All PayOp.offside := by
  refine ⟨trivial, fun r => ?_⟩
  cases r with
  | error err =>
    dsimp only [Prog.bind_ret]
    split <;> trivial
  | ok accrual =>
    refine ⟨trivial, fun r => ?_⟩
    cases r with
    | error err =>
      dsimp only [Prog.bind_ret]
      split <;> trivial
    | ok _ => trivial

/-! ### What a call can answer -/

section Answers

variable {α : Type} {w w' : PayWorld} {A : PayEnv → Prop}

theorem tx_cases {f : PaymentDB → Except Err α × PaymentDB} {r : Except Err α} {fault : Fault String}
    (h : fault.apply Err.plain (onPayments f) w = (r, w')) :
    (r = (f w.db).1 ∧ w' = { w with db := (f w.db).2 }) ∨
    ∃ t, r = .error (.plain t) ∧ (w' = w ∨ w' = { w with db := (f w.db).2 }) := by
  cases fault with
  | none =>
    cases h
    exact .inl ⟨rfl, rfl⟩
  | before t =>
    cases h
    exact .inr ⟨t, rfl, .inl rfl⟩
  | after t =>
    cases h
    exact .inr ⟨t, rfl, .inr rfl⟩

/-- A transaction under a fault, by what the fault does. -/
theorem tx_run (fault : Fault String) (f : PaymentDB → Except Err α × PaymentDB) (w : PayWorld) :
    (fault.lands = true ∧ fault.answers = true ∧
      fault.apply Err.plain (onPayments f) w = ((f w.db).1, { w with db := (f w.db).2 })) ∨
    (fault.lands = true ∧ fault.answers = false ∧
      ∃ t, fault.apply Err.plain (onPayments f) w = (.error (.plain t), { w with db := (f w.db).2 })) ∨
    (fault.lands = false ∧ fault.answers = false ∧ ∃ t, fault.apply Err.plain (onPayments f) w = (.error (.plain t), w)) := by
  cases fault with
  | none => exact .inl ⟨rfl, rfl, rfl⟩
  | after t => exact .inr (.inl ⟨rfl, rfl, t, rfl⟩)
  | before t => exact .inr (.inr ⟨rfl, rfl, t, rfl⟩)

/-- A read under a fault. -/
theorem read_run (fault : Fault String) (g : PaymentDB → Except Err α) (w : PayWorld) :
    (fault.answers = true ∧ fault.apply Err.plain (onPayments fun db => (g db, db)) w = (g w.db, w)) ∨
    (fault.answers = false ∧ ∃ t, fault.apply Err.plain (onPayments fun db => (g db, db)) w = (.error (.plain t), w)) := by
  cases fault with
  | none => exact .inl ⟨rfl, rfl⟩
  | after t => exact .inr ⟨rfl, t, rfl⟩
  | before t => exact .inr ⟨rfl, t, rfl⟩

theorem PayOp.run_getByProviderID (env : PayEnv) (i : String) (w : PayWorld) :
    (env.faults.getByProviderID.answers = true ∧ PayOp.run env (.getByProviderID i) w = (PaymentRepo.getByProviderID i w.db, w)) ∨
    (env.faults.getByProviderID.answers = false ∧ ∃ t, PayOp.run env (.getByProviderID i) w = (.error (.plain t), w)) :=
  read_run _ _ w

theorem PayOp.run_updateStatusWithOutbox (env : PayEnv) (id : String) (st : PaymentStatus) (pid : String) (ev : OutboxEvent) (w : PayWorld) :
    (env.faults.updateStatusWithOutbox.lands = true ∧ env.faults.updateStatusWithOutbox.answers = true ∧
      PayOp.run env (.updateStatusWithOutbox id st pid ev) w = ((PaymentRepo.updateStatusWithOutbox env.now id st pid ev w.db).1, { w with db := (PaymentRepo.updateStatusWithOutbox env.now id st pid ev w.db).2 })) ∨
    (env.faults.updateStatusWithOutbox.lands = true ∧ env.faults.updateStatusWithOutbox.answers = false ∧
      ∃ t, PayOp.run env (.updateStatusWithOutbox id st pid ev) w = (.error (.plain t), { w with db := (PaymentRepo.updateStatusWithOutbox env.now id st pid ev w.db).2 })) ∨
    (env.faults.updateStatusWithOutbox.lands = false ∧ env.faults.updateStatusWithOutbox.answers = false ∧
      ∃ t, PayOp.run env (.updateStatusWithOutbox id st pid ev) w = (.error (.plain t), w)) :=
  tx_run _ _ w

theorem PayOp.run_appendAccrual (env : PayEnv) (e : LedgerEntry) (w : PayWorld) :
    (env.faults.appendAccrual.lands = true ∧ env.faults.appendAccrual.answers = true ∧
      PayOp.run env (.appendAccrual e) w = ((LedgerRepo.appendAccrual env.now e w.db).1, { w with db := (LedgerRepo.appendAccrual env.now e w.db).2 })) ∨
    (env.faults.appendAccrual.lands = true ∧ env.faults.appendAccrual.answers = false ∧
      ∃ t, PayOp.run env (.appendAccrual e) w = (.error (.plain t), { w with db := (LedgerRepo.appendAccrual env.now e w.db).2 })) ∨
    (env.faults.appendAccrual.lands = false ∧ env.faults.appendAccrual.answers = false ∧
      ∃ t, PayOp.run env (.appendAccrual e) w = (.error (.plain t), w)) :=
  tx_run _ _ w

theorem read_cases {g : PaymentDB → Except Err α} {r : Except Err α} {fault : Fault String}
    (h : fault.apply Err.plain (onPayments fun db => (g db, db)) w = (r, w')) :
    w' = w ∧ (r = g w.db ∨ ∃ t, r = .error (.plain t)) := by
  rcases tx_cases h with ⟨hr, hw⟩ | ⟨t, hr, hw | hw⟩
  · exact ⟨hw, .inl hr⟩
  · exact ⟨hw, .inr ⟨t, hr⟩⟩
  · exact ⟨hw, .inr ⟨t, hr⟩⟩

namespace PayOp.Exec

theorem getByBookingID {b : String} {r : Except Err Payment} (h : PayOp.Exec A (.getByBookingID b) w r w') :
    w' = w ∧ (r = PaymentRepo.getByBookingID b w.db ∨ ∃ t, r = .error (.plain t)) :=
  have ⟨_, _, he⟩ := h
  read_cases he

theorem getByProviderID {i : String} {r : Except Err Payment} (h : PayOp.Exec A (.getByProviderID i) w r w') :
    w' = w ∧ (r = PaymentRepo.getByProviderID i w.db ∨ ∃ t, r = .error (.plain t)) :=
  have ⟨_, _, he⟩ := h
  read_cases he

theorem findAccrualByPayment {i : String} {r : Except Err LedgerEntry}
    (h : PayOp.Exec A (.findAccrualByPayment i) w r w') :
    w' = w ∧ (r = LedgerRepo.findAccrualByPayment i w.db ∨ ∃ t, r = .error (.plain t)) :=
  have ⟨_, _, he⟩ := h
  read_cases he

theorem updateStatusWithOutbox {id pid : String} {st : PaymentStatus} {ev : OutboxEvent} {r : Except Err Bool}
    (h : PayOp.Exec A (.updateStatusWithOutbox id st pid ev) w r w') :
    ∃ now, (r = (PaymentRepo.updateStatusWithOutbox now id st pid ev w.db).1 ∧
        w' = { w with db := (PaymentRepo.updateStatusWithOutbox now id st pid ev w.db).2 }) ∨
      ∃ t, r = .error (.plain t) ∧
        (w' = w ∨ w' = { w with db := (PaymentRepo.updateStatusWithOutbox now id st pid ev w.db).2 }) :=
  have ⟨env, _, he⟩ := h
  ⟨env.now, tx_cases he⟩

theorem appendAccrual {e : LedgerEntry} {r : Except Err Unit} (h : PayOp.Exec A (.appendAccrual e) w r w') :
    ∃ now, (r = (LedgerRepo.appendAccrual now e w.db).1 ∧
        w' = { w with db := (LedgerRepo.appendAccrual now e w.db).2 }) ∨
      ∃ t, r = .error (.plain t) ∧ (w' = w ∨ w' = { w with db := (LedgerRepo.appendAccrual now e w.db).2 }) :=
  have ⟨env, _, he⟩ := h
  ⟨env.now, tx_cases he⟩

theorem appendReversal {e : LedgerEntry} {r : Except Err Unit} (h : PayOp.Exec A (.appendReversal e) w r w') :
    ∃ now, (r = (LedgerRepo.appendReversal now e w.db).1 ∧
        w' = { w with db := (LedgerRepo.appendReversal now e w.db).2 }) ∨
      ∃ t, r = .error (.plain t) ∧ (w' = w ∨ w' = { w with db := (LedgerRepo.appendReversal now e w.db).2 }) :=
  have ⟨env, _, he⟩ := h
  ⟨env.now, tx_cases he⟩

/-- An answer without an error is a refund the provider has made. -/
theorem refund {pid key : String} {amount : ℤ} {r : Except Err Unit} (h : PayOp.Exec A (.refund pid amount key) w r w') :
    w'.db = w.db ∧ (r = .ok () → w'.refunded = w.refunded ++ [pid]) ∧
      (w'.refunded = w.refunded ∨ w'.refunded = w.refunded ++ [pid]) := by
  obtain ⟨env, _, he⟩ := h
  simp only [PayOp.run] at he
  cases hf : env.refund with
  | none =>
    rw [hf] at he
    cases he
    exact ⟨rfl, fun _ => rfl, .inr rfl⟩
  | before e =>
    rw [hf] at he
    cases he
    exact ⟨rfl, nofun, .inl rfl⟩
  | after e =>
    rw [hf] at he
    cases he
    exact ⟨rfl, nofun, .inr rfl⟩

theorem update_state {id pid : String} {st : PaymentStatus} {ev : OutboxEvent} {r : Except Err Bool}
    (he : PayOp.Exec A (.updateStatusWithOutbox id st pid ev) w r w') :
    ∃ now, w' = w ∨ w' = { w with db := (PaymentRepo.updateStatusWithOutbox now id st pid ev w.db).2 } := by
  obtain ⟨now, ⟨-, h⟩ | ⟨-, -, h⟩⟩ := updateStatusWithOutbox he
  · exact ⟨now, .inr h⟩
  · exact ⟨now, h⟩

/-- **Everything a status update does**: nothing, or one row that is not final yet is moved and told of. -/
theorem update_row {id pid : String} {st : PaymentStatus} {ev : OutboxEvent} {r : Except Err Bool}
    (he : PayOp.Exec A (.updateStatusWithOutbox id st pid ev) w r w') :
    w' = w ∨ ∃ now p l₁ l₂ db', w.db.payments.rows = l₁ ++ p :: l₂ ∧ p.id = id ∧ p.status.isTerminal = false ∧
      w' = { w with db := db' } ∧
      db'.payments.rows = l₁ ++ { p with status := st, providerID := pid, updatedAt := now } :: l₂ ∧
      ∃ o : OutboxEvent, db'.outbox = w.db.outbox ++ [o] ∧ o.subject = ev.subject ∧ o.payload = ev.payload ∧
        o.paymentID = ev.paymentID ∧ o.sentAt = none := by
  obtain ⟨now, h | h⟩ := he.update_state
  · exact .inl h
  rcases PaymentRepo.updateStatusWithOutbox_cases now id st pid ev w.db with
    ⟨e, hs, -⟩ | ⟨hs, -⟩ | ⟨p, l₁, l₂, db', hrows, hid, hst, hs, hrows', ho, -⟩
  · rw [hs] at h
    exact .inl h
  · rw [hs] at h
    exact .inl h
  · rw [hs] at h
    exact .inr ⟨now, p, l₁, l₂, db', hrows, hid, hst, h, hrows', ho⟩

/-- A status update leaves the other payments alone. -/
theorem update_others {id pid : String} {st : PaymentStatus} {ev : OutboxEvent} {r : Except Err Bool}
    (he : PayOp.Exec A (.updateStatusWithOutbox id st pid ev) w r w') :
    (∀ x ∈ w.db.payments.rows, x.id ≠ id → x ∈ w'.db.payments.rows) ∧ (∀ e ∈ w.db.outbox, e ∈ w'.db.outbox) ∧
      w'.refunded = w.refunded := by
  rcases he.update_row with rfl | ⟨now, y, l₁, l₂, db', hrows, hid, -, rfl, hrows', o, ho, -⟩
  · exact ⟨fun _ h _ => h, fun _ h => h, rfl⟩
  refine ⟨fun x hx hne => ?_, fun e he => by simp [ho, he], rfl⟩
  rw [hrows] at hx
  rw [hrows']
  simp only [List.mem_append, List.mem_cons] at hx ⊢
  rcases hx with hx | rfl | hx
  · exact .inl hx
  · exact absurd hid hne
  · exact .inr (.inr hx)

/-- Everything else leaves all payments alone, and takes back no refund. -/
theorem payments {o : PayOp} {r : o.Res} (he : PayOp.Exec A o w r w') (ho : o.offside) :
    w'.db.payments = w.db.payments ∧ w'.db.outbox = w.db.outbox ∧ ∀ i ∈ w.refunded, i ∈ w'.refunded := by
  have htx : ∀ {α : Type} {f : PaymentDB → Except Err α × PaymentDB} {r : Except Err α},
      (f w.db).2.payments = w.db.payments ∧ (f w.db).2.outbox = w.db.outbox →
      (r = (f w.db).1 ∧ w' = { w with db := (f w.db).2 }) ∨
        (∃ t, r = .error (.plain t) ∧ (w' = w ∨ w' = { w with db := (f w.db).2 })) →
      w'.db.payments = w.db.payments ∧ w'.db.outbox = w.db.outbox ∧ ∀ i ∈ w.refunded, i ∈ w'.refunded := by
    rintro α f r ⟨hp, hout⟩ (⟨-, rfl⟩ | ⟨-, -, rfl | rfl⟩)
    · exact ⟨hp, hout, fun _ h => h⟩
    · exact ⟨rfl, rfl, fun _ h => h⟩
    · exact ⟨hp, hout, fun _ h => h⟩
  cases o with
  | updateStatusWithOutbox => exact False.elim ho
  | getByBookingID b =>
    rw [(PayOp.Exec.getByBookingID he).1]
    exact ⟨rfl, rfl, fun _ h => h⟩
  | getByProviderID i =>
    rw [(PayOp.Exec.getByProviderID he).1]
    exact ⟨rfl, rfl, fun _ h => h⟩
  | findAccrualByPayment i =>
    rw [(PayOp.Exec.findAccrualByPayment he).1]
    exact ⟨rfl, rfl, fun _ h => h⟩
  | appendAccrual e =>
    obtain ⟨now, he⟩ := PayOp.Exec.appendAccrual he
    refine htx (f := LedgerRepo.appendAccrual now e) ?_ he
    rcases LedgerRepo.appendAccrual_cases now e w.db with ⟨err, h, -⟩ | ⟨err, h, -⟩ | ⟨t, h, -⟩ <;> rw [h] <;> exact ⟨rfl, rfl⟩
  | appendReversal e =>
    obtain ⟨now, he⟩ := PayOp.Exec.appendReversal he
    refine htx (f := LedgerRepo.appendReversal now e) ?_ he
    rcases LedgerRepo.appendReversal_cases now e w.db with ⟨err, h, -⟩ | ⟨err, h, -⟩ | ⟨t, h, -⟩ <;> rw [h] <;> exact ⟨rfl, rfl⟩
  | now | parseWebhook | capture =>
    obtain ⟨env, -, he⟩ := he
    cases he
    exact ⟨rfl, rfl, fun _ h => h⟩
  | refund i a k =>
    obtain ⟨hdb, -, hr⟩ := PayOp.Exec.refund he
    rw [hdb]
    refine ⟨rfl, rfl, fun i h => ?_⟩
    rcases hr with hr | hr <;> rw [hr]
    · exact h
    · exact List.mem_append_left _ h

end PayOp.Exec

end Answers

end Agregator
