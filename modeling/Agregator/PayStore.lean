import Agregator.PayDomain
import Agregator.RelTable
/-!
# PayStore — the payment database

The tables with the constraints of the migrations, and the repositories for payments, the outbox and the partner ledger.
Every function is one transaction: it returns its answer and the database after it, unchanged when it fails.
-/
namespace Agregator

open Rel

/-! ## Schemas -/

/-- `payments`.  Every row is inserted with a `provider_id`, the empty string before the provider has answered, so the
index that leaves out `NULL` leaves out no row. -/
def paymentSchema : Schema Payment where
  check p := isUUID p.id && isUUID p.bookingID && decide (p.providerID.length ≤ 255) &&
    decide (p.idempotencyKey.length ≤ 255) && decide (p.counterpartyType.length ≤ 16) &&
    decide (p.counterpartyID.length ≤ 64) && decide (p.providerName.length ≤ 32)
  clash a b := a.id == b.id || a.bookingID == b.bookingID || a.providerID == b.providerID ||
    a.idempotencyKey == b.idempotencyKey
  clash_comm a b := by simp only [Bool.beq_comm]

/-- `chk_amount_sign`. -/
def LedgerEntry.signOk (e : LedgerEntry) : Bool :=
  match e.entryType with
  | .accrual => decide (0 < e.amountKopecks)
  | .reversal | .payout => decide (e.amountKopecks < 0)
  | .adjustment => decide (e.amountKopecks ≠ 0)

/-- `chk_payment_ref`, `chk_payout_ref`, `chk_reversal_ref` and `chk_adjustment_reason`. -/
def LedgerEntry.refOk (e : LedgerEntry) : Bool :=
  match e.entryType with
  | .accrual => e.paymentID != ""
  | .reversal => e.paymentID != "" && e.reversesEntryID != 0
  | .payout => e.payoutID != ""
  | .adjustment => e.reason != ""

/-- `partner_ledger`, with its three partial unique indexes. -/
def ledgerSchema : Schema LedgerEntry where
  check e := e.partnerType.valid && isUUID e.partnerID && (e.paymentID == "" || isUUID e.paymentID) &&
    (e.payoutID == "" || isUUID e.payoutID) && decide (0 < e.id) && e.signOk && e.refOk
  clash a b := a.id == b.id ||
    (a.entryType == .accrual && b.entryType == .accrual && a.paymentID == b.paymentID) ||
    (a.entryType == .reversal && b.entryType == .reversal && a.paymentID == b.paymentID) ||
    (a.entryType == .payout && b.entryType == .payout && a.payoutID == b.payoutID)
  clash_comm a b := by
    rw [Bool.beq_comm (a := a.id), Bool.beq_comm (a := a.paymentID), Bool.beq_comm (a := a.payoutID),
      Bool.and_comm (a.entryType == .accrual), Bool.and_comm (a.entryType == .reversal),
      Bool.and_comm (a.entryType == .payout)]

/-- `payouts`: the key, the provider's id of a payout, and at most one open payout of a partner. -/
def payoutSchema : Schema Payout where
  check p := isUUID p.id && p.partnerType.valid && isUUID p.partnerID && decide (0 < p.amountKopecks) &&
    decide (p.currency.length ≤ 3) && decide (p.methodDisplay.length ≤ 64) && p.status.stored &&
    decide (p.providerName.length ≤ 32) && decide ((p.providerPayoutID.getD "").length ≤ 255) &&
    decide (p.idempotencyKey.length ≤ 255)
  clash a b := a.id == b.id || a.idempotencyKey == b.idempotencyKey ||
    (a.providerName == b.providerName && a.providerPayoutID.isSome && a.providerPayoutID == b.providerPayoutID) ||
    (a.status.isOpen && b.status.isOpen && a.partner == b.partner)
  clash_comm a b := by
    have h3 : (a.providerPayoutID.isSome && a.providerPayoutID == b.providerPayoutID) =
        (b.providerPayoutID.isSome && b.providerPayoutID == a.providerPayoutID) := by
      cases a.providerPayoutID <;> cases b.providerPayoutID <;> simp [Bool.beq_comm]
    rw [Bool.and_assoc, h3, ← Bool.and_assoc, Bool.beq_comm (a := a.id), Bool.beq_comm (a := a.idempotencyKey),
      Bool.beq_comm (a := a.providerName), Bool.beq_comm (a := a.partner), Bool.and_comm a.status.isOpen]

/-- A string of `n` digits. -/
def digits (n : ℕ) (s : String) : Bool := s.length == n && s.toList.all Char.isDigit

/-- `chk_card_fields`, `chk_bank_fields` and `chk_sbp_fields`. -/
def PayoutMethod.fieldsOk (m : PayoutMethod) : Bool :=
  match m.kind with
  | .card => digits 4 m.cardLast4 && m.providerToken != "" && m.providerName != ""
  | .bankAccount => digits 9 m.bankBIC && digits 20 m.bankAccount && m.recipientName != "" &&
      (m.recipientINN == "" || digits 10 m.recipientINN || digits 12 m.recipientINN) &&
      (m.recipientKPP == "" || digits 9 m.recipientKPP)
  | .sbp => m.sbpPhone.startsWith "+7" && digits 10 (String.ofList (m.sbpPhone.toList.drop 2))

/-- `partner_payout_methods`: one active method of a partner. -/
def methodSchema : Schema PayoutMethod where
  check m := isUUID m.id && m.partnerType.valid && isUUID m.partnerID && m.fieldsOk
  clash a b := a.id == b.id || (a.deactivatedAt.isNone && b.deactivatedAt.isNone && a.partnerType == b.partnerType &&
    a.partnerID == b.partnerID)
  clash_comm a b := by
    rw [Bool.beq_comm (a := a.id), Bool.beq_comm (a := a.partnerType), Bool.beq_comm (a := a.partnerID),
      Bool.and_comm a.deactivatedAt.isNone]

structure PaymentDB where
  payments : Table paymentSchema
  outbox   : List OutboxEvent
  ledger   : Table ledgerSchema
  payouts  : Table payoutSchema
  methods  : Table methodSchema

/-- The database that holds one payment and nothing else. -/
def PaymentDB.ofPayment (p : Payment) (h : paymentSchema.check p = true) : PaymentDB where
  payments := ⟨[p], by simpa using h, by simp⟩
  outbox := []
  ledger := .empty _
  payouts := .empty _
  methods := .empty _

/-- The driver's error for a constraint of a table. -/
def violationErr : Violation → Err
  | .check => .plain "ERROR: new row violates check constraint (SQLSTATE 23514)"
  | .unique => .plain "ERROR: duplicate key value violates unique constraint (SQLSTATE 23505)"

def foreignKeyErr : Err := .plain "ERROR: insert or update violates foreign key constraint (SQLSTATE 23503)"

@[simp] theorem violationErr_code (v : Violation) : (violationErr v).code = .unknown := by cases v <;> rfl

@[simp] theorem foreignKeyErr_code : foreignKeyErr.code = .unknown := rfl

/-! ## Payments -/

namespace PaymentRepo

/-- The one row of a query, or `NotFound`. -/
def scanOne (q : Payment → Bool) (db : PaymentDB) : Except Err Payment :=
  match db.payments.get q with
  | some p => .ok p
  | none => .error (.status .notFound "payment not found")

def getByBookingID (bookingID : String) (db : PaymentDB) : Except Err Payment :=
  match uuidParam bookingID with
  | .ok u => scanOne (fun p => p.bookingID == u) db
  | .error e => .error e

def getByProviderID (providerID : String) (db : PaymentDB) : Except Err Payment :=
  scanOne (fun p => p.providerID == providerID) db

/-- The row `UpdateStatusWithOutbox` is after, if the guard on its status lets it through. -/
def guarded (id : String) (p : Payment) : Bool := p.id == id && !p.status.isTerminal

/-- Whether a row was updated; with it, its outbox row. -/
def updateStatusWithOutbox (now : Time) (id : String) (newStatus : PaymentStatus) (providerID : String)
    (event : OutboxEvent) (db : PaymentDB) : Except Err Bool × PaymentDB :=
  match uuidParam id with
  | .error e => (.error e, db)
  | .ok id =>
    match db.payments.get (guarded id) with
    | none => (.ok false, db)
    | some _ =>
      match db.payments.update (guarded id)
        (fun p => { p with status := newStatus, providerID := providerID, updatedAt := now }) with
      | .error v => (.error (violationErr v), db)
      | .ok payments =>
        match uuidParam event.paymentID with
        | .error e => (.error e, db)
        | .ok paymentID =>
          (.ok true, { db with
            payments := payments
            outbox := db.outbox ++ [{ event with
              id := nextSerial (db.outbox.map (·.id)), paymentID := paymentID, createdAt := now, sentAt := none,
              attemptCount := 0, failedAt := none, lastError := "" }] })

end PaymentRepo

/-! ## The partner ledger -/

/-- The row an entry becomes: the sequence and the clock fill the columns it does not set. -/
def LedgerEntry.row (e : LedgerEntry) (now : Time) (db : PaymentDB) : LedgerEntry :=
  { e with id := nextSerial (db.ledger.rows.map (·.id)), createdAt := now }

/-- The foreign keys of a ledger row. -/
def PaymentDB.refersTo (db : PaymentDB) (e : LedgerEntry) : Bool :=
  (e.paymentID == "" || db.payments.rows.any (·.id == e.paymentID)) &&
  (e.payoutID == "" || db.payouts.rows.any (·.id == e.payoutID)) &&
  (e.reversesEntryID == 0 || db.ledger.rows.any (·.id == e.reversesEntryID))

/-- A unique violation, and only that, becomes `AlreadyExists`. -/
def appendLedgerEntry (now : Time) (e : LedgerEntry) (db : PaymentDB) : Except Err Unit × PaymentDB :=
  match db.ledger.insert (e.row now db) with
  | .error .unique => (.error (.status .alreadyExists "ledger entry already exists"), db)
  | .error .check => (.error ((violationErr .check).wrap "ledger insert"), db)
  | .ok ledger =>
    if db.refersTo e then (.ok (), { db with ledger := ledger }) else (.error (foreignKeyErr.wrap "ledger insert"), db)

namespace LedgerRepo

def appendAccrual (now : Time) (e : LedgerEntry) (db : PaymentDB) : Except Err Unit × PaymentDB :=
  if e.entryType ≠ .accrual then
    (.error (.status .invalidArgument "AppendAccrual requires entry_type=accrual"), db)
  else if e.amountKopecks ≤ 0 then
    (.error (.status .invalidArgument "accrual amount must be positive"), db)
  else if e.paymentID = "" then
    (.error (.status .invalidArgument "accrual requires payment_id"), db)
  else appendLedgerEntry now e db

def appendReversal (now : Time) (e : LedgerEntry) (db : PaymentDB) : Except Err Unit × PaymentDB :=
  if e.entryType ≠ .reversal then
    (.error (.status .invalidArgument "AppendReversal requires entry_type=reversal"), db)
  else if e.amountKopecks ≥ 0 then
    (.error (.status .invalidArgument "reversal amount must be negative"), db)
  else if e.paymentID = "" ∨ e.reversesEntryID = 0 then
    (.error (.status .invalidArgument "reversal requires payment_id and reverses_entry_id"), db)
  else appendLedgerEntry now e db

def isAccrualOf (paymentID : String) (e : LedgerEntry) : Bool := e.paymentID == paymentID && e.entryType == .accrual

def findAccrualByPayment (paymentID : String) (db : PaymentDB) : Except Err LedgerEntry :=
  match uuidParam paymentID with
  | .error e => .error (e.wrap "ledger find accrual")
  | .ok id =>
    match db.ledger.get (isAccrualOf id) with
    | some e => .ok e
    | none => .error (.status .notFound "accrual not found for payment")

end LedgerRepo

/-- What counts towards the available balance: everything but an accrual still on hold. -/
def LedgerEntry.available (now : Time) (e : LedgerEntry) : Bool :=
  e.entryType != .accrual || match e.availableAt with
    | some t => decide (t ≤ now)
    | none => false

def LedgerEntry.isOf (ref : PartnerRef) (e : LedgerEntry) : Bool := e.partner == ref

def readAvailableBalance (now : Time) (ref : PartnerRef) (db : PaymentDB) : ℤ :=
  db.ledger.sum (fun e => e.isOf ref && e.available now) (·.amountKopecks)

end Agregator
