import Agregator.PayFacts
import Agregator.ConcLift
import Agregator.GoBase
/-!
# PayCreate — creating a payment

`CreatePayment` claims a row by its idempotency key, asks the provider and stores the provider's id; a call that finds the
row claimed and without an id asks the provider itself, inside a transaction that holds the advisory lock of the key.
Sessions of the database and their locks are part of the state: a session that is lost takes its lock with it.
-/
namespace Agregator

open Rel Conc

/-! ## Amounts -/

/-- `int64` division truncates. -/
def platformFeeKopecks (grossKopecks feeBPS : ℤ) : ℤ :=
  if grossKopecks ≤ 0 ∨ feeBPS ≤ 0 then 0 else (int64 (grossKopecks * feeBPS)).tdiv 10000

def counterpartyNetKopecks (grossKopecks platformFee : ℤ) : ℤ :=
  let n := int64 (grossKopecks - platformFee)
  if n < 0 then 0 else n

/-! ## The repository -/

namespace PaymentRepo

def getByIdempotencyKey (key : String) (db : PaymentDB) : Except Err Payment :=
  scanOne (fun p => p.idempotencyKey == key) db

/-- The row a payment is inserted as. -/
def newRow (now : Time) (newID : String) (p : Payment) : Payment :=
  { p with
    id := newID
    providerName := if p.providerName = "" then "mock" else p.providerName
    createdAt := now
    updatedAt := now }

/-- `INSERT … ON CONFLICT (idempotency_key) DO NOTHING`: only that index makes the insert a no-op, a clash in any other is
an error.  Whether the row is new, and the payment with what the database has filled in. -/
def createIdempotent (now : Time) (newID : String) (p : Payment) (db : PaymentDB) :
    Except Err (Bool × Payment) × PaymentDB :=
  match uuidParam p.bookingID with
  | .error e => (.error e, db)
  | .ok _ =>
    if paymentSchema.check (newRow now newID p) = false then (.error (violationErr .check), db)
    else if db.payments.rows.any (·.idempotencyKey == p.idempotencyKey) then (.ok (false, p), db)
    else
      match db.payments.insert (newRow now newID p) with
      | .error v => (.error (violationErr v), db)
      | .ok payments => (.ok (true, { p with id := newID, createdAt := now, updatedAt := now }), { db with payments := payments })

/-- `UPDATE … SET provider_id, payment_url WHERE id`: `none` when there is no such row. -/
def setProviderInfo (now : Time) (id providerID paymentURL : String) (db : PaymentDB) : Except Err (Option PaymentDB) :=
  match uuidParam id with
  | .error e => .error e
  | .ok id =>
    match db.payments.update (fun p => p.id == id)
      (fun p => { p with providerID := providerID, paymentURL := paymentURL, updatedAt := now }) with
    | .error v => .error (violationErr v)
    | .ok payments => .ok (if db.payments.rows.any (·.id == id) then some { db with payments := payments } else none)

def updateProviderInfo (now : Time) (id providerID paymentURL : String) (db : PaymentDB) : Except Err Unit × PaymentDB :=
  match setProviderInfo now id providerID paymentURL db with
  | .error e => (.error e, db)
  | .ok none => (.error (.status .notFound "payment not found"), db)
  | .ok (some db') => (.ok (), db')

end PaymentRepo

/-! ## The state and the operations on it -/

structure CreateRequest where
  amountKopecks : ℤ
  description : String
  returnURL : String
  idempotencyKey : String
  counterpartyID : String
  bookingID : String
deriving DecidableEq, Repr

structure ProviderResult where
  providerPaymentID : String
  confirmationURL : String
deriving DecidableEq, Repr

/-- A session of the database in a transaction, with the advisory locks it holds. -/
structure Session where
  id : ℕ
  locks : List ℤ
deriving DecidableEq, Repr

/-- `charges` are the requests the provider has carried out; `opened` counts the sessions so far. -/
structure CreateWorld where
  db : PaymentDB
  charges : List CreateRequest
  sessions : List Session
  opened : ℕ

namespace CreateWorld

def lives (w : CreateWorld) (tx : ℕ) : Bool := w.sessions.any (·.id == tx)

/-- The end of a transaction, which gives its locks back. -/
def close (w : CreateWorld) (tx : ℕ) : CreateWorld := { w with sessions := w.sessions.filter (·.id != tx) }

/-- Whether another session holds the lock. -/
def lockedOut (w : CreateWorld) (tx : ℕ) (lock : ℤ) : Bool := w.sessions.any fun s => s.id != tx && s.locks.contains lock

def grant (w : CreateWorld) (tx : ℕ) (lock : ℤ) : CreateWorld :=
  { w with sessions := w.sessions.map fun s => if s.id = tx then { s with locks := lock :: s.locks } else s }

end CreateWorld

/-- The calls `CreatePayment` makes.  `storeLocked` is the update and the commit after it: the row is locked from the one to
the other. -/
inductive CreateOp where
  | createIdempotent (p : Payment)
  | getByIdempotencyKey (key : String)
  | updateProviderInfo (id providerID paymentURL : String)
  | begin
  | lock (tx : ℕ) (key : String)
  | readLocked (tx : ℕ) (key : String)
  | storeLocked (tx : ℕ) (id providerID paymentURL : String)
  | commit (tx : ℕ)
  | rollback (tx : ℕ)
  | createPayment (req : CreateRequest)
deriving DecidableEq

namespace CreateOp

@[reducible] def Ans : CreateOp → Type
  | createIdempotent _ => Bool × Payment
  | getByIdempotencyKey _ | readLocked _ _ => Payment
  | begin => ℕ
  | updateProviderInfo _ _ _ | lock _ _ | storeLocked _ _ _ _ | commit _ | rollback _ => Unit
  | createPayment _ => ProviderResult

@[reducible] def Res (o : CreateOp) : Type := Except Err o.Ans

end CreateOp

abbrev CreateProg := Prog CreateOp CreateOp.Res

abbrev CreateOp.call (o : CreateOp) : CreateProg o.Res := Prog.perform o

/-! ## CreatePayment -/

structure CreatePaymentInput where
  bookingID : String
  amount : ℤ
  description : String
  idempotencyKey : String
  counterpartyType : String
  counterpartyID : String
  serviceAt : Option Time
deriving DecidableEq, Repr

/-- What of the use case the creation of a payment reads. -/
structure ChargeTerms where
  returnURL : String
  feeBPS : ℤ

/-- `NewPaymentUseCase` puts the default in the place of a fee that is not positive. -/
def newChargeTerms (returnURL : String) (platformFeeBPS : ℤ) : ChargeTerms where
  returnURL := returnURL
  feeBPS := if platformFeeBPS ≤ 0 then 1500 else platformFeeBPS

namespace ChargeTerms

variable (uc : ChargeTerms)

/-- The payment as it is handed to `CreateIdempotent`: without a provider, and without the provider's id. -/
def newPayment (inp : CreatePaymentInput) : Payment where
  id := ""
  bookingID := inp.bookingID
  amount := inp.amount
  status := .pending
  providerID := ""
  paymentURL := ""
  idempotencyKey := inp.idempotencyKey
  platformFeeKopecks := platformFeeKopecks inp.amount uc.feeBPS
  counterpartyNetKopecks := counterpartyNetKopecks inp.amount (platformFeeKopecks inp.amount uc.feeBPS)
  counterpartyType := trimSpace inp.counterpartyType
  counterpartyID := trimSpace inp.counterpartyID
  providerName := ""
  serviceAt := inp.serviceAt
  createdAt := 0
  updatedAt := 0

def request (inp : CreatePaymentInput) : CreateRequest where
  amountKopecks := inp.amount
  description := inp.description
  returnURL := uc.returnURL
  idempotencyKey := inp.idempotencyKey
  counterpartyID := trimSpace inp.counterpartyID
  bookingID := inp.bookingID

end ChargeTerms

open CreateOp (call)

/-- The error an operation of the transaction ends it with: the deferred rollback comes first. -/
def rollingBack (tx : ℕ) (p : Option Payment) (err : Err) : CreateProg (Option Payment × Option Err) := do
  let _ ← call (.rollback tx)
  return (p, some err)

def driveProviderWithLock (key : String) (fn : Payment → CreateProg (Except Err (String × String))) :
    CreateProg (Option Payment × Option Err) := do
  if trimSpace key = "" then return (none, some (.plain "DriveProviderWithLock: empty idempotency key"))
  else
    match ← call .begin with
    | .error err => return (none, some (err.wrap "DriveProviderWithLock begin tx"))
    | .ok tx =>
      match ← call (.lock tx key) with
      | .error err => rollingBack tx none (err.wrap "DriveProviderWithLock acquire lock")
      | .ok () =>
        match ← call (.readLocked tx key) with
        | .error err => rollingBack tx none err
        | .ok p =>
          if p.providerID ≠ "" then
            match ← call (.commit tx) with
            | .error err => rollingBack tx (some p) err
            | .ok () => return (some p, none)
          else
            match ← fn p with
            | .error err => rollingBack tx none err
            | .ok (providerID, paymentURL) =>
              match ← call (.storeLocked tx p.id providerID paymentURL) with
              | .error err => rollingBack tx none err
              | .ok () => return (some { p with providerID := providerID, paymentURL := paymentURL }, none)

namespace ChargeTerms

variable (uc : ChargeTerms)

/-- What a retry does with the row it finds: the request is made of the retry's own input. -/
def recover (inp : CreatePaymentInput) (_p : Payment) : CreateProg (Except Err (String × String)) := do
  match ← call (.createPayment (uc.request inp)) with
  | .error err => return .error (err.wrap "provider create payment (recovery)")
  | .ok result => return .ok (result.providerPaymentID, result.confirmationURL)

def createPayment (inp : CreatePaymentInput) : CreateProg (Option Payment × Option Err) := do
  if inp.amount ≤ 0 then return (none, some (.status .invalidArgument "amount must be positive"))
  else
    match ← call (.createIdempotent (uc.newPayment inp)) with
    | .error err => return (none, some (err.wrap "create payment"))
    | .ok (false, _) =>
      match ← call (.getByIdempotencyKey inp.idempotencyKey) with
      | .error err => return (none, some (err.wrap "fetch idempotent payment"))
      | .ok existing =>
        if existing.providerID ≠ "" then return (some existing, none)
        else driveProviderWithLock inp.idempotencyKey (uc.recover inp)
    | .ok (true, p) =>
      match ← call (.createPayment (uc.request inp)) with
      | .error err => return (none, some (err.wrap "provider create payment"))
      | .ok result =>
        match ← call (.updateProviderInfo p.id result.providerPaymentID result.confirmationURL) with
        | .error err => return (none, some (err.wrap "update provider info"))
        | .ok () => return (some { p with providerID := result.providerPaymentID, paymentURL := result.confirmationURL }, none)

end ChargeTerms

/-! ## What the calls do -/

/-- What the environment has in store for a call: the time, the UUID the database draws, the provider's answer, and which
calls fail. -/
structure CreateEnv where
  now : Time
  newID : String
  result : CreateRequest → ProviderResult
  fault : CreateOp → Fault Err

/-- A transaction of the payment database. -/
def onCreate {α : Type} (f : PaymentDB → Except Err α × PaymentDB) (w : CreateWorld) : Except Err α × CreateWorld :=
  ((f w.db).1, { w with db := (f w.db).2 })

def sessionLost : Err := .plain "conn closed"

/-- A statement in a session, which fails when the session is lost. -/
def CreateWorld.within {α : Type} (tx : ℕ) (f : CreateWorld → Except Err α × CreateWorld) (w : CreateWorld) :
    Except Err α × CreateWorld :=
  if w.lives tx then f w else (.error sessionLost, w)

def lockTimeout : Err := .plain "ERROR: canceling statement due to lock timeout (SQLSTATE 55P03)"

namespace CreateOp

/-- The operation without a failure from outside.  `hashtext` is the database's own function.  A call that waits for a lock
has not performed the operation yet; one that performs it while another session holds the lock has given up. -/
def attempt (hashtext : String → ℤ) (env : CreateEnv) : (o : CreateOp) → CreateWorld → o.Res × CreateWorld
  | createIdempotent p, w => onCreate (PaymentRepo.createIdempotent env.now env.newID p) w
  | getByIdempotencyKey key, w => onCreate (fun db => (PaymentRepo.getByIdempotencyKey key db, db)) w
  | updateProviderInfo id providerID url, w => onCreate (PaymentRepo.updateProviderInfo env.now id providerID url) w
  | begin, w => (.ok w.opened, { w with sessions := w.sessions ++ [⟨w.opened, []⟩], opened := w.opened + 1 })
  | lock tx key, w => w.within tx fun w =>
    if w.lockedOut tx (hashtext key) then (.error lockTimeout, w) else (.ok (), w.grant tx (hashtext key))
  | readLocked tx key, w => w.within tx fun w =>
    match w.db.payments.get (fun p => p.idempotencyKey == key) with
    | some p => (.ok p, w)
    | none => (.error (.status .notFound "payment not found for idempotency key"), w)
  | storeLocked tx id providerID url, w => w.within tx fun w =>
    match PaymentRepo.setProviderInfo env.now id providerID url w.db with
    | .error e => (.error e, w)
    | .ok none => (.error (.status .notFound "payment row disappeared during lock window"), w)
    | .ok (some db) => (.ok (), { w with db := db }.close tx)
  | commit tx, w => w.within tx fun w => (.ok (), w.close tx)
  | rollback tx, w => (.ok (), w.close tx)
  | createPayment req, w => (.ok (env.result req), { w with charges := w.charges ++ [req] })

def run (hashtext : String → ℤ) (env : CreateEnv) (o : CreateOp) (w : CreateWorld) : o.Res × CreateWorld :=
  (env.fault o).apply id (o.attempt hashtext env) w

/-- A call in an environment that may be any at every call. -/
def Exec (hashtext : String → ℤ) (o : CreateOp) (w : CreateWorld) (r : o.Res) (w' : CreateWorld) : Prop :=
  ∃ env, o.run hashtext env w = (r, w')

end CreateOp

/-- Any number of calls at once; a session may be lost at any time. -/
def createSys (uc : ChargeTerms) (hashtext : String → ℤ) :
    Sys CreateWorld CreatePaymentInput CreateOp CreateOp.Res (Option Payment × Option Err) where
  prog := uc.createPayment
  ready _ _ := True
  exec := CreateOp.Exec hashtext
  env w w' := ∃ tx, w' = w.close tx

end Agregator
