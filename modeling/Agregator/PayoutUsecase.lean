import Agregator.PayUsecase
import Agregator.PayoutLedger
/-!
# PayoutUsecase — payouts and the bank that carries them out

`payoutPartner`, `reconcileOne` and `HandlePayoutWebhook` as programs over the calls they make, and the bank on the other
side: it executes one transfer for an idempotency key, refuses a key for good, and reports of a transfer what has become
of it.  An answer of the bank can be lost, which the provider reports as a transient error.
-/
namespace Agregator

open Rel Conc

/-! ## The provider's side -/

inductive PayoutDestinationKind where
  | card
  | bankAccount
  | sbp
deriving DecidableEq, Repr

def toProviderDestKind : PayoutMethodKind → PayoutDestinationKind
  | .card => .card
  | .bankAccount => .bankAccount
  | .sbp => .sbp

def PartnerType.string : PartnerType → String
  | venue => "venue"
  | master => "master"
  | other s => s

structure PayoutRequest where
  amountKopecks : ℤ
  currency : String
  description : String
  idempotencyKey : String
  kind : PayoutDestinationKind
  providerToken : String
  sbpPhone : String
  sbpBankID : String
  bankBIC : String
  bankAccount : String
  recipientINN : String
  recipientKPP : String
  recipientName : String
  partnerType : String
  partnerID : String
deriving DecidableEq, Repr

/-- The status the provider gives a payout. -/
inductive ProviderStatus where
  | pending
  | succeeded
  | failed
deriving DecidableEq, Repr

structure PayoutResult where
  providerPayoutID : String
  status : ProviderStatus
  failureReason : String
deriving DecidableEq, Repr

structure PayoutWebhookEvent where
  providerPayoutID : String
  status : ProviderStatus
  failureReason : String
  rawEvent : String
deriving DecidableEq, Repr

/-- A transfer the bank has accepted. -/
structure Transfer where
  request : PayoutRequest
  id : String
  status : ProviderStatus
  reason : String
deriving DecidableEq, Repr

namespace Transfer

variable (t : Transfer)

def key : String := t.request.idempotencyKey

def partner : PartnerRef := ⟨PartnerType.ofString t.request.partnerType, t.request.partnerID⟩

def result : PayoutResult := ⟨t.id, t.status, t.reason⟩

end Transfer

/-- One transfer for a key, and an id for each. -/
def transferSchema : Schema Transfer where
  check _ := true
  clash a b := a.key == b.key || a.id == b.id
  clash_comm a b := by simp only [Bool.beq_comm]

structure Bank where
  transfers : Table transferSchema
  refused : List String

/-- What the bank decides about a key it has not decided about. -/
inductive BankChoice where
  | accept (id : String) (status : ProviderStatus) (reason : String)
  | refuse (text : String)
deriving DecidableEq, Repr

/-- `provider.ErrTransient`, wrapped. -/
def transientErr (text : String) : Err := ⟨.unknown, text, true⟩

namespace Bank

/-- `CreatePayout` at the bank: a key it knows gets the answer it got before. -/
def createPayout (choice : BankChoice) (req : PayoutRequest) (b : Bank) : Except Err PayoutResult × Bank :=
  match b.transfers.get (fun t => t.key == req.idempotencyKey) with
  | some t => (.ok t.result, b)
  | none =>
    if req.idempotencyKey ∈ b.refused then (.error (.plain "payout refused"), b)
    else
      match choice with
      | .refuse text => (.error (.plain text), { b with refused := req.idempotencyKey :: b.refused })
      | .accept id status reason =>
        match b.transfers.insert ⟨req, id, status, reason⟩ with
        | .ok transfers => (.ok ⟨id, status, reason⟩, { b with transfers := transfers })
        | .error _ => (.error (transientErr "payout id taken"), b)

/-- A pending transfer comes to its end. -/
def settle (id : String) (status : ProviderStatus) (reason : String) (b : Bank) : Bank :=
  match b.transfers.update (fun t => t.id == id && t.status == .pending)
    (fun t => { t with status := status, reason := reason }) with
  | .ok transfers => { b with transfers := transfers }
  | .error _ => b

/-- A notification is confirmed by what the bank says of the transfer it is about. -/
def confirm (b : Bank) (ev : PayoutWebhookEvent) : Except Err PayoutWebhookEvent :=
  match b.transfers.get (fun t => t.id == ev.providerPayoutID) with
  | some t => .ok { ev with status := t.status, failureReason := t.reason }
  | none => .error (.plain "payout not known to the provider")

def parsePayoutWebhook (parsed : Except Err (Option PayoutWebhookEvent)) (b : Bank) :
    Except Err (Option PayoutWebhookEvent) :=
  match parsed with
  | .error e => .error e
  | .ok none => .ok none
  | .ok (some ev) => (b.confirm ev).map some

end Bank

/-! ## The calls -/

inductive PayoutOp where
  | balance (ref : PartnerRef)
  | lastPayoutAt (ref : PartnerRef)
  | getActiveMethod (ref : PartnerRef)
  | getMethodByID (id : String)
  | createPendingWithLedger (p : Payout)
  | markProcessing (id : String) (providerPayoutID : String)
  | markSucceeded (id : String) (completedAt : Time)
  | markFailedWithReversal (id : String) (reason : String) (completedAt : Time)
  | getByProviderPayoutID (providerPayoutID : String)
  | createPayout (req : PayoutRequest)
  | parsePayoutWebhook (rawBody : RawBody)
  | newUUID
  | now
deriving DecidableEq

namespace PayoutOp

@[reducible] def Res : PayoutOp → Type
  | balance _ => Except Err PartnerBalance
  | lastPayoutAt _ => Except Err (Option Time)
  | getActiveMethod _ | getMethodByID _ => Except Err PayoutMethod
  | createPendingWithLedger _ => Except Err Payout
  | markProcessing _ _ => Except Err Unit
  | markSucceeded _ _ | markFailedWithReversal _ _ _ => Except Err Bool
  | getByProviderPayoutID _ => Except Err Payout
  | createPayout _ => Except Err PayoutResult
  | parsePayoutWebhook _ => Except Err (Option PayoutWebhookEvent)
  | newUUID => String
  | now => Time

end PayoutOp

abbrev PayoutProg := Prog PayoutOp PayoutOp.Res

abbrev PayoutOp.call (o : PayoutOp) : PayoutProg o.Res := Prog.perform o

open PayoutOp (call)

structure PayoutUseCase where
  activeProvider : String
  minPayoutKopecks : ℤ
  weeklyPayout : Bool

def payoutCooldown : Time := 6 * 24 * 3600

def payoutRequest (amount : ℤ) (currency key : String) (method : PayoutMethod) (ref : PartnerRef) : PayoutRequest where
  amountKopecks := amount
  currency := currency
  description := "Платёж партнёру"
  idempotencyKey := key
  kind := toProviderDestKind method.kind
  providerToken := method.providerToken
  sbpPhone := method.sbpPhone
  sbpBankID := method.sbpBankID
  bankBIC := method.bankBIC
  bankAccount := method.bankAccount
  recipientINN := method.recipientINN
  recipientKPP := method.recipientKPP
  recipientName := method.recipientName
  partnerType := ref.partnerType.string
  partnerID := ref.partnerID

/-- The end of a call that got an answer of the bank; `ctx` begins its errors. -/
def takeResult (ctx : String) (id : String) (result : PayoutResult) : PayoutProg (Option Err) := do
  match ← call (.markProcessing id result.providerPayoutID) with
  | .error err => return some (err.wrap (ctx ++ "mark processing"))
  | .ok () =>
    match result.status with
    | .succeeded =>
      let now ← call .now
      match ← call (.markSucceeded id now) with
      | .error err => return some (err.wrap (ctx ++ "mark succeeded"))
      | .ok _ => return none
    | .failed =>
      let now ← call .now
      match ← call (.markFailedWithReversal id result.failureReason now) with
      | .error err => return some (err.wrap (ctx ++ "mark failed"))
      | .ok _ => return none
    | .pending => return none

/-- A payout is given up, and the call returns `done`. -/
def giveUp (id reason : String) (both : Err → Err) (done : Option Err) : PayoutProg (Option Err) := do
  let now ← call .now
  match ← call (.markFailedWithReversal id reason now) with
  | .error markErr => return some (both markErr)
  | .ok _ => return done

/-- The row is read by the caller of this function; with its method gone it is given up. -/
def reconcileOne (p : Payout) : PayoutProg (Option Err) := do
  match ← call (.getMethodByID p.methodID) with
  | .error err =>
    giveUp p.id ("reconcile: payout method missing: " ++ err.text)
      (fun markErr => { markErr with
        text := "reconcile method missing AND mark-failed failed: " ++ err.text ++ " / " ++ markErr.text }) none
  | .ok method =>
    match ← call (.createPayout (payoutRequest p.amountKopecks p.currency p.idempotencyKey method p.partner)) with
    | .error err =>
      if err.transient then return none
      else
        giveUp p.id err.text
          (fun markErr => { markErr with
            text := "reconcile permanent error AND mark-failed failed: " ++ err.text ++ " / " ++ markErr.text }) none
    | .ok result => takeResult "reconcile " p.id result

namespace PayoutUseCase

variable (uc : PayoutUseCase)

/-- Whether the partner has been paid within the cooldown. -/
def coolingDown (ref : PartnerRef) : PayoutProg (Except Err Bool) := do
  if uc.weeklyPayout then
    match ← call (.lastPayoutAt ref) with
    | .error err => return .error err
    | .ok none => return .ok false
    | .ok (some last) =>
      let now ← call .now
      return .ok (decide (now - last < payoutCooldown))
  else return .ok false

def newPayout (ref : PartnerRef) (amount : ℤ) (method : PayoutMethod) (payoutID : String) : Payout where
  id := payoutID
  partnerType := ref.partnerType
  partnerID := ref.partnerID
  amountKopecks := amount
  methodID := method.id
  methodKindSnapshot := method.kind
  methodDisplay := method.display
  providerName := uc.activeProvider
  idempotencyKey := "payout:" ++ payoutID

def payoutPartner (ref : PartnerRef) : PayoutProg (Option Err) := do
  match ← call (.balance ref) with
  | .error err => return some (err.wrap "balance")
  | .ok balance =>
    if balance.availableKopecks < uc.minPayoutKopecks then return none
    else
      match ← uc.coolingDown ref with
      | .error err => return some (err.wrap "last payout at")
      | .ok true => return none
      | .ok false =>
        match ← call (.getActiveMethod ref) with
        | .error err => if err.code = .notFound then return none else return some (err.wrap "get method")
        | .ok method =>
          let payoutID ← call .newUUID
          let payout := uc.newPayout ref balance.availableKopecks method payoutID
          match ← call (.createPendingWithLedger payout) with
          | .error err =>
            if err.code = .alreadyExists ∨ err.code = .failedPrecondition then return none
            else return some (err.wrap "create pending payout")
          | .ok p =>
            match ← call (.createPayout (payoutRequest balance.availableKopecks "RUB" payout.idempotencyKey method ref)) with
            | .error err =>
              if err.transient then return none
              else
                giveUp p.id err.text
                  (fun markErr => { markErr with
                    text := "provider create payout failed AND mark-failed failed: provider=" ++ err.text ++
                      " markErr=" ++ markErr.text })
                  (some (err.wrap "provider create payout"))
            | .ok result => takeResult "" p.id result

/-- No event when the body is not a payout notification. -/
def handlePayoutWebhook (rawBody : RawBody) : PayoutProg (Option PayoutWebhookEvent × Option Err) := do
  match ← call (.parsePayoutWebhook rawBody) with
  | .error err => return (none, some (err.wrap "parse payout webhook"))
  | .ok none => return (none, none)
  | .ok (some event) =>
    match ← call (.getByProviderPayoutID event.providerPayoutID) with
    | .error err =>
      if err.code = .notFound then return (some event, none) else return (some event, some (err.wrap "get payout"))
    | .ok p =>
      if uc.activeProvider ≠ "" ∧ p.providerName ≠ uc.activeProvider then
        return (some event, some (.status .failedPrecondition ("payout webhook provider mismatch: payout created by \"" ++
          p.providerName ++ "\", active provider is \"" ++ uc.activeProvider ++ "\"")))
      else
        match event.status with
        | .succeeded =>
          let now ← call .now
          match ← call (.markSucceeded p.id now) with
          | .error err => return (some event, some (err.wrap "mark succeeded"))
          | .ok _ => return (some event, none)
        | .failed =>
          let now ← call .now
          match ← call (.markFailedWithReversal p.id event.failureReason now) with
          | .error err => return (some event, some (err.wrap "mark failed"))
          | .ok _ => return (some event, none)
        | .pending => return (some event, none)

end PayoutUseCase

/-! ## What the calls do -/

structure PayoutWorld where
  db : PaymentDB
  bank : Bank

/-- What the environment has in store for a call: the time, an identifier, the bank's decision, the bodies it sends, and
whether the transaction or the answer of the bank is lost. -/
structure PayoutEnv where
  now : Time
  uuid : String
  choice : BankChoice
  parse : RawBody → Except Err (Option PayoutWebhookEvent)
  fault : Fault String

/-- A transaction of the payment database. -/
def onPayouts {α : Type} (f : PaymentDB → Except Err α × PaymentDB) (w : PayoutWorld) : Except Err α × PayoutWorld :=
  ((f w.db).1, { w with db := (f w.db).2 })

/-- A request to the bank. -/
def onBank {α : Type} (f : Bank → Except Err α × Bank) (w : PayoutWorld) : Except Err α × PayoutWorld :=
  ((f w.bank).1, { w with bank := (f w.bank).2 })

namespace PayoutOp

def run (env : PayoutEnv) : (o : PayoutOp) → PayoutWorld → o.Res × PayoutWorld
  | balance ref, w => env.fault.apply Err.plain (onPayouts fun db => (LedgerRepo.balance env.now ref db, db)) w
  | lastPayoutAt ref, w => env.fault.apply Err.plain (onPayouts fun db => (PayoutRepo.lastPayoutAt ref db, db)) w
  | getActiveMethod ref, w => env.fault.apply Err.plain (onPayouts fun db => (PayoutMethodRepo.getActive ref db, db)) w
  | getMethodByID id, w => env.fault.apply Err.plain (onPayouts fun db => (PayoutMethodRepo.getByID id db, db)) w
  | createPendingWithLedger p, w => env.fault.apply Err.plain
      (onPayouts (PayoutRepo.createPendingWithLedger env.now env.uuid p)) w
  | markProcessing id pid, w => env.fault.apply Err.plain (onPayouts (PayoutRepo.markProcessing env.now id pid)) w
  | markSucceeded id at', w => env.fault.apply Err.plain (onPayouts (PayoutRepo.markSucceeded env.now id at')) w
  | markFailedWithReversal id reason at', w => env.fault.apply Err.plain
      (onPayouts (PayoutRepo.markFailedWithReversal env.now id reason at')) w
  | getByProviderPayoutID pid, w => env.fault.apply Err.plain
      (onPayouts fun db => (PayoutRepo.getByProviderPayoutID pid db, db)) w
  | createPayout req, w => env.fault.apply transientErr (onBank (Bank.createPayout env.choice req)) w
  | parsePayoutWebhook raw, w => (w.bank.parsePayoutWebhook (env.parse raw), w)
  | newUUID, w => (env.uuid, w)
  | now, w => (env.now, w)

def Exec (o : PayoutOp) (w : PayoutWorld) (r : o.Res) (w' : PayoutWorld) : Prop := ∃ env, o.run env w = (r, w')

end PayoutOp

/-! ### What a call can answer -/

section Answers

variable {α : Type} {w w' : PayoutWorld}

theorem onPayouts_cases {f : PaymentDB → Except Err α × PaymentDB} {r : Except Err α} {fault : Fault String}
    (h : fault.apply Err.plain (onPayouts f) w = (r, w')) :
    (r = (f w.db).1 ∧ w' = { w with db := (f w.db).2 }) ∨
    ∃ t, r = .error (.plain t) ∧ (w' = w ∨ w' = { w with db := (f w.db).2 }) := by
  cases fault with
  | none =>
    cases h
    exact .inl ⟨rfl, rfl⟩
  | before t =>
    cases h
    exact .inr ⟨t, rfl, .inl rfl⟩
  | after t =>
    cases h
    exact .inr ⟨t, rfl, .inr rfl⟩

/-- What a transaction leaves is what was there, or what it makes of it; without an error it is the latter. -/
theorem onPayouts_db {f : PaymentDB → Except Err α × PaymentDB} {r : Except Err α} {fault : Fault String}
    (h : fault.apply Err.plain (onPayouts f) w = (r, w')) :
    w'.bank = w.bank ∧ (w'.db = w.db ∨ w'.db = (f w.db).2) ∧ ∀ a, r = .ok a → f w.db = (.ok a, w'.db) := by
  rcases onPayouts_cases h with ⟨rfl, rfl⟩ | ⟨t, rfl, rfl | rfl⟩
  · exact ⟨rfl, .inr rfl, fun a ha => Prod.ext ha rfl⟩
  · exact ⟨rfl, .inl rfl, nofun⟩
  · exact ⟨rfl, .inr rfl, nofun⟩

/-- A read changes nothing. -/
theorem onPayouts_read {g : PaymentDB → Except Err α} {r : Except Err α} {fault : Fault String}
    (h : fault.apply Err.plain (onPayouts fun db => (g db, db)) w = (r, w')) :
    w' = w ∧ ∀ a, r = .ok a → g w.db = .ok a := by
  rcases onPayouts_cases h with ⟨rfl, rfl⟩ | ⟨t, rfl, rfl | rfl⟩
  · exact ⟨rfl, fun a ha => ha⟩
  · exact ⟨rfl, nofun⟩
  · exact ⟨rfl, nofun⟩

end Answers

end Agregator
