import Agregator.SvcErr
/-!
# PayDomain — the entities of the payment service

Payments, the partner ledger, payouts, payout methods and the outbox row, with the fields the service reads.  A string
that the database stores as `NULL` when empty is the empty string here.
-/
namespace Agregator

/-! ## Payments -/

inductive PaymentStatus where
  | pending
  | succeeded
  | cancelled
  | refunded
deriving DecidableEq, Repr

namespace PaymentStatus

def isTerminal : PaymentStatus → Bool
  | succeeded | cancelled | refunded => true
  | pending => false

/-- The value in the database and in a payload. -/
def string : PaymentStatus → String
  | pending => "pending"
  | succeeded => "succeeded"
  | cancelled => "cancelled"
  | refunded => "refunded"

end PaymentStatus

structure Payment where
  id : String
  bookingID : String
  amount : ℤ
  status : PaymentStatus
  providerID : String
  paymentURL : String
  idempotencyKey : String
  platformFeeKopecks : ℤ
  counterpartyNetKopecks : ℤ
  counterpartyType : String
  counterpartyID : String
  providerName : String
  serviceAt : Option Time
  createdAt : Time
  updatedAt : Time
deriving DecidableEq, Repr

structure WebhookEvent where
  providerPaymentID : String
  status : PaymentStatus
  requiresCapture : Bool
  captureKey : String
  rawEvent : String
  rawProviderStatus : String
deriving DecidableEq, Repr

/-! ## The outbox -/

inductive OutboxSubject where
  | paymentCompleted
  | paymentFailed
  | paymentRefunded
deriving DecidableEq, Repr

structure PaymentEventPayload where
  paymentID : String
  bookingID : String
  status : String
deriving DecidableEq, Repr

structure OutboxEvent where
  id : ℤ := 0
  subject : OutboxSubject
  payload : PaymentEventPayload
  paymentID : String
  createdAt : Time := 0
  sentAt : Option Time := none
  attemptCount : ℤ := 0
  failedAt : Option Time := none
  lastError : String := ""
deriving DecidableEq, Repr

/-! ## The partner ledger -/

inductive PartnerType where
  | venue
  | master
  | other (text : String)
deriving DecidableEq, Repr

namespace PartnerType

def ofString (s : String) : PartnerType := if s = "venue" then venue else if s = "master" then master else other s

def valid : PartnerType → Bool
  | venue | master => true
  | other _ => false

end PartnerType

inductive LedgerEntryType where
  | accrual
  | reversal
  | payout
  | adjustment
deriving DecidableEq, Repr

structure LedgerEntry where
  id : ℤ := 0
  partnerType : PartnerType
  partnerID : String
  entryType : LedgerEntryType
  amountKopecks : ℤ
  paymentID : String := ""
  payoutID : String := ""
  reversesEntryID : ℤ := 0
  availableAt : Option Time := none
  reason : String := ""
  createdAt : Time := 0
deriving DecidableEq, Repr

structure PartnerRef where
  partnerType : PartnerType
  partnerID : String
deriving DecidableEq, Repr

structure PartnerBalance where
  partnerType : PartnerType
  partnerID : String
  totalKopecks : ℤ
  availableKopecks : ℤ
  heldKopecks : ℤ
  lastEntryAt : Option Time
deriving DecidableEq, Repr

/-! ## Payouts -/

/-- `unset` is the empty string of a payout that is not stored yet. -/
inductive PayoutStatus where
  | unset
  | pending
  | processing
  | succeeded
  | failed
  | other (text : String)
deriving DecidableEq, Repr

namespace PayoutStatus

def isTerminal : PayoutStatus → Bool
  | succeeded | failed => true
  | _ => false

/-- `status IN ('pending', 'processing')`: the payout holds the partner's only open place. -/
def isOpen : PayoutStatus → Bool
  | pending | processing => true
  | _ => false

/-- The values the column admits. -/
def stored : PayoutStatus → Bool
  | pending | processing | succeeded | failed => true
  | _ => false

end PayoutStatus

inductive PayoutMethodKind where
  | card
  | bankAccount
  | sbp
deriving DecidableEq, Repr

structure PayoutMethod where
  id : String
  partnerType : PartnerType
  partnerID : String
  kind : PayoutMethodKind
  providerName : String
  cardLast4 : String
  providerToken : String
  bankBIC : String
  bankAccount : String
  recipientINN : String
  recipientKPP : String
  recipientName : String
  sbpPhone : String
  sbpBankID : String
  deactivatedAt : Option Time
deriving DecidableEq, Repr

/-- The last four characters of an account or phone number; these are digits, so bytes and characters agree. -/
def lastFour (s : String) : Option String :=
  if 4 ≤ s.length then some (String.ofList (s.toList.drop (s.length - 4))) else none

def PayoutMethod.display (m : PayoutMethod) : String :=
  match m.kind with
  | .card => "•••• " ++ m.cardLast4
  | .bankAccount =>
    match lastFour m.bankAccount with
    | some t => "ACC •••" ++ t
    | none => "ACC ••••"
  | .sbp =>
    match lastFour m.sbpPhone with
    | some t => "СБП •••" ++ t
    | none => "СБП ••••"

/-- `providerPayoutID` is `none` until the provider has answered: that column tells `NULL` from the empty string. -/
structure Payout where
  id : String
  partnerType : PartnerType
  partnerID : String
  amountKopecks : ℤ
  currency : String := ""
  methodID : String
  methodKindSnapshot : PayoutMethodKind
  methodDisplay : String
  status : PayoutStatus := .unset
  providerName : String
  providerPayoutID : Option String := none
  idempotencyKey : String
  failureReason : String := ""
  attemptCount : ℤ := 0
  createdAt : Time := 0
  updatedAt : Time := 0
  completedAt : Option Time := none
deriving DecidableEq, Repr

def Payout.partner (p : Payout) : PartnerRef := ⟨p.partnerType, p.partnerID⟩

def LedgerEntry.partner (e : LedgerEntry) : PartnerRef := ⟨e.partnerType, e.partnerID⟩

end Agregator
