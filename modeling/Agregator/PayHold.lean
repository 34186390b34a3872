import Agregator.PayoutLedger
/-!
# PayHold — refunds while an accrual is on hold

An accrual counts towards the available balance once its hold has ended, a reversal at once.  A refunded payment comes to nothing
in the total at every time, and in the available and the held balance from the end of its hold on; until then the one is short of
the share and the other has it in excess (`refund_balances`).
-/
namespace Agregator

open Rel

/-! ## Sums by parts -/

section Sums

variable {α : Type} {S : Schema α} (t : Table S)

/-- A sum by whether a second condition holds. -/
theorem Table.sum_split (p q : α → Bool) (f : α → ℤ) :
    t.sum p f = t.sum (fun r => p r && q r) f + t.sum (fun r => p r && !q r) f := by
  unfold Table.sum Table.select
  induction t.rows with
  | nil => rfl
  | cons r rows ih =>
    simp only [List.filter_cons]
    cases hp : p r <;> cases hq : q r <;> simp <;> omega

/-- A sum over rows of which a condition singles one out. -/
theorem Table.sum_single {t : Table S} {k : α → Bool} {r : α} (h : t.select k = [r]) (g : α → Bool) (f : α → ℤ) :
    t.sum (fun x => g x && k x) f = if g r then f r else 0 := by
  have hrows : t.rows.filter (fun x => g x && k x) = [r].filter g := by
    rw [← h]
    exact List.filter_filter.symm
  unfold Table.sum Table.select
  rw [hrows]
  by_cases hg : g r = true <;> simp [hg]

end Sums

/-! ## The share of a payment -/

def LedgerEntry.ofPaymentID (paymentID : String) (e : LedgerEntry) : Bool := e.paymentID == paymentID

namespace PaymentDB

variable (db : PaymentDB) (now : Time) (ref : PartnerRef) (paymentID : String)

/-- What the entries of a payment come to in the total of a partner. -/
def totalShare : ℤ := db.ledger.sum (fun e => e.isOf ref && e.ofPaymentID paymentID) (·.amountKopecks)

/-- The same in the available balance at a time. -/
def availableShare : ℤ := db.ledger.sum (fun e => (e.isOf ref && e.available now) && e.ofPaymentID paymentID) (·.amountKopecks)

def heldShare : ℤ := db.totalShare ref paymentID - db.availableShare now ref paymentID

/-- The accruals of a partner whose hold has not ended. -/
def onHold : ℤ := db.ledger.sum (fun e => e.isOf ref && !e.available now) (·.amountKopecks)

/-- **What is held is what is on hold.** -/
theorem held_eq_onHold : db.totalOf ref - readAvailableBalance now ref db = db.onHold now ref := by
  have hsplit := Table.sum_split db.ledger (LedgerEntry.isOf ref) (·.available now) (·.amountKopecks)
  unfold totalOf readAvailableBalance onHold
  omega

end PaymentDB

/-! ## The entries of a payment -/

/-- A payment has accruals and reversals alone. -/
def PaymentDB.Entered (db : PaymentDB) : Prop :=
  ∀ e ∈ db.ledger.rows, e.paymentID ≠ "" → e.entryType = .accrual ∨ e.entryType = .reversal

namespace PaymentDB.Entered

variable {db : PaymentDB}

theorem insert (h : db.Entered) {e : LedgerEntry} {l : Table ledgerSchema} (hl : db.ledger.insert e = .ok l)
    (he : e.paymentID ≠ "" → e.entryType = .accrual ∨ e.entryType = .reversal) : ({ db with ledger := l } : PaymentDB).Entered := by
  intro x hx hne
  rw [Table.insert_rows hl] at hx
  rcases List.mem_append.1 hx with hx | hx
  · exact h x hx hne
  · rw [List.mem_singleton.1 hx] at hne ⊢
    exact he hne

end PaymentDB.Entered

/-- **Every transaction keeps it.** -/
theorem LedgerOp.entered {db : PaymentDB} (h : db.Entered) (o : LedgerOp) : (o.apply db).Entered := by
  cases o with
  | appendAccrual now e =>
    rcases LedgerRepo.appendAccrual_cases now e db with ⟨_, he, -⟩ | ⟨_, he, -⟩ | ⟨l, he, hty, hl, -⟩
    · simpa [LedgerOp.apply, he] using h
    · simpa [LedgerOp.apply, he] using h
    · rw [LedgerOp.apply, he]
      exact h.insert hl fun _ => .inl hty
  | appendReversal now e =>
    rcases LedgerRepo.appendReversal_cases now e db with ⟨_, he, -⟩ | ⟨_, he, -⟩ | ⟨l, he, hty, hl, -⟩
    · simpa [LedgerOp.apply, he] using h
    · simpa [LedgerOp.apply, he] using h
    · rw [LedgerOp.apply, he]
      exact h.insert hl fun _ => .inr hty
  | createPendingWithLedger now gen p =>
    rcases PayoutRepo.createPendingWithLedger_cases now gen p db with ⟨_, he⟩ | ⟨id, t, l, he, -, -, -, hl⟩
    · simpa [LedgerOp.apply, he] using h
    · rw [LedgerOp.apply, he]
      have hpayouts : ({ db with payouts := t } : PaymentDB).Entered := h
      exact hpayouts.insert hl fun hne => absurd rfl hne
  | markProcessing now id pid =>
    rcases PayoutRepo.markProcessing_cases now id pid db with ⟨_, he⟩ | ⟨he, -⟩ | ⟨_, _, _, _, _, -, -, he, -⟩
    · simpa [LedgerOp.apply, he] using h
    · simpa [LedgerOp.apply, he] using h
    · rw [LedgerOp.apply, he]
      exact h
  | markSucceeded now id at' =>
    rcases PayoutRepo.markSucceeded_cases now id at' db with ⟨_, he⟩ | ⟨_, _, _, _, _, -, -, he, -⟩
    · simpa [LedgerOp.apply, he] using h
    · rw [LedgerOp.apply, he]
      exact h
  | markFailedWithReversal now id reason at' =>
    rcases PayoutRepo.markFailedWithReversal_cases now id reason at' db with ⟨_, he⟩ | ⟨p, _, _, t, l, _, -, -, he, -, hl⟩
    · simpa [LedgerOp.apply, he] using h
    · rw [LedgerOp.apply, he]
      have hpayouts : ({ db with payouts := t } : PaymentDB).Entered := h
      exact hpayouts.insert hl fun hne => absurd rfl hne

theorem runOps_entered : ∀ (ops : List LedgerOp) {db : PaymentDB}, db.Entered → (runOps ops db).Entered
  | [], _, h => h
  | o :: ops, _, h => runOps_entered ops (LedgerOp.entered h o)

/-- An accrual of the ledger and the reversal of the whole of it. -/
structure PaymentDB.FullyReversed (db : PaymentDB) (a r : LedgerEntry) : Prop where
  accrual  : a ∈ db.ledger.rows ∧ a.entryType = .accrual
  reversal : r ∈ db.ledger.rows ∧ r.entryType = .reversal
  payment  : r.paymentID = a.paymentID
  partner  : r.partner = a.partner
  amount   : r.amountKopecks = -a.amountKopecks

namespace PaymentDB.FullyReversed

variable {db : PaymentDB} {a r : LedgerEntry}

theorem paymentID_ne (h : db.FullyReversed a r) : a.paymentID ≠ "" := by
  have hc := db.ledger.checked a h.accrual.1
  simp only [ledgerSchema, Bool.and_eq_true] at hc
  have hr := hc.2
  simpa [LedgerEntry.refOk, h.accrual.2] using hr

/-- The accrual of a payment is one entry. -/
theorem select_accrual (h : db.FullyReversed a r) :
    db.ledger.select (fun e => e.ofPaymentID a.paymentID && e.entryType == .accrual) = [a] := by
  refine db.ledger.select_key h.accrual.1 (by simp [LedgerEntry.ofPaymentID, h.accrual.2]) fun x hx => ?_
  simp only [LedgerEntry.ofPaymentID, Bool.and_eq_true, beq_iff_eq] at hx
  simp [ledgerSchema, hx.1, hx.2, h.accrual.2]

/-- What else the payment has is its reversal. -/
theorem select_reversal (h : db.FullyReversed a r) (he : db.Entered) :
    db.ledger.select (fun e => e.ofPaymentID a.paymentID && !(e.entryType == .accrual)) = [r] := by
  have hkey : db.ledger.select (fun e => e.ofPaymentID a.paymentID && e.entryType == .reversal) = [r] := by
    refine db.ledger.select_key h.reversal.1 (by simp [LedgerEntry.ofPaymentID, h.payment, h.reversal.2]) fun x hx => ?_
    simp only [LedgerEntry.ofPaymentID, Bool.and_eq_true, beq_iff_eq] at hx
    simp [ledgerSchema, hx.1, hx.2, h.reversal.2, h.payment]
  rw [← hkey]
  refine List.filter_congr fun e hmem => ?_
  by_cases hp : e.paymentID = a.paymentID
  · rcases he e hmem (hp ▸ h.paymentID_ne) with hty | hty <;> simp [hty]
  · simp only [LedgerEntry.ofPaymentID, beq_false_of_ne hp, Bool.false_and]

/-- **A sum over the entries of a refunded payment has two terms at most.** -/
theorem sum (h : db.FullyReversed a r) (he : db.Entered) (g : LedgerEntry → Bool) :
    db.ledger.sum (fun e => g e && e.ofPaymentID a.paymentID) (·.amountKopecks) =
      (if g a then a.amountKopecks else 0) + if g r then -a.amountKopecks else 0 := by
  rw [Table.sum_split db.ledger _ fun e => e.entryType == .accrual]
  simp only [Bool.and_assoc]
  rw [Table.sum_single h.select_accrual, Table.sum_single (h.select_reversal he), h.amount]

end PaymentDB.FullyReversed

/-! ## Balances -/

/-- **What is held are the accruals on hold; a refunded payment comes to nothing in the total, and in the available and the held
balance once its hold has ended, before which the available balance is short of its amount and the held one exceeds by it.** -/
theorem refund_balances {db₀ : PaymentDB} (h0 : db₀.Opening) (ops : List LedgerOp) (now : Time) (ref : PartnerRef) :
    (∀ b, LedgerRepo.balance now ref (runOps ops db₀) = .ok b → b.heldKopecks = (runOps ops db₀).onHold now ref) ∧
    ∀ a r, (runOps ops db₀).FullyReversed a r →
      (runOps ops db₀).totalShare ref a.paymentID = 0 ∧
      (runOps ops db₀).availableShare now ref a.paymentID = (if a.isOf ref && !a.available now then -a.amountKopecks else 0) ∧
      (runOps ops db₀).heldShare now ref a.paymentID = if a.isOf ref && !a.available now then a.amountKopecks else 0 := by
  constructor
  · intro b hb
    unfold LedgerRepo.balance at hb
    split at hb
    · cases hb
    · rw [← Except.ok.inj hb]
      exact PaymentDB.held_eq_onHold _ now ref
  · intro a r h
    have he : (runOps ops db₀).Entered := runOps_entered ops fun e hmem => by simp [h0.ledger] at hmem
    have hpartner : r.isOf ref = a.isOf ref := by simp [LedgerEntry.isOf, h.partner]
    have havailable : r.available now = true := by simp [LedgerEntry.available, h.reversal.2]
    have htotal := h.sum he (LedgerEntry.isOf ref)
    have hshare := h.sum he fun e => e.isOf ref && e.available now
    rw [hpartner] at htotal
    rw [hpartner, havailable] at hshare
    have htotal : (runOps ops db₀).totalShare ref a.paymentID = 0 := by
      refine htotal.trans ?_
      by_cases hof : a.isOf ref = true <;> simp [hof]
    have hshare : (runOps ops db₀).availableShare now ref a.paymentID =
        if a.isOf ref && !a.available now then -a.amountKopecks else 0 := by
      refine hshare.trans ?_
      by_cases hof : a.isOf ref = true <;> by_cases hav : a.available now = true <;> simp [hof, hav]
    refine ⟨htotal, hshare, ?_⟩
    unfold PaymentDB.heldShare
    rw [htotal, hshare]
    by_cases hheld : (a.isOf ref && !a.available now) = true
    · rw [if_pos hheld, if_pos hheld]
      omega
    · rw [if_neg hheld, if_neg hheld]
      rfl

/-! ### A refund before the end of the hold -/

/-- The share of the sample payment, on hold for a time. -/
def heldAccrual : LedgerEntry := PaymentUseCase.accrualEntry ⟨"mock", 100⟩ (samplePayment .succeeded) 0

def refundedEarly : List LedgerOp :=
  [.appendAccrual 0 heldAccrual,
    .appendReversal 10 (reversalEntry (samplePayment .succeeded) { heldAccrual with id := 1 })]

theorem refundedEarly_rows : (runOps refundedEarly samplePayouts).ledger.rows =
    [{ heldAccrual with id := 1, createdAt := 0 },
      { reversalEntry (samplePayment .succeeded) { heldAccrual with id := 1 } with id := 2, createdAt := 10 }] := by
  decide +kernel

theorem refundedEarly_reversed : (runOps refundedEarly samplePayouts).FullyReversed { heldAccrual with id := 1, createdAt := 0 }
    { reversalEntry (samplePayment .succeeded) { heldAccrual with id := 1 } with id := 2, createdAt := 10 } where
  accrual := ⟨by rw [refundedEarly_rows]; simp, rfl⟩
  reversal := ⟨by rw [refundedEarly_rows]; simp, rfl⟩
  payment := rfl
  partner := rfl
  amount := rfl

theorem refund_balances_sample : (runOps refundedEarly samplePayouts).totalShare heldAccrual.partner heldAccrual.paymentID = 0 ∧
    (runOps refundedEarly samplePayouts).availableShare 100 heldAccrual.partner heldAccrual.paymentID = 0 := by
  obtain ⟨htotal, havailable, -⟩ :=
    (refund_balances samplePayouts_opening refundedEarly 100 heldAccrual.partner).2 _ _ refundedEarly_reversed
  exact ⟨htotal, havailable⟩

/-- While the hold lasts, the reversal counts and the accrual does not. -/
theorem refund_not_neutral : ¬ ∀ (db₀ : PaymentDB) (ops : List LedgerOp) (now : Time) (ref : PartnerRef), db₀.Opening →
    ∀ a r, (runOps ops db₀).FullyReversed a r → (runOps ops db₀).availableShare now ref a.paymentID = 0 ∧
      (runOps ops db₀).heldShare now ref a.paymentID = 0 := by
  intro hall
  have hshare := (hall samplePayouts refundedEarly 10 heldAccrual.partner samplePayouts_opening _ _ refundedEarly_reversed).1
  unfold PaymentDB.availableShare Table.sum Table.select at hshare
  rw [refundedEarly_rows] at hshare
  exact absurd hshare (by decide +kernel)

end Agregator
