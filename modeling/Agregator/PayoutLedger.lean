import Agregator.PayoutStore
import Agregator.PayRefund
/-!
# PayoutLedger — the ledger and the payouts agree

The six writes of the ledger and the payout repository, in any order and with any arguments.  What is kept: the entries
of a partner sum to the accruals and reversals less the payouts that have not failed, every failed payout has its debit
given back once, one payout of a partner is open at a time, and a final payout stays final.
-/
namespace Agregator

open Rel

/-- One transaction, at a time and with whatever `gen_random_uuid()` gives. -/
inductive LedgerOp where
  | appendAccrual (now : Time) (e : LedgerEntry)
  | appendReversal (now : Time) (e : LedgerEntry)
  | createPendingWithLedger (now : Time) (gen : String) (p : Payout)
  | markProcessing (now : Time) (id : String) (providerPayoutID : String)
  | markSucceeded (now : Time) (id : String) (completedAt : Time)
  | markFailedWithReversal (now : Time) (id : String) (reason : String) (completedAt : Time)

def LedgerOp.apply (db : PaymentDB) : LedgerOp → PaymentDB
  | appendAccrual now e => (LedgerRepo.appendAccrual now e db).2
  | appendReversal now e => (LedgerRepo.appendReversal now e db).2
  | createPendingWithLedger now gen p => (PayoutRepo.createPendingWithLedger now gen p db).2
  | markProcessing now id pid => (PayoutRepo.markProcessing now id pid db).2
  | markSucceeded now id at' => (PayoutRepo.markSucceeded now id at' db).2
  | markFailedWithReversal now id reason at' => (PayoutRepo.markFailedWithReversal now id reason at' db).2

def runOps (ops : List LedgerOp) (db : PaymentDB) : PaymentDB := ops.foldl LedgerOp.apply db

/-- A payout is not created as failed. -/
def LedgerOp.createsUnfailed : LedgerOp → Prop
  | createPendingWithLedger _ _ p => p.status ≠ .failed
  | _ => True

/-! ## What is kept -/

namespace PaymentDB

variable (db : PaymentDB)

def totalOf (ref : PartnerRef) : ℤ := db.ledger.sum (LedgerEntry.isOf ref) (·.amountKopecks)

def sumOf (ref : PartnerRef) (t : LedgerEntryType) : ℤ :=
  db.ledger.sum (fun e => e.isOf ref && e.entryType == t) (·.amountKopecks)

/-- The amounts of the partner's payouts that have not failed. -/
def paidOut (ref : PartnerRef) : ℤ := db.payouts.sum (fun p => p.partner == ref && p.status != .failed) (·.amountKopecks)

/-- The adjustments that give the debit of a payout back. -/
def adjustments (payoutID : String) : List LedgerEntry :=
  db.ledger.select fun e => e.entryType == .adjustment && e.payoutID == payoutID

structure Balanced : Prop where
  conserved     : ∀ ref, db.totalOf ref = db.sumOf ref .accrual + db.sumOf ref .reversal - db.paidOut ref
  compensated   : ∀ p ∈ db.payouts.rows, p.status = .failed →
    ∃ e, db.adjustments p.id = [e] ∧ e.amountKopecks = p.amountKopecks ∧ e.partner = p.partner
  uncompensated : ∀ p ∈ db.payouts.rows, p.status ≠ .failed → db.adjustments p.id = []
  oneOpen       : ∀ ref, (db.payouts.select fun p => p.partner == ref && p.status.isOpen).length ≤ 1

/-- With it, what keeps it: an adjustment is one of a payout. -/
structure Sound : Prop extends db.Balanced where
  anchored : ∀ e ∈ db.ledger.rows, e.entryType = .adjustment → ∃ p ∈ db.payouts.rows, p.id = e.payoutID

/-- No payout has been made and no entry written. -/
structure Opening : Prop where
  ledger  : db.ledger.rows = []
  payouts : db.payouts.rows = []

theorem Opening.sound {db : PaymentDB} (h : db.Opening) : db.Sound where
  conserved ref := by simp [totalOf, sumOf, paidOut, Table.sum, Table.select, h.ledger, h.payouts]
  compensated p hp := by simp [h.payouts] at hp
  uncompensated p hp := by simp [h.payouts] at hp
  oneOpen ref := by simp [Table.select, h.payouts]
  anchored e he := by simp [h.ledger] at he

theorem oneOpen_always (ref : PartnerRef) :
    (db.payouts.select fun p => p.partner == ref && p.status.isOpen).length ≤ 1 :=
  db.payouts.select_le_one fun a b ha hb => by
    simp only [Bool.and_eq_true, beq_iff_eq] at ha hb
    exact Payout.clash_of_open ha.2 hb.2 (ha.1.trans hb.1.symm)

end PaymentDB

/-! ## One transaction -/

namespace PaymentDB.Sound

variable {db : PaymentDB}

/-- No adjustment of a payout that is not there. -/
theorem adjustments_new (h : db.Sound) {id : String} (hid : ∀ p ∈ db.payouts.rows, p.id ≠ id) : db.adjustments id = [] := by
  refine List.filter_eq_nil_iff.2 (fun e he => ?_)
  simp only [Bool.and_eq_true, beq_iff_eq, not_and]
  intro hty hpid
  obtain ⟨p, hp, hpe⟩ := h.anchored e he hty
  exact hid p hp (hpe.trans hpid)

/-- An accrual or a reversal is written. -/
theorem insert_entry (h : db.Sound) {e : LedgerEntry} {l : Table ledgerSchema} (hl : db.ledger.insert e = .ok l)
    (hty : e.entryType = .accrual ∨ e.entryType = .reversal) : ({ db with ledger := l } : PaymentDB).Sound where
  conserved ref := by
    have hc := h.conserved ref
    simp only [totalOf, sumOf, paidOut] at hc ⊢
    rw [Table.sum_insert hl, Table.sum_insert hl, Table.sum_insert hl]
    rcases hty with hty | hty <;> cases e.isOf ref <;> simp [hty] <;> omega
  compensated p hp hst := by
    obtain ⟨x, hx, hamt⟩ := h.compensated p hp hst
    refine ⟨x, ?_, hamt⟩
    unfold adjustments at hx ⊢
    rw [Table.select_insert hl, hx]
    rcases hty with hty | hty <;> simp [hty]
  uncompensated p hp hst := by
    have hx := h.uncompensated p hp hst
    unfold adjustments at hx ⊢
    rw [Table.select_insert hl, hx]
    rcases hty with hty | hty <;> simp [hty]
  oneOpen := db.oneOpen_always
  anchored x hx hxt := by
    rw [Table.insert_rows hl] at hx
    rcases List.mem_append.1 hx with hx | hx
    · exact h.anchored x hx hxt
    · rw [List.mem_singleton.1 hx] at hxt
      rcases hty with hty | hty <;> rw [hty] at hxt <;> cases hxt

/-- A payout is made, and its debit written. -/
theorem create (h : db.Sound) {p : Payout} {now : Time} {t : Table payoutSchema} {l : Table ledgerSchema}
    (ht : db.payouts.insert p = .ok t) (hl : db.ledger.insert ((PayoutRepo.debit p).row now db) = .ok l)
    (hst : p.status ≠ .failed) : ({ db with payouts := t, ledger := l } : PaymentDB).Sound := by
  have hnew : ∀ q ∈ db.payouts.rows, q.id ≠ p.id := by
    intro q hq hid
    have := (Table.of_insert_ok ht).2 q hq
    rw [Payout.clash_of_id hid] at this
    cases this
  have hrows := Table.insert_rows ht
  have hadj : ∀ id, ({ db with payouts := t, ledger := l } : PaymentDB).adjustments id = db.adjustments id := by
    intro id
    unfold adjustments
    rw [Table.select_insert hl]
    simp [LedgerEntry.row, PayoutRepo.debit]
  refine { conserved := fun ref => ?_, compensated := fun q hq hq' => ?_, uncompensated := fun q hq hq' => ?_,
           oneOpen := PaymentDB.oneOpen_always _, anchored := fun e he hty => ?_ }
  · have hc := h.conserved ref
    have hof : ((PayoutRepo.debit p).row now db).isOf ref = (p.partner == ref) := rfl
    simp only [totalOf, sumOf, paidOut] at hc ⊢
    rw [Table.sum_insert hl, Table.sum_insert hl, Table.sum_insert hl, Table.sum_insert ht, hof]
    cases p.partner == ref <;> simp [LedgerEntry.row, PayoutRepo.debit, hst] <;> omega
  · rw [hadj]
    rw [hrows] at hq
    rcases List.mem_append.1 hq with hq | hq
    · exact h.compensated q hq hq'
    · rw [List.mem_singleton.1 hq] at hq'
      exact absurd hq' hst
  · rw [hadj]
    rw [hrows] at hq
    rcases List.mem_append.1 hq with hq | hq
    · exact h.uncompensated q hq hq'
    · rw [List.mem_singleton.1 hq]
      exact h.adjustments_new hnew
  · rw [Table.insert_rows hl] at he
    rcases List.mem_append.1 he with he | he
    · obtain ⟨q, hq, hqe⟩ := h.anchored e he hty
      exact ⟨q, by rw [hrows]; simp [hq], hqe⟩
    · rw [List.mem_singleton.1 he] at hty
      cases hty

/-- An open payout moves, to a status other than failed. -/
theorem move (h : db.Sound) {p p' : Payout} {l₁ l₂ : List Payout} {t : Table payoutSchema}
    (hrows : db.payouts.rows = l₁ ++ p :: l₂) (hrows' : t.rows = l₁ ++ p' :: l₂) (hst : p.status ≠ .failed)
    (hst' : p'.status ≠ .failed) (hid : p'.id = p.id) (hpart : p'.partner = p.partner)
    (hamt : p'.amountKopecks = p.amountKopecks) : ({ db with payouts := t } : PaymentDB).Sound where
  conserved ref := by
    have hc := h.conserved ref
    simp only [totalOf, sumOf, paidOut] at hc ⊢
    rw [Table.sum_replace hrows hrows', hpart, hamt]
    cases p.partner == ref <;> simp [hst, hst'] <;> omega
  compensated q hq hq' := by
    rw [hrows'] at hq
    simp only [List.mem_append, List.mem_cons] at hq
    rcases hq with hq | rfl | hq
    · exact h.compensated q (by simp [hrows, hq]) hq'
    · exact absurd hq' hst'
    · exact h.compensated q (by simp [hrows, hq]) hq'
  uncompensated q hq hq' := by
    rw [hrows'] at hq
    simp only [List.mem_append, List.mem_cons] at hq
    rcases hq with hq | rfl | hq
    · exact h.uncompensated q (by simp [hrows, hq]) hq'
    · have := h.uncompensated p (by simp [hrows]) hst
      rwa [← hid] at this
    · exact h.uncompensated q (by simp [hrows, hq]) hq'
  oneOpen := PaymentDB.oneOpen_always _
  anchored e he hty := by
    obtain ⟨q, hq, hqe⟩ := h.anchored e he hty
    rw [hrows] at hq
    simp only [List.mem_append, List.mem_cons] at hq
    rcases hq with hq | rfl | hq
    · exact ⟨q, by simp [hrows', hq], hqe⟩
    · exact ⟨p', by simp [hrows'], hid.trans hqe⟩
    · exact ⟨q, by simp [hrows', hq], hqe⟩

/-- An open payout fails, and its debit is given back. -/
theorem fail (h : db.Sound) {p p' : Payout} {l₁ l₂ : List Payout} {t : Table payoutSchema} {l : Table ledgerSchema}
    {now : Time} {reason : String} (hrows : db.payouts.rows = l₁ ++ p :: l₂) (hrows' : t.rows = l₁ ++ p' :: l₂)
    (hl : db.ledger.insert ((PayoutRepo.credit p reason).row now db) = .ok l) (hst : p.status ≠ .failed)
    (hst' : p'.status = .failed) (hid : p'.id = p.id) (hpart : p'.partner = p.partner)
    (hamt : p'.amountKopecks = p.amountKopecks) : ({ db with payouts := t, ledger := l } : PaymentDB).Sound := by
  have hadj : ∀ id, ({ db with payouts := t, ledger := l } : PaymentDB).adjustments id =
      db.adjustments id ++ if p.id = id then [(PayoutRepo.credit p reason).row now db] else [] := by
    intro id
    unfold adjustments
    rw [Table.select_insert hl]
    simp [LedgerEntry.row, PayoutRepo.credit]
  have hother : ∀ q ∈ l₁ ++ l₂, p.id ≠ q.id := by
    intro q hq hpq
    have hnd := db.payouts.noClash
    rw [hrows, List.pairwise_append, List.pairwise_cons] at hnd
    rcases List.mem_append.1 hq with hq | hq
    · have := hnd.2.2 q hq p (by simp)
      rw [Payout.clash_of_id hpq.symm] at this
      cases this
    · have := hnd.2.1.1 q hq
      rw [Payout.clash_of_id hpq] at this
      cases this
  refine { conserved := fun ref => ?_, compensated := fun q hq hq' => ?_, uncompensated := fun q hq hq' => ?_,
           oneOpen := PaymentDB.oneOpen_always _, anchored := fun e he hty => ?_ }
  · have hc := h.conserved ref
    have hof : ((PayoutRepo.credit p reason).row now db).isOf ref = (p.partner == ref) := rfl
    simp only [totalOf, sumOf, paidOut] at hc ⊢
    rw [Table.sum_insert hl, Table.sum_insert hl, Table.sum_insert hl, Table.sum_replace hrows hrows', hof, hpart]
    cases p.partner == ref <;> simp [LedgerEntry.row, PayoutRepo.credit, hst, hst'] <;> omega
  · rw [hadj]
    rw [hrows'] at hq
    simp only [List.mem_append, List.mem_cons] at hq
    have hold : ∀ q ∈ l₁ ++ l₂, q.status = .failed → ∃ e, db.adjustments q.id ++
        (if p.id = q.id then [(PayoutRepo.credit p reason).row now db] else []) = [e] ∧
        e.amountKopecks = q.amountKopecks ∧ e.partner = q.partner := by
      intro q hq hq'
      have hmem : q ∈ db.payouts.rows := by
        rw [hrows]
        rcases List.mem_append.1 hq with hq | hq <;> simp [hq]
      obtain ⟨e, he, hea⟩ := h.compensated q hmem hq'
      exact ⟨e, by simp [he, hother q hq], hea⟩
    rcases hq with hq | rfl | hq
    · exact hold q (by simp [hq]) hq'
    · have hnone := h.uncompensated p (by simp [hrows]) hst
      exact ⟨(PayoutRepo.credit p reason).row now db, by simp [hid, hnone], hamt.symm, hpart.symm⟩
    · exact hold q (by simp [hq]) hq'
  · rw [hadj]
    rw [hrows'] at hq
    simp only [List.mem_append, List.mem_cons] at hq
    rcases hq with hq | rfl | hq
    · simp [h.uncompensated q (by simp [hrows, hq]) hq', hother q (by simp [hq])]
    · exact absurd hst' hq'
    · simp [h.uncompensated q (by simp [hrows, hq]) hq', hother q (by simp [hq])]
  · rw [Table.insert_rows hl] at he
    rcases List.mem_append.1 he with he | he
    · obtain ⟨q, hq, hqe⟩ := h.anchored e he hty
      rw [hrows] at hq
      simp only [List.mem_append, List.mem_cons] at hq
      rcases hq with hq | rfl | hq
      · exact ⟨q, by simp [hrows', hq], hqe⟩
      · exact ⟨p', by simp [hrows'], hid.trans hqe⟩
      · exact ⟨q, by simp [hrows', hq], hqe⟩
    · rw [List.mem_singleton.1 he]
      exact ⟨p', by simp [hrows'], hid⟩

end PaymentDB.Sound

/-- **Every transaction keeps the ledger and the payouts sound**, unless it makes a payout that has failed already. -/
theorem LedgerOp.sound {db : PaymentDB} (h : db.Sound) {o : LedgerOp} (ho : o.createsUnfailed) : (o.apply db).Sound := by
  cases o with
  | appendAccrual now e =>
    rcases LedgerRepo.appendAccrual_cases now e db with ⟨_, he, -⟩ | ⟨_, he, -⟩ | ⟨l, he, hty, hl, -⟩
    · simpa [LedgerOp.apply, he] using h
    · simpa [LedgerOp.apply, he] using h
    · rw [LedgerOp.apply, he]
      exact h.insert_entry hl (.inl hty)
  | appendReversal now e =>
    rcases LedgerRepo.appendReversal_cases now e db with ⟨_, he, -⟩ | ⟨_, he, -⟩ | ⟨l, he, hty, hl, -⟩
    · simpa [LedgerOp.apply, he] using h
    · simpa [LedgerOp.apply, he] using h
    · rw [LedgerOp.apply, he]
      exact h.insert_entry hl (.inr hty)
  | createPendingWithLedger now gen p =>
    rcases PayoutRepo.createPendingWithLedger_cases now gen p db with ⟨_, he⟩ | ⟨id, t, l, he, -, -, ht, hl⟩
    · simpa [LedgerOp.apply, he] using h
    · rw [LedgerOp.apply, he]
      refine h.create ht hl ?_
      rw [createsUnfailed] at ho
      simp only [PayoutRepo.row]
      split <;> simp [ho]
  | markProcessing now id pid =>
    rcases PayoutRepo.markProcessing_cases now id pid db with ⟨_, he⟩ | ⟨he, -⟩ | ⟨p, l₁, l₂, t, hr, -, hst, he, hr'⟩
    · simpa [LedgerOp.apply, he] using h
    · simpa [LedgerOp.apply, he] using h
    · rw [LedgerOp.apply, he]
      exact h.move hr hr' (by simp [hst]) (by simp) rfl rfl rfl
  | markSucceeded now id at' =>
    rcases PayoutRepo.markSucceeded_cases now id at' db with ⟨_, he⟩ | ⟨p, l₁, l₂, t, hr, -, hst, he, hr'⟩
    · simpa [LedgerOp.apply, he] using h
    · rw [LedgerOp.apply, he]
      exact h.move hr hr' (by rintro h0; simp [h0, PayoutStatus.isTerminal] at hst) (by simp) rfl rfl rfl
  | markFailedWithReversal now id reason at' =>
    rcases PayoutRepo.markFailedWithReversal_cases now id reason at' db with
      ⟨_, he⟩ | ⟨p, l₁, l₂, t, l, hr, -, hst, he, hr', hl⟩
    · simpa [LedgerOp.apply, he] using h
    · rw [LedgerOp.apply, he]
      exact h.fail hr hr' hl (by rintro h0; simp [h0, PayoutStatus.isTerminal] at hst) rfl rfl rfl rfl

/-- The same payout later: what it is about never changes, and a final status does not either. -/
structure Payout.Follows (p q : Payout) : Prop where
  id      : q.id = p.id
  key     : q.idempotencyKey = p.idempotencyKey
  partner : q.partner = p.partner
  amount  : q.amountKopecks = p.amountKopecks
  final   : p.status.isTerminal = true → q.status = p.status

theorem Payout.Follows.refl (p : Payout) : p.Follows p := ⟨rfl, rfl, rfl, rfl, fun _ => rfl⟩

theorem Payout.Follows.trans {a b c : Payout} (h1 : a.Follows b) (h2 : b.Follows c) : a.Follows c where
  id := h2.id.trans h1.id
  key := h2.key.trans h1.key
  partner := h2.partner.trans h1.partner
  amount := h2.amount.trans h1.amount
  final ht := by
    have hb := h1.final ht
    rw [← hb] at ht ⊢
    exact h2.final ht

/-- Every payout of one database is in another, then or later. -/
def PaymentDB.PayoutsGo (db db' : PaymentDB) : Prop := ∀ p ∈ db.payouts.rows, ∃ q ∈ db'.payouts.rows, p.Follows q

theorem PaymentDB.PayoutsGo.refl (db : PaymentDB) : db.PayoutsGo db := fun p hp => ⟨p, hp, .refl p⟩

theorem PaymentDB.PayoutsGo.trans {a b c : PaymentDB} (h1 : a.PayoutsGo b) (h2 : b.PayoutsGo c) : a.PayoutsGo c := by
  intro p hp
  obtain ⟨q, hq, hpq⟩ := h1 p hp
  obtain ⟨r, hr, hqr⟩ := h2 q hq
  exact ⟨r, hr, hpq.trans hqr⟩

/-- One open payout is replaced. -/
theorem PaymentDB.PayoutsGo.of_replaced {db db' : PaymentDB} {p p' : Payout} {l₁ l₂ : List Payout}
    (hrows : db.payouts.rows = l₁ ++ p :: l₂) (hrows' : db'.payouts.rows = l₁ ++ p' :: l₂) (hp : p.Follows p') :
    db.PayoutsGo db' := by
  intro q hq
  rw [hrows] at hq
  simp only [List.mem_append, List.mem_cons] at hq
  rcases hq with hq | rfl | hq
  · exact ⟨q, by simp [hrows', hq], .refl q⟩
  · exact ⟨p', by simp [hrows'], hp⟩
  · exact ⟨q, by simp [hrows', hq], .refl q⟩

/-- **Every payout is still there after every transaction**, with its final status if it has one. -/
theorem LedgerOp.go (o : LedgerOp) (db : PaymentDB) : db.PayoutsGo (o.apply db) := by
  have hopen : ∀ {q : Payout} {st : PayoutStatus}, q.status.isTerminal = false → q.status.isTerminal = true →
      st = q.status := by
    intro q st h h'
    rw [h] at h'
    cases h'
  cases o with
  | appendAccrual now e =>
    rcases LedgerRepo.appendAccrual_cases now e db with ⟨_, he, -⟩ | ⟨_, he, -⟩ | ⟨l, he, -⟩ <;>
      rw [LedgerOp.apply, he] <;> exact .refl db
  | appendReversal now e =>
    rcases LedgerRepo.appendReversal_cases now e db with ⟨_, he, -⟩ | ⟨_, he, -⟩ | ⟨l, he, -⟩ <;>
      rw [LedgerOp.apply, he] <;> exact .refl db
  | createPendingWithLedger now gen x =>
    rcases PayoutRepo.createPendingWithLedger_cases now gen x db with ⟨_, he⟩ | ⟨id, t, l, he, -, -, htab, -⟩
    · rw [LedgerOp.apply, he]
      exact .refl db
    · rw [LedgerOp.apply, he]
      exact fun p hp => ⟨p, by simp [Table.insert_rows htab, hp], .refl p⟩
  | markProcessing now id pid =>
    rcases PayoutRepo.markProcessing_cases now id pid db with ⟨_, he⟩ | ⟨he, -⟩ | ⟨q, l₁, l₂, t, hr, -, hst, he, hr'⟩
    · rw [LedgerOp.apply, he]
      exact .refl db
    · rw [LedgerOp.apply, he]
      exact .refl db
    · rw [LedgerOp.apply, he]
      exact .of_replaced hr hr' ⟨rfl, rfl, rfl, rfl, hopen (by simp [hst, PayoutStatus.isTerminal])⟩
  | markSucceeded now id at' =>
    rcases PayoutRepo.markSucceeded_cases now id at' db with ⟨_, he⟩ | ⟨q, l₁, l₂, t, hr, -, hst, he, hr'⟩
    · rw [LedgerOp.apply, he]
      exact .refl db
    · rw [LedgerOp.apply, he]
      exact .of_replaced hr hr' ⟨rfl, rfl, rfl, rfl, hopen hst⟩
  | markFailedWithReversal now id reason at' =>
    rcases PayoutRepo.markFailedWithReversal_cases now id reason at' db with
      ⟨_, he⟩ | ⟨q, l₁, l₂, t, l, hr, -, hst, he, hr', -⟩
    · rw [LedgerOp.apply, he]
      exact .refl db
    · rw [LedgerOp.apply, he]
      exact .of_replaced hr hr' ⟨rfl, rfl, rfl, rfl, hopen hst⟩

/-! ## Runs -/

theorem runOps_sound : ∀ (ops : List LedgerOp) {db : PaymentDB}, db.Sound → (∀ o ∈ ops, o.createsUnfailed) →
    (runOps ops db).Sound
  | [], _, h, _ => h
  | o :: ops, db, h, ho => by
    have h1 : (o.apply db).Sound := LedgerOp.sound h (ho o (by simp))
    exact runOps_sound ops h1 (fun o hm => ho o (by simp [hm]))

theorem runOps_go : ∀ (ops : List LedgerOp) (db : PaymentDB), db.PayoutsGo (runOps ops db)
  | [], db => .refl db
  | o :: ops, db => (o.go db).trans (runOps_go ops (o.apply db))

/-- The ledger and the payouts agree after the run, and no payout final by then changes its status in any run on. -/
def PayoutsKept (db : PaymentDB) (ops : List LedgerOp) : Prop :=
  (runOps ops db).Balanced ∧ ∀ ops', ∀ p ∈ (runOps ops db).payouts.rows, p.status.isTerminal = true →
    ∃ q ∈ (runOps ops' (runOps ops db)).payouts.rows, q.id = p.id ∧ q.status = p.status

/-- **The ledger and the payouts agree after every run that makes no payout as failed already.** -/
theorem payouts_kept {db : PaymentDB} (hdb : db.Opening) {ops : List LedgerOp} (ho : ∀ o ∈ ops, o.createsUnfailed) :
    PayoutsKept db ops :=
  ⟨(runOps_sound ops hdb.sound ho).toBalanced, fun ops' p hp ht => by
    obtain ⟨q, hq, hpq⟩ := runOps_go ops' (runOps ops db) p hp
    exact ⟨q, hq, hpq.id, hpq.final ht⟩⟩

/-- **A payout made as failed has its debit and nothing that gives it back.** -/
theorem created_failed_unbalanced {db : PaymentDB} (h : db.Sound) {now : Time} {gen : String} {p q : Payout}
    {db' : PaymentDB} (hst : p.status = .failed)
    (he : PayoutRepo.createPendingWithLedger now gen p db = (.ok q, db')) : ¬ db'.Balanced := by
  intro hbal
  rcases PayoutRepo.createPendingWithLedger_cases now gen p db with ⟨_, he'⟩ | ⟨id, t, l, he', -, -, ht, hl⟩
  · rw [he'] at he
    cases he
  obtain ⟨rfl, rfl⟩ : PayoutRepo.row now id p = q ∧ { db with payouts := t, ledger := l } = db' := by
    rw [he'] at he
    cases he
    exact ⟨rfl, rfl⟩
  have hnew : ∀ q ∈ db.payouts.rows, q.id ≠ id := by
    intro q hq hid
    have := (Table.of_insert_ok ht).2 q hq
    rw [Payout.clash_of_id hid] at this
    cases this
  obtain ⟨e, hadj, -⟩ := hbal.compensated (PayoutRepo.row now id p) (by simp [Table.insert_rows ht])
    (by simp [PayoutRepo.row, hst])
  have hnone := h.adjustments_new hnew
  unfold PaymentDB.adjustments at hadj hnone
  rw [Table.select_insert hl] at hadj
  have hid : (PayoutRepo.row now id p).id = id := rfl
  rw [hid, hnone] at hadj
  simp [LedgerEntry.row, PayoutRepo.debit] at hadj

/-! ### A payout made as failed -/

def sampleMethod : PayoutMethod where
  id := "00000000-0000-0000-0000-000000000004"
  partnerType := .venue
  partnerID := "00000000-0000-0000-0000-000000000003"
  kind := .card
  providerName := "mock"
  cardLast4 := "4242"
  providerToken := "token"
  bankBIC := ""
  bankAccount := ""
  recipientINN := ""
  recipientKPP := ""
  recipientName := ""
  sbpPhone := ""
  sbpBankID := ""
  deactivatedAt := none

/-- A payment that has not been credited, and a method to pay its partner with. -/
def samplePayouts : PaymentDB :=
  { PaymentDB.ofPayment (samplePayment .succeeded) (samplePayment_check .succeeded) with
    methods := ⟨[sampleMethod], by decide, by simp⟩ }

def sampleAccrual : LedgerEntry := PaymentUseCase.accrualEntry ⟨"mock", 0⟩ (samplePayment .succeeded) 0

def samplePayout (status : PayoutStatus) : Payout where
  id := "00000000-0000-0000-0000-000000000005"
  partnerType := .venue
  partnerID := "00000000-0000-0000-0000-000000000003"
  amountKopecks := 85000
  methodID := "00000000-0000-0000-0000-000000000004"
  methodKindSnapshot := .card
  methodDisplay := sampleMethod.display
  status := status
  providerName := "mock"
  idempotencyKey := "payout:" ++ "00000000-0000-0000-0000-000000000005"

theorem samplePayout_check (now : Time) {status : PayoutStatus} (h : status = .unset ∨ status = .failed) :
    payoutSchema.check (PayoutRepo.row now (samplePayout status).id (samplePayout status)) = true := by
  rcases h with rfl | rfl
  · have h : payoutSchema.check (PayoutRepo.row 0 (samplePayout .unset).id (samplePayout .unset)) = true := by decide
    exact h
  · have h : payoutSchema.check (PayoutRepo.row 0 (samplePayout .failed).id (samplePayout .failed)) = true := by decide
    exact h

theorem samplePayouts_opening : samplePayouts.Opening := ⟨rfl, rfl⟩

/-- The partner of the sample payment is credited, and a payout of the credit made. -/
theorem samplePayouts_paid (status : PayoutStatus) (h : status = .unset ∨ status = .failed) :
    ∃ t l t', LedgerRepo.appendAccrual 0 sampleAccrual samplePayouts = (.ok (), { samplePayouts with ledger := l }) ∧
      readAvailableBalance 0 (samplePayout status).partner { samplePayouts with ledger := l } = 85000 ∧
      (∀ gen, PayoutRepo.createPendingWithLedger 0 gen (samplePayout status) { samplePayouts with ledger := l } =
        (.ok (PayoutRepo.row 0 (samplePayout status).id (samplePayout status)),
          { samplePayouts with payouts := t, ledger := t' })) ∧
      t.rows = [PayoutRepo.row 0 (samplePayout status).id (samplePayout status)] := by
  have hshow : samplePayouts.Shows (samplePayment .succeeded) ⟨.succeeded, false, false⟩ :=
    ⟨⟨_, List.mem_singleton.2 rfl, rfl, rfl⟩, rfl⟩
  obtain ⟨l, hacc, -, hl⟩ := hshow.appendAccrual_new (Payment.sameAs_refl _) (by decide) rfl rfl ⟨"mock", 0⟩ 0 0
  have hrows : l.rows = [sampleAccrual.row 0 samplePayouts] := by rw [Table.insert_rows hl]; rfl
  have hav : readAvailableBalance 0 (samplePayout status).partner { samplePayouts with ledger := l } = 85000 := by
    have hpart : (samplePayout status).partner = ⟨.venue, "00000000-0000-0000-0000-000000000003"⟩ := rfl
    rw [readAvailableBalance, Table.sum_insert hl, hpart]
    decide
  have hnew : ∀ q ∈ samplePayouts.payouts.rows, payoutSchema.clash q
      (PayoutRepo.row 0 (samplePayout status).id (samplePayout status)) = false := by
    rw [samplePayouts_opening.payouts]
    simp
  have hdebit : ∀ e ∈ l.rows, e.entryType = .payout → e.payoutID ≠ (samplePayout status).id := by
    intro e he hty
    rw [hrows, List.mem_singleton] at he
    rw [he] at hty
    cases hty
  have hid : isUUID (samplePayout .unset).id = true := by decide
  have hkey : (samplePayout .unset).idempotencyKey ≠ "" := by decide
  have hprov : (samplePayout .unset).providerName ≠ "" := by decide
  have hamt : (samplePayout .unset).amountKopecks ≤ 85000 := by decide
  obtain ⟨t, t', hok, ht, -⟩ := PayoutRepo.createPendingWithLedger_ok (samplePayout status)
    { samplePayouts with ledger := l } hid ⟨sampleMethod, List.mem_singleton.2 rfl, rfl⟩ hkey hprov
    (samplePayout_check 0 h) (by rw [hav]; exact hamt) hnew hdebit
  exact ⟨t, l, t', hacc, hav, hok, by rw [Table.insert_rows ht, samplePayouts_opening.payouts]; rfl⟩

def createdFailed : List LedgerOp :=
  [.appendAccrual 0 sampleAccrual, .createPendingWithLedger 0 "" (samplePayout .failed)]

def createdPending : List LedgerOp :=
  [.appendAccrual 0 sampleAccrual, .createPendingWithLedger 0 "" (samplePayout .unset)]

theorem payouts_kept_sample : PayoutsKept samplePayouts createdPending :=
  payouts_kept samplePayouts_opening (by simp [createdPending, LedgerOp.createsUnfailed, samplePayout])

theorem payouts_not_always_kept : ¬ ∀ (db : PaymentDB) (ops : List LedgerOp), db.Opening → PayoutsKept db ops := by
  intro h
  obtain ⟨t, l, t', hacc, -, hcreate, -⟩ := samplePayouts_paid .failed (.inr rfl)
  have hsound : ({ samplePayouts with ledger := l } : PaymentDB).Sound := by
    have := LedgerOp.sound samplePayouts_opening.sound (o := .appendAccrual 0 sampleAccrual) trivial
    rwa [LedgerOp.apply, hacc] at this
  refine created_failed_unbalanced hsound rfl (hcreate "") ?_
  have hbal := (h samplePayouts createdFailed samplePayouts_opening).1
  simpa only [runOps, createdFailed, List.foldl_cons, List.foldl_nil, LedgerOp.apply, hacc, hcreate] using hbal

end Agregator
