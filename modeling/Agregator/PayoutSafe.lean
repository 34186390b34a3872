import Agregator.PayoutUsecase
/-!
# PayoutSafe — no payout is made twice

Payout runs, reconciliations and webhooks as a pool, with lost answers and crashes.  A payout is given up only when the
bank has refused it or says that its transfer has failed, so what the bank transfers stays within the payouts that have
not failed, and these within what the partner has earned.
-/
namespace Agregator

open Rel Conc

inductive PayoutCall where
  | payoutPartner (ref : PartnerRef)
  | reconcileOne (p : Payout)
  | handlePayoutWebhook (rawBody : RawBody)

/-- The call, with the error it returns. -/
def PayoutCall.prog (uc : PayoutUseCase) : PayoutCall → PayoutProg (Option Err)
  | .payoutPartner ref => uc.payoutPartner ref
  | .reconcileOne p => Agregator.reconcileOne p
  | .handlePayoutWebhook rawBody => do
    let r ← uc.handlePayoutWebhook rawBody
    return r.2

/-- A reconciliation starts from a row that `ListPendingOlderThan` has read. -/
def PayoutCall.ready : PayoutCall → PayoutWorld → Prop
  | .reconcileOne p, w => p ∈ w.db.payouts.rows ∧ p.status = .pending
  | _, _ => True

/-- Payments are credited and refunded, and transfers come to their end. -/
inductive PayoutWorld.Moves : PayoutWorld → PayoutWorld → Prop where
  | accrue (w : PayoutWorld) (now : Time) (e : LedgerEntry) :
      Moves w { w with db := (LedgerOp.appendAccrual now e).apply w.db }
  | reverse (w : PayoutWorld) (now : Time) (e : LedgerEntry) :
      Moves w { w with db := (LedgerOp.appendReversal now e).apply w.db }
  | settle (w : PayoutWorld) (id : String) (status : ProviderStatus) (reason : String) :
      Moves w { w with bank := w.bank.settle id status reason }

def payoutSys (uc : PayoutUseCase) : Sys PayoutWorld PayoutCall PayoutOp PayoutOp.Res (Option Err) where
  prog := PayoutCall.prog uc
  ready := PayoutCall.ready
  exec := PayoutOp.Exec
  env := PayoutWorld.Moves

/-! ## The bank -/

/-- The bank has refused the key, or its transfer has failed. -/
def Bank.Rejected (b : Bank) (k : String) : Prop :=
  k ∈ b.refused ∨ ∃ t ∈ b.transfers.rows, t.key = k ∧ t.status = .failed

/-- What the bank has transferred to the partner, or may still transfer. -/
def Bank.transferred (b : Bank) (ref : PartnerRef) : ℤ :=
  b.transfers.sum (fun t => t.partner == ref && t.status != .failed) (·.request.amountKopecks)

/-- The bank later: what it has decided stands. -/
structure Bank.Goes (b b' : Bank) : Prop where
  refused   : ∀ k ∈ b.refused, k ∈ b'.refused
  transfers : ∀ t ∈ b.transfers.rows, ∃ t' ∈ b'.transfers.rows,
    t'.request = t.request ∧ t'.id = t.id ∧ (t.status ≠ .pending → t'.status = t.status)

namespace Bank

variable {b b' c : Bank}

theorem Goes.refl (b : Bank) : b.Goes b := ⟨fun _ h => h, fun t ht => ⟨t, ht, rfl, rfl, fun _ => rfl⟩⟩

theorem Goes.trans (h1 : b.Goes b') (h2 : b'.Goes c) : b.Goes c where
  refused k hk := h2.refused k (h1.refused k hk)
  transfers t ht := by
    obtain ⟨t', ht', hr', hi', hs'⟩ := h1.transfers t ht
    obtain ⟨t'', ht'', hr'', hi'', hs''⟩ := h2.transfers t' ht'
    refine ⟨t'', ht'', hr''.trans hr', hi''.trans hi', fun hst => ?_⟩
    have hst' := hs' hst
    rw [← hst'] at hst ⊢
    exact hs'' hst

theorem Goes.rejected (h : b.Goes b') {k : String} (hk : b.Rejected k) : b'.Rejected k := by
  rcases hk with hk | ⟨t, ht, hk, hst⟩
  · exact .inl (h.refused k hk)
  · obtain ⟨t', ht', hr, -, hs⟩ := h.transfers t ht
    refine .inr ⟨t', ht', ?_, (hs (by simp [hst])).trans hst⟩
    rw [Transfer.key, hr]
    exact hk

theorem clash_of_key {s t : Transfer} (h : s.key = t.key) : transferSchema.clash s t = true := by
  simp [transferSchema, h]

theorem clash_of_id {s t : Transfer} (h : s.id = t.id) : transferSchema.clash s t = true := by
  simp [transferSchema, h]

/-- **Everything `createPayout` can do**: repeat a transfer, refuse, accept, or not be able to answer. -/
theorem createPayout_cases (choice : BankChoice) (req : PayoutRequest) (b : Bank) :
    (∃ t ∈ b.transfers.rows, t.key = req.idempotencyKey ∧ createPayout choice req b = (.ok t.result, b)) ∨
    (∃ e, (∀ t ∈ b.transfers.rows, t.key ≠ req.idempotencyKey) ∧ e.transient = false ∧
      ((req.idempotencyKey ∈ b.refused ∧ createPayout choice req b = (.error e, b)) ∨
        createPayout choice req b = (.error e, { b with refused := req.idempotencyKey :: b.refused }))) ∨
    (∃ t ts, t.request = req ∧ req.idempotencyKey ∉ b.refused ∧ b.transfers.insert t = .ok ts ∧
      createPayout choice req b = (.ok t.result, { b with transfers := ts })) ∨
    (∃ e, e.transient = true ∧ createPayout choice req b = (.error e, b)) := by
  unfold createPayout
  split
  · rename_i t hget
    obtain ⟨ht, hk⟩ := Table.get_mem hget
    exact .inl ⟨t, ht, by simpa using hk, rfl⟩
  rename_i hnone
  have hno : ∀ t ∈ b.transfers.rows, t.key ≠ req.idempotencyKey := by simpa using Table.get_eq_none.1 hnone
  split
  · rename_i hr
    exact .inr (.inl ⟨_, hno, rfl, .inl ⟨hr, rfl⟩⟩)
  rename_i hr
  split
  · exact .inr (.inl ⟨_, hno, rfl, .inr rfl⟩)
  split
  · rename_i ts hts
    exact .inr (.inr (.inl ⟨_, ts, rfl, hr, hts, rfl⟩))
  · exact .inr (.inr (.inr ⟨_, rfl, rfl⟩))

theorem settle_cases (id : String) (st : ProviderStatus) (reason : String) (b : Bank) :
    b.settle id st reason = b ∨
    ∃ t l₁ l₂ ts, b.transfers.rows = l₁ ++ t :: l₂ ∧ t.status = .pending ∧
      b.settle id st reason = { b with transfers := ts } ∧ ts.rows = l₁ ++ { t with status := st, reason := reason } :: l₂ := by
  unfold settle
  split
  swap
  · exact .inl rfl
  rename_i ts hts
  by_cases hex : ∃ t ∈ b.transfers.rows, (t.id == id && t.status == .pending) = true
  · obtain ⟨t, ht, hg⟩ := hex
    have hid : t.id = id ∧ t.status = .pending := by simpa using hg
    obtain ⟨l₁, l₂, hrows, h1, h2⟩ := b.transfers.split_key ht (p := fun t => t.id == id && t.status == .pending)
      (fun x hx => clash_of_id (by simp at hx; rw [hx.1, hid.1]))
    exact .inr ⟨t, l₁, l₂, ts, hrows, hid.2, rfl, Table.update_key hts hg hrows h1 h2⟩
  · push Not at hex
    rw [b.transfers.update_none (fun x hx => by simpa using hex x hx)] at hts
    obtain rfl : b.transfers = ts := by simpa using hts
    exact .inl rfl

theorem goes_settle (id : String) (st : ProviderStatus) (reason : String) (b : Bank) : b.Goes (b.settle id st reason) := by
  rcases settle_cases id st reason b with h | ⟨t, l₁, l₂, ts, hrows, hst, h, hrows'⟩
  · rw [h]
    exact .refl b
  rw [h]
  refine ⟨fun _ hk => hk, fun x hx => ?_⟩
  rw [hrows] at hx
  simp only [List.mem_append, List.mem_cons] at hx
  rcases hx with hx | rfl | hx
  · exact ⟨x, by simp [hrows', hx], rfl, rfl, fun _ => rfl⟩
  · exact ⟨{ x with status := st, reason := reason }, by simp [hrows'], rfl, rfl, fun hne => absurd hst hne⟩
  · exact ⟨x, by simp [hrows', hx], rfl, rfl, fun _ => rfl⟩

theorem parsePayoutWebhook_confirmed {parsed : Except Err (Option PayoutWebhookEvent)} {ev : PayoutWebhookEvent}
    (h : b.parsePayoutWebhook parsed = .ok (some ev)) :
    ∃ t ∈ b.transfers.rows, t.id = ev.providerPayoutID ∧ t.status = ev.status := by
  unfold parsePayoutWebhook confirm at h
  split at h
  · cases h
  · cases h
  split at h
  · rename_i t hget
    cases h
    obtain ⟨ht, hid⟩ := Table.get_mem hget
    exact ⟨t, ht, by simpa using hid, rfl⟩
  · cases h

end Bank

/-! ## The invariant -/

namespace PayoutWorld

/-- Every transfer is one of a payout, a failed payout is one the bank has rejected, and the transfer whose id a payout
holds is its own. -/
structure Kept (w : PayoutWorld) : Prop where
  sound  : w.db.Sound
  linked : ∀ t ∈ w.bank.transfers.rows, ∃ q ∈ w.db.payouts.rows,
    q.idempotencyKey = t.key ∧ q.amountKopecks = t.request.amountKopecks ∧ q.partner = t.partner
  taken  : ∀ t ∈ w.bank.transfers.rows, t.key ∉ w.bank.refused
  failed : ∀ q ∈ w.db.payouts.rows, q.status = .failed → w.bank.Rejected q.idempotencyKey
  known  : ∀ q ∈ w.db.payouts.rows, ∀ i, q.providerPayoutID = some i →
    ∃ t ∈ w.bank.transfers.rows, t.key = q.idempotencyKey ∧ t.id = i

/-- What every call can rely on. -/
def goes (w w' : PayoutWorld) : Prop := w.db.PayoutsGo w'.db ∧ w.bank.Goes w'.bank

theorem goes_refl (w : PayoutWorld) : w.goes w := ⟨.refl _, .refl _⟩

theorem goes_trans (a b c : PayoutWorld) (h1 : a.goes b) (h2 : b.goes c) : a.goes c :=
  ⟨h1.1.trans h2.1, h1.2.trans h2.2⟩

/-- The payout is final, or the bank has rejected it: it can be marked as failed. -/
def MayFail (w : PayoutWorld) (id : String) : Prop :=
  ∃ q ∈ w.db.payouts.rows, q.id = id ∧ (q.status.isTerminal = true ∨ w.bank.Rejected q.idempotencyKey)

/-- The result is what the bank has said of the transfer of the payout. -/
def Answered (w : PayoutWorld) (id : String) (result : PayoutResult) : Prop :=
  ∃ q ∈ w.db.payouts.rows, q.id = id ∧ ∃ t ∈ w.bank.transfers.rows, t.key = q.idempotencyKey ∧
    t.id = result.providerPayoutID ∧ (result.status = .failed → t.status = .failed)

variable {w w' : PayoutWorld} {id : String}

theorem MayFail.goes (h : w.MayFail id) (hg : w.goes w') : w'.MayFail id := by
  obtain ⟨q, hq, hid, h⟩ := h
  obtain ⟨q', hq', hf⟩ := hg.1 q hq
  refine ⟨q', hq', hf.id.trans hid, ?_⟩
  rcases h with h | h
  · exact .inl (by rw [hf.final h]; exact h)
  · exact .inr (by rw [hf.key]; exact hg.2.rejected h)

theorem Answered.goes {result : PayoutResult} (h : w.Answered id result) (hg : w.goes w') : w'.Answered id result := by
  obtain ⟨q, hq, hid, t, ht, hk, hi, hst⟩ := h
  obtain ⟨q', hq', hf⟩ := hg.1 q hq
  obtain ⟨t', ht', hr, hi', hs⟩ := hg.2.transfers t ht
  refine ⟨q', hq', hf.id.trans hid, t', ht', ?_, hi'.trans hi, fun h => ?_⟩
  · rw [Transfer.key, hr, hf.key]
    exact hk
  · exact (hs (by simp [hst h])).trans (hst h)

theorem Answered.mayFail {result : PayoutResult} (h : w.Answered id result) (hst : result.status = .failed) :
    w.MayFail id := by
  obtain ⟨q, hq, hid, t, ht, hk, -, hf⟩ := h
  exact ⟨q, hq, hid, .inr (.inr ⟨t, ht, hk, hf hst⟩)⟩

end PayoutWorld

/-- What a payout transaction may assume of the world. -/
def LedgerOp.Allowed (w : PayoutWorld) : LedgerOp → Prop
  | createPendingWithLedger _ _ p => p.status = .unset
  | markProcessing _ id pid => ∃ result, w.Answered id result ∧ result.providerPayoutID = pid
  | markFailedWithReversal _ id _ _ => w.MayFail id
  | _ => True

theorem forall_replaced {α : Type} {P : α → Prop} {l₁ l₂ : List α} {a a' : α} (h : ∀ x ∈ l₁ ++ a :: l₂, P x) (ha : P a') :
    ∀ x ∈ l₁ ++ a' :: l₂, P x := by
  intro x hx
  simp only [List.mem_append, List.mem_cons] at hx
  rcases hx with hx | rfl | hx
  · exact h x (by simp [hx])
  · exact ha
  · exact h x (by simp [hx])

namespace PayoutWorld.Kept

variable {w w' : PayoutWorld}

/-- **Every transaction keeps the invariant** where it is allowed. -/
theorem ledger (h : w.Kept) {o : LedgerOp} (ho : o.Allowed w) : ({ w with db := o.apply w.db } : PayoutWorld).Kept := by
  have hsound : (o.apply w.db).Sound := by
    refine LedgerOp.sound h.sound ?_
    cases o with
    | createPendingWithLedger now gen p =>
      rw [LedgerOp.Allowed] at ho
      simp [LedgerOp.createsUnfailed, ho]
    | _ => trivial
  have hlinked : ∀ t ∈ w.bank.transfers.rows, ∃ q ∈ (o.apply w.db).payouts.rows,
      q.idempotencyKey = t.key ∧ q.amountKopecks = t.request.amountKopecks ∧ q.partner = t.partner := by
    intro t ht
    obtain ⟨q, hq, hk, ha, hp⟩ := h.linked t ht
    obtain ⟨q', hq', hf⟩ := o.go w.db q hq
    exact ⟨q', hq', hf.key.trans hk, hf.amount.trans ha, hf.partner.trans hp⟩
  -- what is left is what the rows that are new or changed say
  suffices hrows : ∀ q ∈ (o.apply w.db).payouts.rows, (q.status = .failed → w.bank.Rejected q.idempotencyKey) ∧
      ∀ i, q.providerPayoutID = some i → ∃ t ∈ w.bank.transfers.rows, t.key = q.idempotencyKey ∧ t.id = i from
    ⟨hsound, hlinked, h.taken, fun q hq => (hrows q hq).1, fun q hq => (hrows q hq).2⟩
  have hold : ∀ q ∈ w.db.payouts.rows, (q.status = .failed → w.bank.Rejected q.idempotencyKey) ∧
      ∀ i, q.providerPayoutID = some i → ∃ t ∈ w.bank.transfers.rows, t.key = q.idempotencyKey ∧ t.id = i :=
    fun q hq => ⟨h.failed q hq, h.known q hq⟩
  cases o with
  | appendAccrual now e =>
    rcases LedgerRepo.appendAccrual_cases now e w.db with ⟨_, he, -⟩ | ⟨_, he, -⟩ | ⟨l, he, -⟩ <;>
      rw [LedgerOp.apply, he] <;> exact hold
  | appendReversal now e =>
    rcases LedgerRepo.appendReversal_cases now e w.db with ⟨_, he, -⟩ | ⟨_, he, -⟩ | ⟨l, he, -⟩ <;>
      rw [LedgerOp.apply, he] <;> exact hold
  | createPendingWithLedger now gen p =>
    rw [LedgerOp.Allowed] at ho
    rcases PayoutRepo.createPendingWithLedger_cases now gen p w.db with ⟨_, he⟩ | ⟨id, t, l, he, -, -, ht, -⟩
    · rw [LedgerOp.apply, he]
      exact hold
    · rw [LedgerOp.apply, he]
      intro q hq
      rw [Table.insert_rows ht] at hq
      rcases List.mem_append.1 hq with hq | hq
      · exact hold q hq
      · rw [List.mem_singleton.1 hq]
        exact ⟨fun hst => by simp [PayoutRepo.row, ho] at hst, fun _ hi => by cases hi⟩
  | markProcessing now id pid =>
    rcases PayoutRepo.markProcessing_cases now id pid w.db with ⟨_, he⟩ | ⟨he, -⟩ | ⟨p, l₁, l₂, t, hr, hid, hst, he, hr'⟩
    · rw [LedgerOp.apply, he]
      exact hold
    · rw [LedgerOp.apply, he]
      exact hold
    · rw [LedgerOp.apply, he]
      dsimp only
      rw [hr']
      refine forall_replaced (hr ▸ hold) ⟨(fun hst => by cases hst), fun i hi => ?_⟩
      obtain ⟨result, ⟨q, hq, hqid, x, hx, hk, hxi, -⟩, hpid⟩ := ho
      have hqp : q = p := w.db.payouts.eq_of_clash hq (by simp [hr]) (Payout.clash_of_id (hqid.trans hid.symm))
      subst hqp
      exact ⟨x, hx, hk, by rw [hxi, hpid]; simpa using hi⟩
  | markSucceeded now id at' =>
    rcases PayoutRepo.markSucceeded_cases now id at' w.db with ⟨_, he⟩ | ⟨p, l₁, l₂, t, hr, hid, hst, he, hr'⟩
    · rw [LedgerOp.apply, he]
      exact hold
    · rw [LedgerOp.apply, he]
      dsimp only
      rw [hr']
      exact forall_replaced (hr ▸ hold) ⟨(fun hst => by cases hst), h.known p (by simp [hr])⟩
  | markFailedWithReversal now id reason at' =>
    rcases PayoutRepo.markFailedWithReversal_cases now id reason at' w.db with
      ⟨_, he⟩ | ⟨p, l₁, l₂, t, l, hr, hid, hst, he, hr', -⟩
    · rw [LedgerOp.apply, he]
      exact hold
    · rw [LedgerOp.apply, he]
      dsimp only
      rw [hr']
      refine forall_replaced (hr ▸ hold) ⟨fun _ => ?_, h.known p (by simp [hr])⟩
      obtain ⟨q, hq, hqid, hfail⟩ := ho
      have hqp : q = p := w.db.payouts.eq_of_clash hq (by simp [hr]) (Payout.clash_of_id (hqid.trans hid.symm))
      subst hqp
      rcases hfail with hterm | hrej
      · rw [hst] at hterm
        cases hterm
      · exact hrej

/-- **The bank keeps the invariant** when its transfers are of payouts and stay as they are decided. -/
theorem bank {b : Bank} (h : w.Kept) (hg : w.bank.Goes b)
    (hnew : ∀ t ∈ b.transfers.rows, t.key ∉ b.refused ∧ ∃ q ∈ w.db.payouts.rows,
      q.idempotencyKey = t.key ∧ q.amountKopecks = t.request.amountKopecks ∧ q.partner = t.partner) :
    ({ w with bank := b } : PayoutWorld).Kept where
  sound := h.sound
  linked t ht := (hnew t ht).2
  taken t ht := (hnew t ht).1
  failed q hq hst := hg.rejected (h.failed q hq hst)
  known q hq i hi := by
    obtain ⟨t, ht, hk, hti⟩ := h.known q hq i hi
    obtain ⟨t', ht', hr, hi', -⟩ := hg.transfers t ht
    refine ⟨t', ht', ?_, hi'.trans hti⟩
    rw [Transfer.key, hr]
    exact hk

/-- **The environment keeps the invariant.** -/
theorem moves (h : w.Kept) (hm : PayoutWorld.Moves w w') : w'.Kept ∧ w.goes w' := by
  cases hm with
  | accrue now e => exact ⟨h.ledger trivial, LedgerOp.go _ _, .refl _⟩
  | reverse now e => exact ⟨h.ledger trivial, LedgerOp.go _ _, .refl _⟩
  | settle id st reason =>
    refine ⟨h.bank (w.bank.goes_settle id st reason) ?_, .refl _, w.bank.goes_settle id st reason⟩
    have hold : ∀ t ∈ w.bank.transfers.rows, t.key ∉ w.bank.refused ∧ ∃ q ∈ w.db.payouts.rows,
        q.idempotencyKey = t.key ∧ q.amountKopecks = t.request.amountKopecks ∧ q.partner = t.partner :=
      fun t ht => ⟨h.taken t ht, h.linked t ht⟩
    rcases Bank.settle_cases id st reason w.bank with he | ⟨t, l₁, l₂, ts, hr, -, he, hr'⟩
    · rw [he]
      exact hold
    · rw [he]
      dsimp only
      rw [hr']
      exact forall_replaced (hr ▸ hold) (hold t (by simp [hr]))

/-- What a transaction under a fault leaves. -/
theorem tx {α : Type} {f : PaymentDB → Except Err α × PaymentDB} {fault : Fault String} {r : Except Err α} (h : w.Kept)
    {o : LedgerOp} (ho : o.Allowed w) (hf : (f w.db).2 = o.apply w.db)
    (he : fault.apply Err.plain (onPayouts f) w = (r, w')) : w'.Kept ∧ w.goes w' := by
  obtain ⟨hb, hdb, -⟩ := onPayouts_db he
  have hw' : w' = { w with db := w'.db } := by
    cases w'
    cases hb
    rfl
  rw [hw']
  rcases hdb with hdb | hdb
  · rw [hdb]
    exact ⟨h, w.goes_refl⟩
  · rw [hdb, hf]
    exact ⟨h.ledger ho, o.go _, .refl _⟩

end PayoutWorld.Kept

/-! ## The calls one by one -/

theorem PartnerType.ofString_string {t : PartnerType} (h : t.valid = true) : PartnerType.ofString t.string = t := by
  cases t with
  | venue => rfl
  | master => rfl
  | other s => cases h

theorem Payout.partnerType_valid {p : Payout} {t : Table payoutSchema} (h : p ∈ t.rows) : p.partnerType.valid = true := by
  have := t.checked p h
  simp only [payoutSchema, Bool.and_eq_true] at this
  exact this.1.1.1.1.1.1.1.1.2

/-- The request is for the payout of this id. -/
def PayoutWorld.Asks (w : PayoutWorld) (id : String) (req : PayoutRequest) : Prop :=
  ∃ q ∈ w.db.payouts.rows, q.id = id ∧ q.idempotencyKey = req.idempotencyKey ∧ q.amountKopecks = req.amountKopecks ∧
    q.partner = ⟨PartnerType.ofString req.partnerType, req.partnerID⟩

section Calls

variable {w w' : PayoutWorld}

theorem PayoutWorld.Asks.goes {id : String} {req : PayoutRequest} (h : w.Asks id req) (hg : w.goes w') : w'.Asks id req := by
  obtain ⟨q, hq, hid, hk, ha, hp⟩ := h
  obtain ⟨q', hq', hf⟩ := hg.1 q hq
  exact ⟨q', hq', hf.id.trans hid, hf.key.trans hk, hf.amount.trans ha, hf.partner.trans hp⟩

/-- A payout that is made is there, as it was asked for. -/
theorem exec_create {p : Payout} {r : Except Err Payout} (h : w.Kept) (hst : p.status = .unset)
    (he : PayoutOp.Exec (.createPendingWithLedger p) w r w') :
    w'.Kept ∧ w.goes w' ∧ ∀ q, r = .ok q → q ∈ w'.db.payouts.rows ∧ q.idempotencyKey = p.idempotencyKey ∧
      q.amountKopecks = p.amountKopecks ∧ q.partner = p.partner := by
  obtain ⟨env, he⟩ := he
  obtain ⟨hk, hg⟩ := h.tx (o := .createPendingWithLedger env.now env.uuid p) hst rfl he
  refine ⟨hk, hg, fun q hq => ?_⟩
  have hok := (onPayouts_db he).2.2 q hq
  rcases PayoutRepo.createPendingWithLedger_cases env.now env.uuid p w.db with ⟨e, h'⟩ | ⟨id, t, l, h', -, -, ht, -⟩
  · rw [h'] at hok
    cases hok
  · rw [h'] at hok
    obtain ⟨rfl, hdb⟩ : PayoutRepo.row env.now id p = q ∧ { w.db with payouts := t, ledger := l } = w'.db := by
      simpa using hok
    exact ⟨by rw [← hdb]; simp [Table.insert_rows ht], rfl, rfl, rfl⟩

/-- What the bank answers about a payout. -/
theorem exec_createPayout {id : String} {req : PayoutRequest} {r : Except Err PayoutResult} (h : w.Kept)
    (ha : w.Asks id req) (he : PayoutOp.Exec (.createPayout req) w r w') :
    w'.Kept ∧ w.goes w' ∧ (∀ result, r = .ok result → w'.Answered id result) ∧
      ∀ e, r = .error e → e.transient = false → w'.MayFail id := by
  obtain ⟨q, hq, hid, hkey, hamt, hpart⟩ := ha
  obtain ⟨env, he⟩ := he
  -- the bank itself keeps the invariant, whatever comes of its answer
  have hbank : ({ w with bank := (Bank.createPayout env.choice req w.bank).2 } : PayoutWorld).Kept ∧
      w.bank.Goes (Bank.createPayout env.choice req w.bank).2 := by
    rcases Bank.createPayout_cases env.choice req w.bank with
      ⟨t, ht, hk, hc⟩ | ⟨e, hno, -, ⟨-, hc⟩ | hc⟩ | ⟨t, ts, hreq, hnr, hins, hc⟩ | ⟨e, -, hc⟩
    · rw [hc]
      exact ⟨h, .refl _⟩
    · rw [hc]
      exact ⟨h, .refl _⟩
    · rw [hc]
      have hg : w.bank.Goes { w.bank with refused := req.idempotencyKey :: w.bank.refused } :=
        ⟨fun k hk => by simp [hk], fun t ht => ⟨t, ht, rfl, rfl, fun _ => rfl⟩⟩
      refine ⟨h.bank hg fun t ht => ⟨?_, h.linked t ht⟩, hg⟩
      simp only [List.mem_cons, not_or]
      exact ⟨hno t ht, h.taken t ht⟩
    · rw [hc]
      have hg : w.bank.Goes { w.bank with transfers := ts } :=
        ⟨fun _ hk => hk, fun t ht => ⟨t, by simp [Table.insert_rows hins, ht], rfl, rfl, fun _ => rfl⟩⟩
      refine ⟨h.bank hg fun x hx => ?_, hg⟩
      rw [Table.insert_rows hins] at hx
      rcases List.mem_append.1 hx with hx | hx
      · exact ⟨h.taken x hx, h.linked x hx⟩
      · rw [List.mem_singleton.1 hx, Transfer.key, Transfer.partner, hreq]
        exact ⟨hnr, q, hq, hkey, hamt, hpart⟩
    · rw [hc]
      exact ⟨h, .refl _⟩
  rw [PayoutOp.run] at he
  cases hf : env.fault with
  | before t =>
    rw [hf] at he
    cases he
    exact ⟨h, w.goes_refl, nofun, fun e he hte => by cases he; cases hte⟩
  | after t =>
    rw [hf] at he
    cases he
    exact ⟨hbank.1, ⟨.refl _, hbank.2⟩, nofun, fun e he hte => by cases he; cases hte⟩
  | none =>
    rw [hf] at he
    obtain ⟨rfl, rfl⟩ : (Bank.createPayout env.choice req w.bank).1 = r ∧
        { w with bank := (Bank.createPayout env.choice req w.bank).2 } = w' := by
      simpa [onBank] using he
    refine ⟨hbank.1, ⟨.refl _, hbank.2⟩, ?_⟩
    rcases Bank.createPayout_cases env.choice req w.bank with
      ⟨t, ht, hk, hc⟩ | ⟨e, hno, htr, hc⟩ | ⟨t, ts, hreq, hnr, hins, hc⟩ | ⟨e, htr, hc⟩
    · rw [hc]
      refine ⟨fun result hr => ?_, nofun⟩
      cases hr
      exact ⟨q, hq, hid, t, ht, hk.trans hkey.symm, rfl, fun h => h⟩
    · refine ⟨fun result hr => ?_, fun e' hr _ => ⟨q, hq, hid, .inr (.inl ?_)⟩⟩
      · rcases hc with ⟨-, hc⟩ | hc <;> rw [hc] at hr <;> cases hr
      · rw [hkey]
        rcases hc with ⟨hin, hc⟩ | hc
        · rw [hc]
          exact hin
        · rw [hc]
          simp
    · rw [hc]
      refine ⟨fun result hr => ?_, nofun⟩
      cases hr
      refine ⟨q, hq, hid, t, by simp [Table.insert_rows hins], ?_, rfl, fun h => h⟩
      rw [Transfer.key, hreq, hkey]
    · rw [hc]
      refine ⟨nofun, fun e' hr hte => ?_⟩
      cases hr
      rw [htr] at hte
      cases hte

theorem exec_now {r : Time} (he : PayoutOp.Exec .now w r w') : w' = w := by
  obtain ⟨env, he⟩ := he
  cases he
  rfl

end Calls

/-- A reconciliation that does not find the method of its payout finds the payout already given up, or final. -/
def methodFound (c : PayoutCall) (o : PayoutOp) (w : PayoutWorld) (r : o.Res) : Prop :=
  match c, o, r with
  | .reconcileOne p, .getMethodByID _, .error _ => w.MayFail p.id
  | _, _, _ => True

/-! ## The programs -/

section Safe

variable {c : PayoutCall} {α : Type} {w : PayoutWorld} {did : List (Event PayoutOp PayoutOp.Res)}

/-- What is left of the call does its part in the pool. -/
abbrev PayoutSafe (c : PayoutCall) (did : List (Event PayoutOp PayoutOp.Res)) (prog : PayoutProg α) (w : PayoutWorld) :
    Prop :=
  prog.Safe PayoutOp.Exec (fun o w r => methodFound c o w r) PayoutWorld.Kept PayoutWorld.goes (fun _ _ _ => True) did w

theorem giveUp_safe {id reason : String} {both : Err → Err} {done : Option Err} (h : w.MayFail id) :
    PayoutSafe c did (giveUp id reason both done) w := by
  simp only [giveUp, Prog.bind_eq, Prog.perform_bind]
  intro w1 hg1 hI1 now w2 he _
  obtain rfl := exec_now he
  refine ⟨hI1, w2.goes_refl, ?_⟩
  intro w3 hg3 hI3 r w4 he _
  obtain ⟨env, he⟩ := he
  obtain ⟨hk, hg⟩ := hI3.tx (o := .markFailedWithReversal env.now id reason now) ((h.goes hg1).goes hg3) rfl he
  refine ⟨hk, hg, ?_⟩
  cases r <;> exact fun _ _ _ => trivial

theorem takeResult_safe {ctx id : String} {result : PayoutResult} (h : w.Answered id result) :
    PayoutSafe c did (takeResult ctx id result) w := by
  simp only [takeResult, Prog.bind_eq, Prog.perform_bind]
  intro w1 hg1 hI1 r w2 he _
  obtain ⟨env, he⟩ := he
  have h1 := h.goes hg1
  obtain ⟨hk, hg2⟩ := hI1.tx (o := .markProcessing env.now id result.providerPayoutID) ⟨result, h1, rfl⟩ rfl he
  refine ⟨hk, hg2, ?_⟩
  cases r with
  | error err => exact fun _ _ _ => trivial
  | ok u =>
  dsimp only
  cases hst : result.status with
  | pending => exact fun _ _ _ => trivial
  | succeeded =>
    intro w3 hg3 hI3 now w4 he _
    obtain rfl := exec_now he
    refine ⟨hI3, w4.goes_refl, ?_⟩
    intro w5 hg5 hI5 r w6 he _
    obtain ⟨env, he⟩ := he
    obtain ⟨hk, hg⟩ := hI5.tx (o := .markSucceeded env.now id now) trivial rfl he
    refine ⟨hk, hg, ?_⟩
    cases r <;> exact fun _ _ _ => trivial
  | failed =>
    intro w3 hg3 hI3 now w4 he _
    obtain rfl := exec_now he
    refine ⟨hI3, w4.goes_refl, ?_⟩
    intro w5 hg5 hI5 r w6 he _
    obtain ⟨env, he⟩ := he
    have hfail := (((h1.goes hg2).goes hg3).goes hg5).mayFail hst
    obtain ⟨hk, hg⟩ := hI5.tx (o := .markFailedWithReversal env.now id result.failureReason now) hfail rfl he
    refine ⟨hk, hg, ?_⟩
    cases r <;> exact fun _ _ _ => trivial

theorem reconcileOne_safe {p : Payout} (hp : p ∈ w.db.payouts.rows) :
    PayoutSafe (.reconcileOne p) [] (reconcileOne p) w := by
  simp only [reconcileOne, Prog.bind_eq, Prog.perform_bind]
  intro w1 hg1 hI1 r w2 he hfound
  obtain ⟨env, he⟩ := he
  obtain ⟨rfl, -⟩ := onPayouts_read he
  refine ⟨hI1, w2.goes_refl, ?_⟩
  cases r with
  | error err => exact giveUp_safe hfound
  | ok method =>
  have hasks : w.Asks p.id (payoutRequest p.amountKopecks p.currency p.idempotencyKey method p.partner) :=
    ⟨p, hp, rfl, rfl, rfl, by
      simp [payoutRequest, Payout.partner, PartnerType.ofString_string (Payout.partnerType_valid hp)]⟩
  intro w3 hg3 hI3 r w4 he _
  obtain ⟨hk, hg, hans, hfail⟩ := exec_createPayout hI3 ((hasks.goes hg1).goes hg3) he
  refine ⟨hk, hg, ?_⟩
  cases r with
  | ok result => exact takeResult_safe (hans result rfl)
  | error err =>
    dsimp only
    split
    · exact fun _ _ _ => trivial
    · rename_i htr
      exact giveUp_safe (hfail err rfl (by simpa using htr))

theorem coolingDown_safe (uc : PayoutUseCase) (ref : PartnerRef) (Q : List (Event PayoutOp PayoutOp.Res) → Except Err Bool →
    PayoutWorld → Prop) (hQ : ∀ h r w', w.goes w' → w'.Kept → Q h r w') :
    (uc.coolingDown ref).Safe PayoutOp.Exec (fun o w r => methodFound c o w r) PayoutWorld.Kept PayoutWorld.goes Q did w := by
  unfold PayoutUseCase.coolingDown
  split
  swap
  · exact fun w' hg hI => hQ _ _ w' hg hI
  simp only [Prog.bind_eq, Prog.perform_bind]
  intro w1 hg1 hI1 r w2 he _
  obtain ⟨env, he⟩ := he
  obtain ⟨rfl, -⟩ := onPayouts_read he
  refine ⟨hI1, w2.goes_refl, ?_⟩
  match r with
  | .error err => exact fun w' hg hI => hQ _ _ w' (w.goes_trans _ _ hg1 hg) hI
  | .ok none => exact fun w' hg hI => hQ _ _ w' (w.goes_trans _ _ hg1 hg) hI
  | .ok (some last) =>
    intro w3 hg3 hI3 now w4 he _
    obtain rfl := exec_now he
    exact ⟨hI3, w4.goes_refl, fun w' hg hI => hQ _ _ w' (w.goes_trans _ _ hg1 (w2.goes_trans _ _ hg3 hg)) hI⟩

theorem payoutPartner_safe (uc : PayoutUseCase) (ref : PartnerRef) : PayoutSafe c did (uc.payoutPartner ref) w := by
  simp only [PayoutUseCase.payoutPartner, Prog.bind_eq, Prog.perform_bind]
  intro w1 hg1 hI1 r w2 he _
  obtain ⟨env, he⟩ := he
  obtain ⟨rfl, -⟩ := onPayouts_read he
  refine ⟨hI1, w2.goes_refl, ?_⟩
  cases r with
  | error err => exact fun _ _ _ => trivial
  | ok balance =>
  dsimp only
  split
  · exact fun _ _ _ => trivial
  refine Prog.Safe.bind PayoutWorld.goes_refl hI1 (coolingDown_safe uc ref _ fun h r w3 hg3 hI3 => ?_)
  match r with
  | .error err => exact fun _ _ _ => trivial
  | .ok true => exact fun _ _ _ => trivial
  | .ok false =>
  intro w4 hg4 hI4 r w5 he _
  obtain ⟨env, he⟩ := he
  obtain ⟨rfl, -⟩ := onPayouts_read he
  refine ⟨hI4, w5.goes_refl, ?_⟩
  cases r with
  | error err => dsimp only; split <;> exact fun _ _ _ => trivial
  | ok method =>
  intro w6 hg6 hI6 payoutID w7 he _
  obtain ⟨env, he⟩ := he
  obtain ⟨-, rfl⟩ : env.uuid = payoutID ∧ w6 = w7 := by simpa [PayoutOp.run] using he
  refine ⟨hI6, w6.goes_refl, ?_⟩
  intro w8 hg8 hI8 r w9 he _
  obtain ⟨hk, hg, hmade⟩ := exec_create hI8 rfl he
  refine ⟨hk, hg, ?_⟩
  cases r with
  | error err => dsimp only; split <;> exact fun _ _ _ => trivial
  | ok p =>
  obtain ⟨hp, hkey, hamt, hpart⟩ := hmade p rfl
  have hty : p.partnerType = ref.partnerType := congrArg PartnerRef.partnerType hpart
  have hasks : w9.Asks p.id (payoutRequest balance.availableKopecks "RUB"
      (uc.newPayout ref balance.availableKopecks method payoutID).idempotencyKey method ref) :=
    ⟨p, hp, rfl, hkey, hamt, by
      rw [hpart]
      simp [payoutRequest, Payout.partner, PayoutUseCase.newPayout, ← hty,
        PartnerType.ofString_string (Payout.partnerType_valid hp)]⟩
  intro w10 hg10 hI10 r w11 he _
  obtain ⟨hk, hg, hans, hfail⟩ := exec_createPayout hI10 (hasks.goes hg10) he
  refine ⟨hk, hg, ?_⟩
  cases r with
  | ok result => exact takeResult_safe (hans result rfl)
  | error err =>
    dsimp only
    split
    · exact fun _ _ _ => trivial
    · rename_i htr
      exact giveUp_safe (hfail err rfl (by simpa using htr))

theorem handlePayoutWebhook_safe (uc : PayoutUseCase) (raw : RawBody) :
    PayoutSafe c did (uc.handlePayoutWebhook raw) w := by
  simp only [PayoutUseCase.handlePayoutWebhook, Prog.bind_eq, Prog.perform_bind]
  intro w1 hg1 hI1 r w2 he _
  obtain ⟨env, he⟩ := he
  obtain ⟨hr, rfl⟩ : w1.bank.parsePayoutWebhook (env.parse raw) = r ∧ w1 = w2 := by simpa [PayoutOp.run] using he
  refine ⟨hI1, w1.goes_refl, ?_⟩
  match r, hr with
  | .error err, _ => exact fun _ _ _ => trivial
  | .ok none, _ => exact fun _ _ _ => trivial
  | .ok (some event), hr =>
  obtain ⟨t, ht, hid, hst⟩ := Bank.parsePayoutWebhook_confirmed hr
  intro w3 hg3 hI3 r w4 he _
  obtain ⟨env, he⟩ := he
  obtain ⟨rfl, hget⟩ := onPayouts_read he
  refine ⟨hI3, w4.goes_refl, ?_⟩
  cases r with
  | error err => dsimp only; split <;> exact fun _ _ _ => trivial
  | ok p =>
  -- the payout the event is about is the one of the transfer the bank has confirmed
  have hans : w4.Answered p.id ⟨event.providerPayoutID, event.status, event.failureReason⟩ := by
    have hrow := hget p rfl
    simp only [PayoutRepo.getByProviderPayoutID, PayoutRepo.scanOne] at hrow
    split at hrow
    · rename_i q hq
      cases hrow
      obtain ⟨hp, hpid⟩ := Table.get_mem hq
      obtain ⟨t₁, ht₁, hk₁, hi₁⟩ := hI3.known p hp event.providerPayoutID (by simpa using hpid)
      obtain ⟨t₂, ht₂, -, hi₂, hs₂⟩ := hg3.2.transfers t ht
      have heq : t₂ = t₁ := w4.bank.transfers.eq_of_clash ht₂ ht₁ (Bank.clash_of_id (by rw [hi₂, hid, hi₁]))
      refine ⟨p, hp, rfl, t₁, ht₁, hk₁, hi₁, fun hf => ?_⟩
      have hfs : event.status = .failed := hf
      rw [← heq, hs₂ (by simp [hst, hfs]), hst, hfs]
    · cases hrow
  dsimp only
  split
  · exact fun _ _ _ => trivial
  cases hev : event.status with
  | pending => exact fun _ _ _ => trivial
  | succeeded =>
    intro w5 hg5 hI5 now w6 he _
    obtain rfl := exec_now he
    refine ⟨hI5, w6.goes_refl, ?_⟩
    intro w7 hg7 hI7 r w8 he _
    obtain ⟨env, he⟩ := he
    obtain ⟨hk, hg⟩ := hI7.tx (o := .markSucceeded env.now p.id now) trivial rfl he
    refine ⟨hk, hg, ?_⟩
    cases r <;> exact fun _ _ _ => trivial
  | failed =>
    intro w5 hg5 hI5 now w6 he _
    obtain rfl := exec_now he
    refine ⟨hI5, w6.goes_refl, ?_⟩
    intro w7 hg7 hI7 r w8 he _
    obtain ⟨env, he⟩ := he
    have hfail := ((hans.goes hg5).goes hg7).mayFail hev
    obtain ⟨hk, hg⟩ := hI7.tx (o := .markFailedWithReversal env.now p.id event.failureReason now) hfail rfl he
    refine ⟨hk, hg, ?_⟩
    cases r <;> exact fun _ _ _ => trivial

theorem PayoutCall.prog_safe (uc : PayoutUseCase) {c : PayoutCall} (hc : c.ready w) (hw : w.Kept) :
    PayoutSafe c [] (c.prog uc) w := by
  cases c with
  | payoutPartner ref => exact payoutPartner_safe uc ref
  | reconcileOne p => exact reconcileOne_safe hc.1
  | handlePayoutWebhook raw =>
    refine Prog.Safe.bind PayoutWorld.goes_refl hw ?_
    exact Prog.Safe.mono (fun _ _ _ _ _ => fun _ _ _ => trivial) (handlePayoutWebhook_safe uc raw)

end Safe

/-! ## Money -/

theorem readAvailableBalance_le_total (now : Time) (ref : PartnerRef) (db : PaymentDB) :
    readAvailableBalance now ref db ≤ db.totalOf ref := by
  unfold readAvailableBalance PaymentDB.totalOf Table.sum Table.select
  have hpos : ∀ e ∈ db.ledger.rows, e.available now = false → 0 < e.amountKopecks := by
    intro e he hav
    have hty : e.entryType = .accrual := by
      by_contra hne
      simp [LedgerEntry.available, hne] at hav
    have hc := db.ledger.checked e he
    simp only [ledgerSchema, LedgerEntry.signOk, hty, Bool.and_eq_true, decide_eq_true_eq] at hc
    exact hc.1.2
  generalize db.ledger.rows = rows at hpos
  induction rows with
  | nil => simp
  | cons e rows ih =>
    have ih := ih (fun x hx => hpos x (by simp [hx]))
    have he := hpos e (by simp)
    cases hof : e.isOf ref <;> cases hav : e.available now <;> simp [hof, hav] <;> grind

/-- A payout is made only of what its partner has earned. -/
theorem PaymentDB.Sound.covered {db db' : PaymentDB} (h : db.Sound) {now : Time} {gen : String} {p q : Payout}
    (hst : p.status ≠ .failed) (he : PayoutRepo.createPendingWithLedger now gen p db = (.ok q, db')) :
    db'.paidOut p.partner ≤ db'.sumOf p.partner .accrual + db'.sumOf p.partner .reversal := by
  have hsound : db'.Sound := by
    have := LedgerOp.sound h (o := .createPendingWithLedger now gen p) hst
    rwa [LedgerOp.apply, he] at this
  have hc := hsound.conserved p.partner
  rcases PayoutRepo.createPendingWithLedger_cases now gen p db with ⟨e, h'⟩ | ⟨id, t, l, h', -, hav, -, hl⟩
  · rw [h'] at he
    cases he
  · have htot : db'.totalOf p.partner = db.totalOf p.partner - p.amountKopecks := by
      obtain rfl : { db with payouts := t, ledger := l } = db' := by
        rw [h'] at he
        cases he
        rfl
      unfold PaymentDB.totalOf
      rw [Table.sum_insert hl]
      simp [LedgerEntry.isOf, LedgerEntry.partner, LedgerEntry.row, PayoutRepo.debit, PayoutRepo.row, Payout.partner]
      omega
    have hle := readAvailableBalance_le_total now p.partner db
    omega

namespace PayoutWorld

/-- What the claim of a payout service is: a payout the bank has accepted fails only with its transfer, the bank transfers
no more than the payouts that have not failed, and these are covered when they are made. -/
structure PaidOnce (w : PayoutWorld) : Prop where
  justified : ∀ p ∈ w.db.payouts.rows, p.status = .failed → ∀ t ∈ w.bank.transfers.rows,
    t.key = p.idempotencyKey → t.status = .failed
  backed    : ∀ ref, w.bank.transferred ref ≤ w.db.paidOut ref
  covered   : ∀ now gen p q db', p.status ≠ .failed →
    PayoutRepo.createPendingWithLedger now gen p w.db = (.ok q, db') →
    db'.paidOut p.partner ≤ db'.sumOf p.partner .accrual + db'.sumOf p.partner .reversal

variable {w : PayoutWorld}

theorem Kept.justified (h : w.Kept) {p : Payout} (hp : p ∈ w.db.payouts.rows) (hst : p.status = .failed) {t : Transfer}
    (ht : t ∈ w.bank.transfers.rows) (hk : t.key = p.idempotencyKey) : t.status = .failed := by
  rcases h.failed p hp hst with hr | ⟨t', ht', hk', hf⟩
  · rw [← hk] at hr
    exact absurd hr (h.taken t ht)
  · rw [w.bank.transfers.eq_of_clash ht ht' (Bank.clash_of_key (hk.trans hk'.symm))]
    exact hf

theorem Kept.backed (h : w.Kept) (ref : PartnerRef) : w.bank.transferred ref ≤ w.db.paidOut ref := by
  refine Table.sum_le_of_key Transfer.key (·.idempotencyKey) (fun _ _ => Bank.clash_of_key) (fun t ht hp => ?_)
    (fun p hp => Int.le_of_lt (Payout.amount_pos hp))
  simp only [Bool.and_eq_true, beq_iff_eq, bne_iff_ne] at hp
  obtain ⟨q, hq, hk, ha, hpart⟩ := h.linked t ht
  refine ⟨q, hq, ?_, hk, Int.le_of_eq ha.symm⟩
  have hne : q.status ≠ .failed := fun hst => hp.2 (h.justified hq hst ht hk.symm)
  simp [hpart, hp.1, hne]

theorem Kept.paidOnce (h : w.Kept) : w.PaidOnce where
  justified _ hp hst _ ht hk := h.justified hp hst ht hk
  backed := h.backed
  covered _ _ _ _ _ hst he := h.sound.covered hst he

/-- Nothing has been paid out yet, and the bank has not been asked for anything. -/
structure Opening (w : PayoutWorld) : Prop where
  db        : w.db.Opening
  transfers : w.bank.transfers.rows = []

theorem Opening.kept (h : w.Opening) : w.Kept where
  sound := h.db.sound
  linked t ht := by simp [h.transfers] at ht
  taken t ht := by simp [h.transfers] at ht
  failed q hq := by simp [h.db.payouts] at hq
  known q hq := by simp [h.db.payouts] at hq

end PayoutWorld

/-- **No payout is made twice in a run in which every reconciliation finds the method of its payout**, or its payout given
up before. -/
theorem paidOnce_of_methodFound (uc : PayoutUseCase) {w₀ : PayoutWorld} (hw : w₀.Opening)
    {c : Config PayoutWorld PayoutCall PayoutOp PayoutOp.Res (Option Err)}
    (h : (payoutSys uc).Reach (fun c t o r => methodFound t.call o c.world r) w₀ c) : c.world.PaidOnce := by
  obtain ⟨hkept, -⟩ := h.safe (fun c o w r => methodFound c o w r) (fun _ _ _ _ h => h) PayoutWorld.goes_refl
    PayoutWorld.goes_trans (Q := fun _ _ _ _ => True) hw.kept
    (fun _ _ _ hI hc => PayoutCall.prog_safe uc hc hI) (fun _ _ hI hm => hI.moves hm)
  exact hkept.paidOnce

/-! ### A reconciliation that cannot read the method -/

def sampleRef : PartnerRef := ⟨.venue, "00000000-0000-0000-0000-000000000003"⟩

def samplePayoutUseCase : PayoutUseCase := ⟨"mock", 10000, false⟩

/-- A bank that takes a payout on, and a fault of what is asked of it and of the database. -/
def sampleEnv (fault : Fault String) : PayoutEnv where
  now := 0
  uuid := "00000000-0000-0000-0000-000000000005"
  choice := .accept "bank-1" .pending ""
  parse := fun _ => .ok none
  fault := fault

def samplePayoutWorld : PayoutWorld := ⟨samplePayouts, ⟨.empty _, []⟩⟩

theorem samplePayoutWorld_opening : samplePayoutWorld.Opening := ⟨samplePayouts_opening, rfl⟩

theorem newPayout_sample : samplePayoutUseCase.newPayout sampleRef 85000 sampleMethod (sampleEnv .none).uuid =
    samplePayout .unset := rfl

/-- A bank that knows nothing accepts. -/
theorem Bank.createPayout_first (req : PayoutRequest) (id : String) (status : ProviderStatus) (reason : String) :
    ∃ ts : Table transferSchema, ts.rows = [⟨req, id, status, reason⟩] ∧
      Bank.createPayout (.accept id status reason) req ⟨.empty _, []⟩ = (.ok ⟨id, status, reason⟩, ⟨ts, []⟩) := by
  obtain ⟨ts, hts⟩ := (Table.empty transferSchema).insert_ok (r := ⟨req, id, status, reason⟩) rfl (by simp [Table.empty])
  have hget : (Table.empty transferSchema).get (fun t => t.key == req.idempotencyKey) = none := rfl
  exact ⟨ts, Table.insert_rows hts, by simp [createPayout, hget, hts]⟩

/-- What the bank is asked for in the sample. -/
def sampleRequest : PayoutRequest :=
  payoutRequest 85000 "RUB" (samplePayout .unset).idempotencyKey sampleMethod sampleRef

/-- The sample payout is made, and the bank asked; its answer, or the loss of it, comes next. -/
theorem payoutPartner_asks {l : Table ledgerSchema} (w : PayoutWorld) (hdb : w.db = { samplePayouts with ledger := l })
    (hav : readAvailableBalance 0 sampleRef w.db = 85000) {t : Table payoutSchema} {l' : Table ledgerSchema}
    (hcreate : ∀ gen, PayoutRepo.createPendingWithLedger 0 gen (samplePayout .unset) w.db =
      (.ok (PayoutRepo.row 0 (samplePayout .unset).id (samplePayout .unset)),
        { samplePayouts with payouts := t, ledger := l' })) {r : Except Err PayoutResult} {w' : PayoutWorld}
    (he : PayoutOp.Exec (.createPayout sampleRequest) { w with db := { samplePayouts with payouts := t, ledger := l' } } r w')
    {P : PayoutProg (Option Err) → PayoutWorld → Prop}
    (hok : ∀ result, r = .ok result → P (takeResult "" (samplePayout .unset).id result) w')
    (hlost : ∀ err, r = .error err → err.transient = true ∧ P (.ret none) w') :
    (samplePayoutUseCase.payoutPartner sampleRef).Reaches PayoutOp.Exec P w := by
  have huuid : isUUID sampleRef.partnerID = true := by decide
  obtain ⟨bal, hbal, hamt⟩ : ∃ bal, LedgerRepo.balance 0 sampleRef w.db = .ok bal ∧ bal.availableKopecks = 85000 := by
    rw [LedgerRepo.balance, uuidParam_ok huuid]
    exact ⟨_, rfl, hav⟩
  have hmethod : PayoutMethodRepo.getActive sampleRef w.db = .ok sampleMethod := by
    rw [PayoutMethodRepo.getActive, uuidParam_ok huuid, hdb]
    rfl
  have h1 : PayoutOp.run (sampleEnv .none) (.balance sampleRef) w = (.ok bal, w) := by rw [← hbal]; rfl
  have h2 : PayoutOp.run (sampleEnv .none) (.getActiveMethod sampleRef) w = (.ok sampleMethod, w) := by
    rw [← hmethod]; rfl
  have h3 : PayoutOp.run (sampleEnv .none) (.createPendingWithLedger (samplePayout .unset)) w =
      (.ok (PayoutRepo.row 0 (samplePayout .unset).id (samplePayout .unset)),
        { w with db := { samplePayouts with payouts := t, ledger := l' } }) := by
    have := hcreate (sampleEnv .none).uuid
    rw [PayoutOp.run, sampleEnv, Fault.apply_none, onPayouts]
    rw [sampleEnv] at this
    rw [this]
  simp only [PayoutUseCase.payoutPartner, Prog.bind_eq, Prog.perform_bind]
  refine .call ⟨sampleEnv .none, h1⟩ ?_
  dsimp only
  rw [hamt, if_neg (by decide)]
  refine .call ⟨sampleEnv .none, h2⟩ ?_
  dsimp only
  refine .call (r := (sampleEnv .none).uuid) ⟨sampleEnv .none, rfl⟩ ?_
  rw [newPayout_sample]
  refine .call ⟨sampleEnv .none, h3⟩ ?_
  dsimp only
  refine .call he ?_
  cases r with
  | ok result => exact .here (hok result rfl)
  | error err =>
    obtain ⟨htr, hP⟩ := hlost err rfl
    dsimp only
    rw [if_pos htr]
    exact .here hP

/-- The bank takes the sample payout on, and its answer is lost. -/
theorem payoutPartner_unanswered {l : Table ledgerSchema} (w : PayoutWorld)
    (hdb : w.db = { samplePayouts with ledger := l }) (hbank : w.bank = ⟨.empty _, []⟩)
    (hav : readAvailableBalance 0 sampleRef w.db = 85000) {t : Table payoutSchema} {l' : Table ledgerSchema}
    (hcreate : ∀ gen, PayoutRepo.createPendingWithLedger 0 gen (samplePayout .unset) w.db =
      (.ok (PayoutRepo.row 0 (samplePayout .unset).id (samplePayout .unset)),
        { samplePayouts with payouts := t, ledger := l' })) :
    (samplePayoutUseCase.payoutPartner sampleRef).Reaches PayoutOp.Exec (fun rest w' =>
      rest = .ret none ∧ w'.db = { samplePayouts with payouts := t, ledger := l' } ∧
      ∃ x ∈ w'.bank.transfers.rows, x.key = (samplePayout .unset).idempotencyKey ∧ x.status = .pending) w := by
  obtain ⟨ts, hrows, hts⟩ := Bank.createPayout_first sampleRequest "bank-1" .pending ""
  have h4 : PayoutOp.run (sampleEnv (.after "timeout")) (.createPayout sampleRequest)
      { w with db := { samplePayouts with payouts := t, ledger := l' } } =
      (.error (transientErr "timeout"), ⟨{ samplePayouts with payouts := t, ledger := l' }, ⟨ts, []⟩⟩) := by
    rw [PayoutOp.run, sampleEnv, Fault.apply_after, onBank]
    dsimp only
    rw [hbank, hts]
  refine payoutPartner_asks w hdb hav hcreate ⟨sampleEnv (.after "timeout"), h4⟩ nofun fun err herr => ?_
  cases herr
  exact ⟨rfl, rfl, rfl, by simp [hrows, Transfer.key, sampleRequest, payoutRequest]⟩

/-- The row of the sample payout before the bank's answer is known. -/
def sampleRow : Payout := PayoutRepo.row 0 (samplePayout .unset).id (samplePayout .unset)

/-- A reconciliation that cannot read the method gives the payout up. -/
theorem reconcileOne_gives_up {w : PayoutWorld} {p : Payout} (hp : p ∈ w.db.payouts.rows)
    (ht : p.status.isTerminal = false) :
    (reconcileOne p).Reaches PayoutOp.Exec (fun _ w' =>
      (∃ q ∈ w'.db.payouts.rows, q.idempotencyKey = p.idempotencyKey ∧ q.status = .failed) ∧ w'.bank = w.bank) w := by
  obtain ⟨db', hfail, q, hq, -, hkey, hst⟩ := PayoutRepo.markFailedWithReversal_ok hp ht 0
    ("reconcile: payout method missing: " ++ (Err.plain "timeout").text) 0
  have h1 : PayoutOp.run (sampleEnv (.before "timeout")) (.getMethodByID p.methodID) w = (.error (.plain "timeout"), w) := rfl
  have h3 : PayoutOp.run (sampleEnv .none) (.markFailedWithReversal p.id
      ("reconcile: payout method missing: " ++ (Err.plain "timeout").text) 0) w = (.ok true, { w with db := db' }) := by
    rw [PayoutOp.run, sampleEnv, Fault.apply_none, onPayouts, hfail]
  simp only [reconcileOne, giveUp, Prog.bind_eq, Prog.perform_bind]
  refine .call ⟨sampleEnv (.before "timeout"), h1⟩ ?_
  dsimp only
  refine .call (r := (sampleEnv .none).now) ⟨sampleEnv .none, rfl⟩ ?_
  exact .call ⟨sampleEnv .none, h3⟩ (.here ⟨⟨q, hq, hkey, hst⟩, rfl⟩)

/-- The partner is credited, its payout is made and accepted, and the answer is lost: every such run finds its methods. -/
theorem accepted_unanswered : ∃ w d, (payoutSys samplePayoutUseCase).Reach
      (fun c t o r => methodFound t.call o c.world r) samplePayoutWorld ⟨w, [⟨.payoutPartner sampleRef, d, .ret none⟩]⟩ ∧
    sampleRow ∈ w.db.payouts.rows ∧
    ∃ x ∈ w.bank.transfers.rows, x.key = sampleRow.idempotencyKey ∧ x.status = .pending := by
  obtain ⟨t, l, l', hacc, hav, hcreate, hrows⟩ := samplePayouts_paid .unset (.inl rfl)
  have hr1 : (payoutSys samplePayoutUseCase).Reach (fun c t o r => methodFound t.call o c.world r) samplePayoutWorld
      ⟨{ samplePayoutWorld with db := { samplePayouts with ledger := l } }, []⟩ := by
    have hmove := PayoutWorld.Moves.accrue samplePayoutWorld 0 sampleAccrual
    rw [LedgerOp.apply, samplePayoutWorld, hacc] at hmove
    exact .step .init (.env _ _ _ hmove)
  have hr2 := hr1.step (.start _ _ (PayoutCall.payoutPartner sampleRef) trivial)
  obtain ⟨d, _, w, ⟨rfl, hdb, hx⟩, hr3⟩ := hr2.reaches (fun _ _ _ _ he => ⟨he, fun _ t ht => by rw [ht]; trivial⟩) [] []
    (payoutPartner_unanswered { samplePayoutWorld with db := { samplePayouts with ledger := l } } rfl rfl hav hcreate)
  refine ⟨w, d, hr3, ?_, hx⟩
  rw [hdb]
  exact hrows ▸ List.mem_singleton.2 rfl

theorem paidOnce_of_methodFound_sample : ∃ w : PayoutWorld, w.PaidOnce ∧ sampleRow ∈ w.db.payouts.rows ∧
    ∃ x ∈ w.bank.transfers.rows, x.key = sampleRow.idempotencyKey ∧ x.status = .pending := by
  obtain ⟨w, d, hr, hrow, hx⟩ := accepted_unanswered
  exact ⟨w, paidOnce_of_methodFound samplePayoutUseCase samplePayoutWorld_opening hr, hrow, hx⟩

/-- **A payout the bank has accepted can be given up**: its answer is lost, and the reconciliation cannot read the method. -/
theorem accepted_given_up : ∃ c, (payoutSys samplePayoutUseCase).Reach anyStep samplePayoutWorld c ∧ ¬ c.world.PaidOnce := by
  obtain ⟨w, d, hr, hrow, x, hx, hkey, hst⟩ := accepted_unanswered
  have hr1 : (payoutSys samplePayoutUseCase).Reach anyStep samplePayoutWorld
      ⟨w, [⟨.payoutPartner sampleRef, d, .ret none⟩]⟩ := hr.mono fun _ _ _ _ _ => trivial
  have hr2 := hr1.step (.start w _ (PayoutCall.reconcileOne sampleRow) ⟨hrow, rfl⟩)
  obtain ⟨d', q, w', ⟨⟨p, hp, hpk, hpst⟩, hbank⟩, hr3⟩ := hr2.reaches (fun _ _ _ _ he => ⟨he, fun _ _ _ => trivial⟩) _ []
    (reconcileOne_gives_up hrow rfl)
  refine ⟨_, hr3, fun honce => ?_⟩
  have := honce.justified p hp hpst x (hbank ▸ hx) (hkey.trans hpk.symm)
  rw [hst] at this
  cases this

theorem payouts_not_always_once : ¬ ∀ (uc : PayoutUseCase) (w₀ : PayoutWorld) c, w₀.Opening →
    (payoutSys uc).Reach anyStep w₀ c → c.world.PaidOnce := by
  intro h
  obtain ⟨c, hr, hbad⟩ := accepted_given_up
  exact hbad (h _ _ c samplePayoutWorld_opening hr)

end Agregator
