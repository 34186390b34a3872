import Agregator.PayCredit
/-!
# PayAgree — a refund in the middle of a webhook

A webhook commits the status of the payment and credits the partner in two transactions; a refund that comes between the
two finds a succeeded payment with nothing to take back.  Calls about one payment run as a pool here, and the results
are about every interleaving of their operations, with any operation failing.
-/
namespace Agregator

open Rel Conc

inductive PayCall where
  | handleWebhook (rawBody : RawBody)
  | refundByBooking (bookingID : String)

/-- The call, with the error it returns. -/
def PayCall.prog (uc : PaymentUseCase) : PayCall → PayProg (Option Err)
  | .handleWebhook rawBody => do
    let r ← uc.handleWebhook rawBody
    return r.2
  | .refundByBooking bookingID => Agregator.refundByBooking bookingID

def PayCall.about (p : Payment) : PayCall → Prop
  | .handleWebhook _ => True
  | .refundByBooking b => b = p.bookingID

/-- What the parser accepts is the notification that the payment has succeeded. -/
def PayEnv.reportsSuccess (p : Payment) (env : PayEnv) : Prop :=
  ∀ raw ev, env.parse raw = .ok ev →
    ev.providerPaymentID = p.providerID ∧ ev.requiresCapture = false ∧ ev.status = .succeeded

/-- Webhooks of the payment's success and refunds of its booking, all at once. -/
def paySys (uc : PaymentUseCase) (p : Payment) : Sys PayWorld PayCall PayOp PayOp.Res (Option Err) where
  prog := PayCall.prog uc
  ready c _ := c.about p
  exec := PayOp.Exec (PayEnv.reportsSuccess p)
  env _ _ := False

/-- Nothing has happened to the payment yet. -/
structure PayWorld.Untouched (w : PayWorld) (p : Payment) : Prop where
  shows    : w.db.Shows p .fresh
  unpaid   : p.providerID ∉ w.refunded

/-- A refund looks the accrual up only when it is there, or is never to be. -/
def lookedUpInTime (p : Payment) (o : PayOp) (w : PayWorld) : Prop :=
  match o with
  | .findAccrualByPayment _ => p.creditable = true → ∃ a ∈ w.db.ledger.rows, LedgerRepo.isAccrualOf p.id a = true
  | _ => True

/-! ## The invariant -/

/-- Only a creditable payment is credited, and only a credit is taken back. -/
def PayWorld.Kept (p : Payment) (w : PayWorld) : Prop :=
  ∃ v, w.db.Shows p v ∧ (v.reversed = true → v.credited = true) ∧ (v.credited = true → p.creditable = true)

/-- The ledger only grows. -/
def PayWorld.grows (w w' : PayWorld) : Prop := ∀ e ∈ w.db.ledger.rows, e ∈ w'.db.ledger.rows

theorem PayWorld.grows_refl (w : PayWorld) : w.grows w := fun _ h => h

theorem PayWorld.grows_trans (a b c : PayWorld) (h1 : a.grows b) (h2 : b.grows c) : a.grows c :=
  fun e he => h2 e (h1 e he)

namespace PayWorld.Kept

variable {p q : Payment} {w w' : PayWorld} {A : PayEnv → Prop}

theorem of_db (h : w.Kept p) (hdb : w'.db = w.db) : w'.Kept p ∧ w.grows w' := by
  unfold PayWorld.Kept PayWorld.grows
  rw [hdb]
  exact ⟨h, fun _ he => he⟩

/-- What a transaction leaves is what was there, or what it makes of it. -/
theorem of_tx {α : Type} {f : PaymentDB → Except Err α × PaymentDB} (h : w.Kept p)
    (hf : ({ w with db := (f w.db).2 } : PayWorld).Kept p ∧ w.grows { w with db := (f w.db).2 }) {r : Except Err α}
    (he : (r = (f w.db).1 ∧ w' = { w with db := (f w.db).2 }) ∨
      ∃ t, r = .error (.plain t) ∧ (w' = w ∨ w' = { w with db := (f w.db).2 })) : w'.Kept p ∧ w.grows w' := by
  rcases he with ⟨-, rfl⟩ | ⟨-, -, rfl | rfl⟩
  · exact hf
  · exact ⟨h, PayWorld.grows_refl _⟩
  · exact hf

theorem update {id pid : String} {st : PaymentStatus} {ev : OutboxEvent} {r : Except Err Bool} (h : w.Kept p)
    (hid : id = p.id) (hpid : pid = p.providerID) (hev : ev.paymentID = p.id)
    (he : PayOp.Exec A (.updateStatusWithOutbox id st pid ev) w r w') : w'.Kept p ∧ w.grows w' := by
  subst hid hpid
  obtain ⟨now, he⟩ := PayOp.Exec.updateStatusWithOutbox he
  refine h.of_tx ?_ he
  obtain ⟨v, hv, hrev, hcr⟩ := h
  cases ht : v.status.isTerminal with
  | true =>
    rw [hv.update_terminal ht]
    exact ⟨⟨v, hv, hrev, hcr⟩, w.grows_refl⟩
  | false =>
    obtain ⟨db', hok, hshow, hl, -⟩ := hv.update_pending ht now st ev hev
    rw [hok]
    exact ⟨⟨_, hshow, hrev, hcr⟩, fun e he => by rw [hl]; exact he⟩

theorem accrue {r : Except Err Unit} (h : w.Kept p) (hs : p.sameAs q) (hnet : 0 < p.counterpartyNetKopecks)
    (uc : PaymentUseCase) (base : Time) (he : PayOp.Exec A (.appendAccrual (uc.accrualEntry q base)) w r w') :
    w'.Kept p ∧ w.grows w' := by
  obtain ⟨now, he⟩ := PayOp.Exec.appendAccrual he
  refine h.of_tx ?_ he
  obtain ⟨v, hv, hrev, hcr⟩ := h
  cases hp : p.creditable with
  | false =>
    rw [hv.appendAccrual_check hs hp hnet]
    exact ⟨⟨v, hv, hrev, hcr⟩, w.grows_refl⟩
  | true =>
    cases hc : v.credited with
    | true =>
      rw [hv.appendAccrual_again hs hp hc]
      exact ⟨⟨v, hv, hrev, hcr⟩, w.grows_refl⟩
    | false =>
      have hr : v.reversed = false := by
        by_contra hr
        rw [hrev (by simpa using hr)] at hc
        cases hc
      obtain ⟨t, hok, hshow, hi⟩ := hv.appendAccrual_new hs hp hc hr uc now base
      rw [hok]
      exact ⟨⟨_, hshow, fun _ => rfl, fun _ => hp⟩, fun e he => by rw [Table.insert_rows hi]; simp [he]⟩

/-- A reversal that is written, or refused as already there, is in the ledger. -/
theorem reverse {r : Except Err Unit} {a : LedgerEntry} (h : w.Kept p) (hs : p.sameAs q) (ha : a ∈ w.db.ledger.rows)
    (hacc : LedgerRepo.isAccrualOf p.id a = true)
    (he : PayOp.Exec A (.appendReversal (reversalEntry q a)) w r w') :
    (w'.Kept p ∧ w.grows w') ∧ ((∀ err, r = .error err → err.code = .alreadyExists) →
      ∃ x ∈ w'.db.ledger.rows, x.paymentID = p.id ∧ x.entryType = .reversal) := by
  have hqid : q.id = p.id := by rw [hs]
  obtain ⟨now, he⟩ := PayOp.Exec.appendReversal he
  have hkept := h
  obtain ⟨v, hv, hrev, hcr⟩ := h
  have hc := (hv.accrual ha hacc).1
  rcases appendReversal_written (hv.has hs) ha (hqid ▸ hacc) now with ⟨t, hw, ht⟩ | ⟨hw, x, hx, hxp, hty⟩
  · have hrow := Table.insert_rows ht
    have hr : v.reversed = false := by
      by_contra hr
      obtain ⟨x, hx, hxp, hty, -⟩ := hv.mem_entries (t := .reversal) (a := -p.counterpartyNetKopecks)
        (by simp [PayView.entries, Bool.not_eq_false _ ▸ hr])
      have hcl := (Table.of_insert_ok ht).2 x hx
      rw [LedgerEntry.clash_of_reversal hty rfl (hxp.trans hqid.symm)] at hcl
      cases hcl
    obtain ⟨t', hw', hshow⟩ := hv.appendReversal_new hs ha hacc hr now
    rw [hw] at hw'
    obtain rfl : t = t' := by simpa using hw'
    rw [hw] at he
    refine ⟨hkept.of_tx (f := LedgerRepo.appendReversal now (reversalEntry q a)) ?_ (by rw [hw]; exact he), fun hans => ?_⟩
    · rw [hw]
      exact ⟨⟨_, hshow, fun _ => hc, hcr⟩, fun e he => by rw [hrow]; simp [he]⟩
    · rcases he with ⟨-, rfl⟩ | ⟨m, rfl, -⟩
      · exact ⟨(reversalEntry q a).row now w.db, by rw [hrow]; simp, hqid, rfl⟩
      · cases hans _ rfl
  · rw [hw] at he
    have hw' : w' = w := by
      rcases he with ⟨-, h1⟩ | ⟨-, -, h1 | h1⟩ <;> exact h1
    subst hw'
    exact ⟨⟨hkept, w'.grows_refl⟩, fun _ => ⟨x, hx, hxp.trans hqid, hty⟩⟩

end PayWorld.Kept

/-! ## Each call alone -/

/-- The provider was asked for a refund. -/
def PayOp.isRefund : PayOp → Bool
  | .refund _ _ _ => true
  | _ => false

/-- A call that asked the provider for a refund and returned nil has seen to it that the credit is taken back. -/
def Reversed (p : Payment) (did : List (Event PayOp PayOp.Res)) (res : Option Err) (w : PayWorld) : Prop :=
  (∃ e ∈ did, e.1.isRefund = true) → res = none → p.creditable = true →
    ∃ x ∈ w.db.ledger.rows, x.paymentID = p.id ∧ x.entryType = .reversal

theorem Reversed.of_noRefund {p : Payment} {did : List (Event PayOp PayOp.Res)} {res : Option Err} {w : PayWorld}
    (h : did.all (fun e => !e.1.isRefund) = true) : Reversed p did res w := by
  rintro ⟨e, he, hr⟩
  have := List.all_eq_true.1 h e he
  simp [hr] at this

theorem Reversed.of_error {p : Payment} {did : List (Event PayOp PayOp.Res)} {err : Err} {w : PayWorld} :
    Reversed p did (some err) w := fun _ h => by cases h

section Safe

variable (uc : PaymentUseCase) {p q : Payment}

/-- A program of a call about the payment does its part in the pool. -/
abbrev PaySafe (p : Payment) {α : Type} (Q : List (Event PayOp PayOp.Res) → α → PayWorld → Prop)
    (did : List (Event PayOp PayOp.Res)) (prog : PayProg α) (w : PayWorld) : Prop :=
  prog.Safe (PayOp.Exec (PayEnv.reportsSuccess p)) (fun o w _ => lookedUpInTime p o w) (PayWorld.Kept p) PayWorld.grows
    Q did w

/-- The entry is appended at whatever time the hold starts from. -/
theorem appendAccrual_safe (hs : p.sameAs q) (hnet : ¬ q.counterpartyNetKopecks ≤ 0) (base : Time)
    {did : List (Event PayOp PayOp.Res)} (hdid : did.all (fun e => !e.1.isRefund) = true) (w : PayWorld) :
    PaySafe p (fun h (_ : Option Err) _ => h.all (fun e => !e.1.isRefund) = true) did
      (do
        match ← PayOp.call (.appendAccrual (uc.accrualEntry q base)) with
        | .error err => if err.code = .alreadyExists then return none else return (some err)
        | .ok () => return none) w := by
  have hnetq : q.counterpartyNetKopecks = p.counterpartyNetKopecks := by rw [hs]
  simp only [Prog.bind_eq, Prog.perform_bind]
  intro w1 hR hI r w2 he _
  obtain ⟨hk, hg⟩ := hI.accrue hs (by omega) uc base he
  refine ⟨hk, hg, ?_⟩
  cases r with
  | error err => dsimp only; split <;> exact fun _ _ _ => by simpa [PayOp.isRefund] using hdid
  | ok u => exact fun _ _ _ => by simpa [PayOp.isRefund] using hdid

theorem writeAccrual_safe (hs : p.sameAs q) {did : List (Event PayOp PayOp.Res)} (w : PayWorld)
    (hdid : did.all (fun e => !e.1.isRefund) = true) :
    PaySafe p (fun h (_ : Option Err) _ => h.all (fun e => !e.1.isRefund) = true) did (uc.writeAccrual q) w := by
  unfold PaymentUseCase.writeAccrual
  split
  · exact fun _ _ _ => hdid
  split
  · exact fun _ _ _ => hdid
  rename_i hnet
  unfold Payment.baseAt
  cases q.serviceAt with
  | some t => exact appendAccrual_safe uc hs hnet t hdid w
  | none =>
    intro w1 hR hI now w2 he _
    obtain ⟨env, -, he⟩ := he
    cases he
    exact ⟨hI, w1.grows_refl, appendAccrual_safe uc hs hnet _ (by simpa [PayOp.isRefund] using hdid) _⟩

theorem handleWebhook_safe (raw : RawBody) (w : PayWorld) :
    PaySafe p (fun h (_ : Option WebhookEvent × Option Err) _ => h.all (fun e => !e.1.isRefund) = true) []
      (uc.handleWebhook raw) w := by
  simp only [PaymentUseCase.handleWebhook, Prog.bind_eq, Prog.perform_bind]
  intro w1 hR hI r w2 he _
  obtain ⟨env, henv, he⟩ := he
  obtain ⟨rfl, rfl⟩ : env.parse raw = r ∧ w1 = w2 := by simpa [PayOp.run] using he
  refine ⟨hI, w1.grows_refl, ?_⟩
  cases hparse : env.parse raw with
  | error err => exact fun _ _ _ => rfl
  | ok ev =>
  obtain ⟨hpid, hcap, hst⟩ := henv raw ev hparse
  dsimp only
  rw [if_neg (by simp [hcap]), if_neg (by simp [hst, PaymentStatus.isTerminal]), hpid]
  intro w3 hR3 hI3 r w4 he _
  obtain ⟨rfl, hr⟩ := PayOp.Exec.getByProviderID he
  refine ⟨hI3, w4.grows_refl, ?_⟩
  obtain ⟨v, hv, -⟩ := id hI3
  obtain ⟨q, hget, -, hs, -⟩ := hv.getByProviderID
  rcases hr with rfl | ⟨t, rfl⟩
  swap
  · exact fun _ _ _ => rfl
  rw [hget]
  dsimp only
  split
  · exact fun _ _ _ => rfl
  have hqid : q.id = p.id := by rw [hs]
  intro w5 hR5 hI5 r w6 he _
  obtain ⟨hk, hg⟩ := hI5.update hqid rfl hqid he
  refine ⟨hk, hg, ?_⟩
  cases r with
  | error err => exact fun _ _ _ => rfl
  | ok updated =>
  dsimp only
  split
  · exact fun _ _ _ => rfl
  refine Prog.Safe.bind PayWorld.grows_refl hk ?_
  refine Prog.Safe.mono (fun h res w hI hh => ?_) (writeAccrual_safe uc hs w6 rfl)
  cases res with
  | none => exact fun _ _ _ => hh
  | some err => exact fun _ _ _ => hh

theorem writeReversal_safe (hs : p.sameAs q) (did : List (Event PayOp PayOp.Res)) (w : PayWorld) :
    PaySafe p (Reversed p) did (writeReversal q) w := by
  have hqid : q.id = p.id := by rw [hs]
  simp only [writeReversal, Prog.bind_eq, Prog.perform_bind]
  intro w1 hR hI r w2 he hin
  obtain ⟨rfl, hr⟩ := PayOp.Exec.findAccrualByPayment he
  refine ⟨hI, w2.grows_refl, ?_⟩
  obtain ⟨v, hv, -⟩ := id hI
  rcases hr with rfl | ⟨t, rfl⟩
  swap
  · exact fun _ _ _ => .of_error
  rw [hqid]
  obtain ⟨hc, a, ha, hmem, hacc, -⟩ | ⟨hc, hnone⟩ := hv.findAccrual
  · rw [ha]
    dsimp only
    intro w3 hR3 hI3 r w4 he _
    obtain ⟨⟨hk, hg⟩, hrev⟩ := hI3.reverse hs (hR3 a hmem) hacc he
    refine ⟨hk, hg, ?_⟩
    cases r with
    | ok u =>
      intro w5 hR5 _ _ _ _
      obtain ⟨x, hx, hxp, hty⟩ := hrev fun _ h => by cases h
      exact ⟨x, hR5 x hx, hxp, hty⟩
    | error err =>
      dsimp only
      split
      · rename_i hcode
        intro w5 hR5 _ _ _ _
        obtain ⟨x, hx, hxp, hty⟩ := hrev (fun _ h => by cases h; exact hcode)
        exact ⟨x, hR5 x hx, hxp, hty⟩
      · exact fun _ _ _ => .of_error
  · -- nothing is found only where nothing is owed
    rw [hnone]
    intro w3 _ _ _ _ hcr
    obtain ⟨a, ha, hacc⟩ := hin hcr
    have := (hv.accrual ha hacc).1
    rw [hc] at this
    cases this

theorem refundByBooking_safe (w : PayWorld) : PaySafe p (Reversed p) [] (refundByBooking p.bookingID) w := by
  simp only [refundByBooking, Prog.bind_eq, Prog.perform_bind]
  intro w1 hR hI r w2 he _
  obtain ⟨rfl, hr⟩ := PayOp.Exec.getByBookingID he
  refine ⟨hI, w2.grows_refl, ?_⟩
  obtain ⟨v, hv, -⟩ := id hI
  obtain ⟨q, hget, -, hs, -⟩ := hv.getByBookingID
  rcases hr with rfl | ⟨t, rfl⟩
  swap
  · exact fun _ _ _ => .of_error
  rw [hget]
  dsimp only
  split
  · exact fun _ _ _ => .of_noRefund rfl
  intro w3 hR3 hI3 r w4 he _
  obtain ⟨hdb, -⟩ := PayOp.Exec.refund he
  obtain ⟨hk, hg⟩ := hI3.of_db hdb
  refine ⟨hk, hg, ?_⟩
  cases r with
  | error err => exact fun _ _ _ => .of_error
  | ok u =>
  have hqid : q.id = p.id := by rw [hs]
  have hqpid : q.providerID = p.providerID := by rw [hs]
  intro w5 hR5 hI5 r w6 he _
  obtain ⟨hk, hg⟩ := hI5.update hqid hqpid hqid he
  refine ⟨hk, hg, ?_⟩
  cases r with
  | error err => exact fun _ _ _ => .of_error
  | ok b =>
  refine Prog.Safe.bind PayWorld.grows_refl hk ?_
  have hs' : p.sameAs { q with status := .refunded } := by rw [Payment.sameAs, hs]
  refine Prog.Safe.mono (fun h res w hI hh => ?_) (writeReversal_safe hs' _ w6)
  cases res with
  | none =>
    intro w' hg' _ h1 h2 h3
    obtain ⟨x, hx, hxp, hty⟩ := hh h1 h2 h3
    exact ⟨x, hg' x hx, hxp, hty⟩
  | some err => exact fun _ _ _ => .of_error

theorem PayCall.prog_safe {c : PayCall} (hc : c.about p) (w : PayWorld) (hw : w.Kept p) :
    PaySafe p (Reversed p) [] (c.prog uc) w := by
  cases c with
  | handleWebhook raw =>
    refine Prog.Safe.bind PayWorld.grows_refl hw ?_
    exact Prog.Safe.mono (fun h res w _ hh _ _ _ => .of_noRefund hh) (handleWebhook_safe uc raw w)
  | refundByBooking b =>
    rw [PayCall.about] at hc
    subst hc
    exact refundByBooking_safe w

end Safe

/-! ## All calls together -/

/-- Only a refund adds to what the provider has paid back. -/
theorem PayOp.Exec.refunded {A : PayEnv → Prop} {o : PayOp} {w w' : PayWorld} {r : o.Res} (h : PayOp.Exec A o w r w')
    (ho : o.isRefund = false) : w'.refunded = w.refunded := by
  have htx : ∀ {α : Type} {f : PaymentDB → Except Err α × PaymentDB} {fault : Fault String} {r : Except Err α},
      fault.apply Err.plain (onPayments f) w = (r, w') → w'.refunded = w.refunded := by
    intro α f fault r he
    rcases tx_cases he with ⟨-, rfl⟩ | ⟨-, -, rfl | rfl⟩ <;> rfl
  obtain ⟨env, -, he⟩ := h
  cases o with
  | now => cases he; rfl
  | parseWebhook raw => cases he; rfl
  | capture i k => cases he; rfl
  | refund i a k => cases ho
  | _ => exact htx he

/-- When all calls have returned nil and the provider has refunded the payment, its ledger entries sum to 0. -/
def RefundAgrees (p : Payment) (c : Config PayWorld PayCall PayOp PayOp.Res (Option Err)) : Prop :=
  (∀ t ∈ c.threads, t.rest = .ret none) → p.providerID ∈ c.world.refunded →
    c.world.db.ledger.sum (LedgerEntry.ofPayment p.id) (·.amountKopecks) = 0

/-- **A refund and the credit agree in every run in which no refund looks for the accrual before it is there.** -/
theorem refundAgrees (uc : PaymentUseCase) {p : Payment} {w₀ : PayWorld} (hw : w₀.Untouched p)
    {c : Config PayWorld PayCall PayOp PayOp.Res (Option Err)}
    (h : (paySys uc p).Reach (fun c _ o _ => lookedUpInTime p o c.world) w₀ c) : RefundAgrees p c := by
  intro hnil hpaid
  have h0 : w₀.Kept p := ⟨.fresh, hw.shows, nofun, nofun⟩
  obtain ⟨hkept, -, hsafe⟩ := h.safe (fun _ o w _ => lookedUpInTime p o w) (fun _ _ _ _ h => h)
    PayWorld.grows_refl PayWorld.grows_trans (Q := fun _ => Reversed p) h0
    (fun c w _ hI hc => PayCall.prog_safe uc hc w hI) (fun _ _ _ (h : False) => h.elim)
  -- the call that had the provider pay back has taken the credit back
  obtain ⟨t, ht, e, he, hrefund⟩ := h.author (F := fun w => p.providerID ∈ w.refunded)
    (E := fun e => e.1.isRefund = true) hw.unpaid
    (fun o w r w' he hF => by
      cases ho : o.isRefund with
      | true => exact .inr rfl
      | false => exact .inl (PayOp.Exec.refunded he ho ▸ hF)) (fun _ _ (h : False) => h.elim) hpaid
  have hdone := hsafe t ht
  rw [hnil t ht] at hdone
  have hrev := hdone c.world (PayWorld.grows_refl _) hkept ⟨e, he, hrefund⟩ rfl
  obtain ⟨v, hv, hrc, hcr⟩ := hkept
  rw [hv.sum]
  cases hp : p.creditable with
  | false =>
    have hc : v.credited = false := by
      by_contra hc
      rw [hcr (by simpa using hc)] at hp
      cases hp
    have hr : v.reversed = false := by
      by_contra hr
      rw [hrc (by simpa using hr)] at hc
      cases hc
    simp [PayView.balance, PayView.entries, hc, hr]
  | true =>
    obtain ⟨x, hx, hxp, hty⟩ := hrev hp
    have hm := hv.entry_mem hx hxp
    have hr : v.reversed = true := by
      by_contra hr
      simp [PayView.entries, hr, hty] at hm
    simp [PayView.balance, PayView.entries, hr, hrc hr]

/-! ### Runs of both kinds -/

/-- One operation of a run in which no refund looks too early. -/
def PayOp.ExecInTime (p : Payment) (o : PayOp) (w : PayWorld) (r : o.Res) (w' : PayWorld) : Prop :=
  PayOp.Exec (PayEnv.reportsSuccess p) o w r w' ∧ lookedUpInTime p o w

theorem PayOp.ExecInTime.pool {uc : PaymentUseCase} {p : Payment} {c : PayCall} (o : PayOp) (w : PayWorld) (r : o.Res)
    (w' : PayWorld) (h : PayOp.ExecInTime p o w r w') : (paySys uc p).exec o w r w' ∧
      ∀ ts t, t.call = c → (fun c _ o _ => lookedUpInTime p o c.world : Sys.Cond _ PayCall _ _ (Option Err)) ⟨w, ts⟩ t o r :=
  ⟨h.1, fun _ _ _ => h.2⟩

section Slip

variable {uc : PaymentUseCase} {p : Payment} {w : PayWorld} {env : PayEnv}

/-- A webhook can stop where the payment has succeeded and the partner is about to be credited. -/
theorem handleWebhook_pauses (h : w.db.Shows p .fresh) (hsh : p.hasShare = true) (hm : uc.mismatch p = false)
    (henv : env.reportsSuccess p) (hf : env.faults = {}) {raw : RawBody} {ev : WebhookEvent}
    (hparse : env.parse raw = .ok ev) {t : Time} (hat : p.serviceAt = some t) :
    ((PayCall.handleWebhook raw).prog uc).Reaches (PayOp.ExecInTime p) (fun rest w' =>
      ∃ q k, rest = .call (.appendAccrual (uc.accrualEntry q t)) k ∧ p.sameAs q ∧ k (.ok ()) = .ret none ∧
        w'.db.Shows p ⟨.succeeded, false, false⟩) w := by
  obtain ⟨hpid, hcap, hst⟩ := henv raw ev hparse
  obtain ⟨q, hget, -, hs, -⟩ := h.getByProviderID
  have hqid : q.id = p.id := by rw [hs]
  have hprov : q.providerName = p.providerName := by rw [hs]
  have hqat : q.serviceAt = some t := by rw [hs, hat]
  obtain ⟨hpart, hnet⟩ := Payment.hasShare_iff.1 (hs.hasShare.trans hsh)
  have hnet' : ¬ q.counterpartyNetKopecks ≤ 0 := by omega
  obtain ⟨db', hok, hshow, -⟩ := h.update_pending rfl env.now .succeeded
    (buildOutboxEvent q (statusToSubject .succeeded)) hqid
  have h1 : PayOp.run env (.parseWebhook raw) w = (.ok ev, w) := by rw [← hparse]; rfl
  have h2 : PayOp.run env (.getByProviderID ev.providerPaymentID) w = (.ok q, w) := by
    rw [PayOp.run, hf, Fault.apply_none, onPayments, hpid, hget]
  have h3 : PayOp.run env (.updateStatusWithOutbox q.id .succeeded p.providerID
      (buildOutboxEvent q (statusToSubject .succeeded))) w = (.ok true, { w with db := db' }) := by
    rw [PayOp.run, hf, Fault.apply_none, onPayments, hqid, hok]
  simp only [PayCall.prog, PaymentUseCase.handleWebhook, Prog.bind_eq, Prog.perform_bind, Prog.bind_call]
  refine .call ⟨⟨env, henv, h1⟩, trivial⟩ ?_
  dsimp only
  rw [if_neg (by simp [hcap]), if_neg (by simp [hst, PaymentStatus.isTerminal])]
  refine .call ⟨⟨env, henv, h2⟩, trivial⟩ ?_
  dsimp only
  rw [hprov, if_neg (by simpa [PaymentUseCase.mismatch] using hm), hst, hpid]
  refine .call ⟨⟨env, henv, h3⟩, trivial⟩ ?_
  dsimp only
  rw [if_neg (by simp), if_pos rfl, PaymentUseCase.writeAccrual, if_neg hpart, if_neg hnet', Payment.baseAt, hqat]
  exact .here ⟨q, _, rfl, hs, rfl, hshow⟩

/-- A refund of a payment that has succeeded pays it back and turns to the ledger. -/
theorem refundByBooking_pays {v : PayView} (h : w.db.Shows p v) (hv : v.status = .succeeded) (henv : env.reportsSuccess p)
    (hf : env.faults = {}) (hrf : env.refund = .none) :
    (refundByBooking p.bookingID).Reaches (PayOp.ExecInTime p) (fun rest w' =>
      ∃ q, p.sameAs q ∧ rest = (writeReversal q).bind (fun r => match r with
          | some err => .ret (some (err.wrap "write reversal"))
          | none => .ret none) ∧
        p.providerID ∈ w'.refunded ∧ w'.db = w.db) w := by
  obtain ⟨q, hget, -, hs, hst⟩ := h.getByBookingID
  have hqid : q.id = p.id := by rw [hs]
  have hqpid : q.providerID = p.providerID := by rw [hs]
  have h1 : PayOp.run env (.getByBookingID p.bookingID) w = (.ok q, w) := by
    rw [PayOp.run, hf, Fault.apply_none, onPayments, hget]
  have h2 : ∀ key, PayOp.run env (.refund q.providerID q.amount key) w =
      (.ok (), { w with refunded := w.refunded ++ [p.providerID] }) := by
    intro key
    rw [PayOp.run, hrf, Fault.apply_none, hqpid]
  have h3 : ∀ ev, PayOp.run env (.updateStatusWithOutbox q.id .refunded q.providerID ev)
      { w with refunded := w.refunded ++ [p.providerID] } =
      (.ok false, { w with refunded := w.refunded ++ [p.providerID] }) := by
    intro ev
    rw [PayOp.run, hf, Fault.apply_none, onPayments, hqid, h.update_terminal (by rw [hv]; rfl)]
  simp only [refundByBooking, Prog.bind_eq, Prog.perform_bind]
  refine .call ⟨⟨env, henv, h1⟩, trivial⟩ ?_
  dsimp only
  rw [if_neg (by simp [hst, hv])]
  refine .call ⟨⟨env, henv, h2 _⟩, trivial⟩ (.call ⟨⟨env, henv, h3 _⟩, trivial⟩ (.here ?_))
  exact ⟨{ q with status := .refunded }, by rw [Payment.sameAs, hs], rfl, by simp, rfl⟩

/-- **For every creditable payment there is an interleaving in which the refund slips in** between the status and the
credit: all calls return nil, the provider has paid back, and the partner keeps the credit. -/
theorem refund_slips_in (uc : PaymentUseCase) (hw : w.Untouched p) (hcr : p.creditable = true) (hm : uc.mismatch p = false)
    (henv : env.reportsSuccess p) (hf : env.faults = {}) (hrf : env.refund = .none) (raw : RawBody) {ev : WebhookEvent}
    (hparse : env.parse raw = .ok ev) {t : Time} (hat : p.serviceAt = some t) :
    ∃ c, (paySys uc p).Reach anyStep w c ∧ ¬ RefundAgrees p c := by
  have hany : ∀ c o w r w', PayOp.ExecInTime p o w r w' → (paySys uc p).exec o w r w' ∧
      ∀ (ts : List (Thread PayCall PayOp PayOp.Res (Option Err))) t, t.call = c → anyStep ⟨w, ts⟩ t o r :=
    fun _ _ _ _ _ h => ⟨h.1, fun _ _ _ => trivial⟩
  have hstart : (paySys uc p).Reach anyStep w
      ⟨w, [] ++ ⟨.handleWebhook raw, [], (PayCall.handleWebhook raw).prog uc⟩ :: []⟩ :=
    .step .init (.start w [] (PayCall.handleWebhook raw) trivial)
  obtain ⟨d1, _, w1, ⟨q, k, rfl, hs, hk, hshow⟩, hr⟩ := hstart.reaches (hany _) [] []
    (handleWebhook_pauses hw.shows (Payment.hasShare_of_creditable hcr) hm henv hf hparse hat)
  -- the refund runs to its end while the webhook waits
  have hr2 := hr.step (.start _ _ (PayCall.refundByBooking p.bookingID) (rfl : p.bookingID = p.bookingID))
  obtain ⟨d2, _, w2, ⟨q2, hs2, rfl, hpaid, hdb⟩, hr3⟩ := hr2.reaches (hany _) _ []
    (refundByBooking_pays hshow rfl henv hf hrf)
  rw [← hdb] at hshow
  have hfind : PayOp.run env (.findAccrualByPayment q2.id) w2 =
      (.error (.status .notFound "accrual not found for payment"), w2) := by
    have hqid : q2.id = p.id := by rw [hs2]
    obtain ⟨hc, -⟩ | ⟨-, hnone⟩ := hshow.findAccrual
    · cases hc
    · rw [PayOp.run, hf, Fault.apply_none, onPayments, hqid, hnone]
  have hr4 := hr3.step (.perform _ _ _ [] _ _ _ _ _ ⟨env, henv, hfind⟩ trivial)
  obtain ⟨tbl, hok, hshow', -⟩ := hshow.appendAccrual_new hs hcr rfl rfl uc env.now t
  have happ : PayOp.run env (.appendAccrual (uc.accrualEntry q t)) w2 =
      (.ok (), { w2 with db := { w2.db with ledger := tbl } }) := by
    rw [PayOp.run, hf, Fault.apply_none, onPayments, hok]
  have hr5 := hr4.step (.perform _ _ [] _ _ _ _ k _ ⟨env, henv, happ⟩ trivial)
  refine ⟨_, hr5, fun hagree => ?_⟩
  have hnet := (Payment.hasShare_iff.1 (Payment.hasShare_of_creditable hcr)).2
  have hsum := hagree (by simp [hk]) hpaid
  rw [hshow'.sum] at hsum
  simp [PayView.balance, PayView.entries] at hsum
  omega

/-- A refund after the credit takes it back, in time. -/
theorem refund_after_credit (uc : PaymentUseCase) (hw : w.Untouched p) (hcr : p.creditable = true) (hm : uc.mismatch p = false)
    (henv : env.reportsSuccess p) (hf : env.faults = {}) (hrf : env.refund = .none) (raw : RawBody) {ev : WebhookEvent}
    (hparse : env.parse raw = .ok ev) {t : Time} (hat : p.serviceAt = some t) :
    ∃ c, (paySys uc p).Reach (fun c _ o _ => lookedUpInTime p o c.world) w c ∧
      (∀ t ∈ c.threads, t.rest = .ret none) ∧ p.providerID ∈ c.world.refunded := by
  have hstart : (paySys uc p).Reach (fun c _ o _ => lookedUpInTime p o c.world) w
      ⟨w, [] ++ ⟨.handleWebhook raw, [], (PayCall.handleWebhook raw).prog uc⟩ :: []⟩ :=
    .step .init (.start w [] (PayCall.handleWebhook raw) trivial)
  obtain ⟨d1, _, w1, ⟨q, k, rfl, hs, hk, hshow⟩, hr⟩ := hstart.reaches PayOp.ExecInTime.pool [] []
    (handleWebhook_pauses hw.shows (Payment.hasShare_of_creditable hcr) hm henv hf hparse hat)
  obtain ⟨tbl, hok, hshow, -⟩ := hshow.appendAccrual_new hs hcr rfl rfl uc env.now t
  have happ : PayOp.run env (.appendAccrual (uc.accrualEntry q t)) w1 =
      (.ok (), { w1 with db := { w1.db with ledger := tbl } }) := by
    rw [PayOp.run, hf, Fault.apply_none, onPayments, hok]
  have hr2 := hr.step (.perform _ _ [] _ _ _ _ k _ ⟨env, henv, happ⟩ trivial)
  have hr3 := hr2.step (.start _ _ (PayCall.refundByBooking p.bookingID) (rfl : p.bookingID = p.bookingID))
  obtain ⟨d2, _, w2, ⟨q2, hs2, rfl, hpaid, hdb⟩, hr4⟩ := hr3.reaches PayOp.ExecInTime.pool _ []
    (refundByBooking_pays hshow rfl henv hf hrf)
  have hqid : q2.id = p.id := by rw [hs2]
  have hshow2 : w2.db.Shows p ⟨.succeeded, true, false⟩ := hdb ▸ hshow
  obtain ⟨-, a, ha, hmem, hacc, -⟩ | ⟨hc, -⟩ := hshow2.findAccrual
  swap
  · cases hc
  have hfind : PayOp.run env (.findAccrualByPayment q2.id) w2 = (.ok a, w2) := by
    rw [PayOp.run, hf, Fault.apply_none, onPayments, hqid, ha]
  have hr5 := hr4.step (.perform _ _ _ [] _ _ _ _ _ ⟨env, henv, hfind⟩ (fun _ => ⟨a, hmem, hacc⟩))
  obtain ⟨tbl2, hok2, -⟩ := hshow2.appendReversal_new hs2 hmem hacc rfl env.now
  have hrev : PayOp.run env (.appendReversal (reversalEntry q2 a)) w2 =
      (.ok (), { w2 with db := { w2.db with ledger := tbl2 } }) := by
    rw [PayOp.run, hf, Fault.apply_none, onPayments, hok2]
  have hr6 := hr5.step (.perform _ _ _ [] _ _ _ _ _ ⟨env, henv, hrev⟩ trivial)
  exact ⟨_, hr6, by simp [hk], hpaid⟩

end Slip

/-- The notification that the sample order is paid, with nothing failing. -/
def samplePaid : PayEnv := calm 0 fun _ => .ok (Alfa.webhookEvent "order-1" Alfa.rbsDeposited)

theorem samplePaid_reports : samplePaid.reportsSuccess (samplePayment .pending) := by
  intro raw ev h
  obtain rfl : Alfa.webhookEvent "order-1" Alfa.rbsDeposited = ev := by simpa [samplePaid, calm] using h
  exact ⟨rfl, rfl, rfl⟩

theorem sampleWorld_untouched : (sampleWorld .pending).Untouched (samplePayment .pending) :=
  ⟨sampleWorld_shows, by simp [sampleWorld]⟩

theorem refundAgrees_sample : ∃ c : Config PayWorld PayCall PayOp PayOp.Res (Option Err),
    (∀ t ∈ c.threads, t.rest = .ret none) ∧ (samplePayment .pending).providerID ∈ c.world.refunded ∧
      RefundAgrees (samplePayment .pending) c := by
  obtain ⟨c, hr, hnil, hpaid⟩ := refund_after_credit ⟨"alfa", 86400⟩ sampleWorld_untouched (by decide) (by decide)
    samplePaid_reports rfl rfl [] rfl rfl
  exact ⟨c, hnil, hpaid, refundAgrees ⟨"alfa", 86400⟩ sampleWorld_untouched hr⟩

theorem refund_not_always_agrees : ¬ ∀ (uc : PaymentUseCase) (p : Payment) (w₀ : PayWorld) c, w₀.Untouched p →
    (paySys uc p).Reach anyStep w₀ c → RefundAgrees p c := by
  intro h
  obtain ⟨c, hr, hbad⟩ := refund_slips_in ⟨"alfa", 86400⟩ sampleWorld_untouched (by decide) (by decide)
    samplePaid_reports rfl rfl [] rfl rfl
  exact hbad (h _ _ _ c sampleWorld_untouched hr)

end Agregator
