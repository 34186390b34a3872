import Agregator.PayRefund
/-!
# PayDeliver — deliveries one after another

A webhook delivery and a refund, each run alone, as steps on the view of one payment.  The environment of a delivery
says which of its transactions fail; the step says what is left of the payment and whether the delivery is acknowledged.
-/
namespace Agregator

open Rel Conc

/-- A payment is credited only once it has succeeded, and taken back only what it was credited. -/
structure PayView.Ok (v : PayView) : Prop where
  pending : v.status.isTerminal = false → v.credited = false
  reversed : v.credited = false → v.reversed = false

/-- The view of a payment nothing has happened to. -/
def PayView.fresh : PayView := ⟨.pending, false, false⟩

theorem PayView.fresh_ok : PayView.fresh.Ok := ⟨fun _ => rfl, fun _ => rfl⟩

/-! ## A webhook -/

/-- A webhook with a terminal status, and whether it is acknowledged. -/
def PayView.webhook (p : Payment) (s : PaymentStatus) (f : PayFaults) (v : PayView) : Bool × PayView :=
  if f.getByProviderID.answers = false then (false, v)
  else if v.status.isTerminal then (f.updateStatusWithOutbox.answers, v)
  else if f.updateStatusWithOutbox.lands = false then (false, v)
  else if f.updateStatusWithOutbox.answers = false then (false, { v with status := s })
  else if s ≠ .succeeded ∨ p.hasShare = false then (true, { v with status := s })
  else (f.appendAccrual.answers && p.creditable,
    { v with status := s, credited := f.appendAccrual.lands && p.creditable })

/-- What `writeAccrual` makes of the answer of the ledger: an accrual that is there already is no error. -/
def absorbed : Except Err Unit → Option Err
  | .error err => if err.code = .alreadyExists then none else some err
  | .ok () => none

theorem Payment.hasShare_iff {p : Payment} :
    p.hasShare = true ↔ ¬ (p.counterpartyID = "" ∨ p.counterpartyType = "") ∧ 0 < p.counterpartyNetKopecks := by
  simp [Payment.hasShare]

theorem Payment.baseAt_eval (q : Payment) (env : PayEnv) (w : PayWorld) :
    q.baseAt.eval (PayOp.run env) w = (q.serviceAt.getD env.now, w) := by
  unfold Payment.baseAt
  cases q.serviceAt <;> rfl

/-- A payment with a share has its accrual appended, available once the hold after the service is over. -/
theorem writeAccrual_eval (uc : PaymentUseCase) {env : PayEnv} {w w' : PayWorld} {q : Payment} {r : Except Err Unit}
    (hsh : q.hasShare = true)
    (hr : PayOp.run env (.appendAccrual (uc.accrualEntry q (q.serviceAt.getD env.now))) w = (r, w')) :
    (uc.writeAccrual q).eval (PayOp.run env) w = (absorbed r, w') := by
  obtain ⟨hpart, hnet⟩ := Payment.hasShare_iff.1 hsh
  have hnet' : ¬ q.counterpartyNetKopecks ≤ 0 := by omega
  rw [PaymentUseCase.writeAccrual, if_neg hpart, if_neg hnet', Prog.bind_eq, Prog.eval_bind, q.baseAt_eval,
    Prog.bind_eq, Prog.perform_bind, Prog.eval_step hr]
  cases r with
  | error err => simp only [absorbed]; split <;> rfl
  | ok u => rfl

theorem writeAccrual_noShare (uc : PaymentUseCase) {q : Payment} (hsh : q.hasShare = false) :
    uc.writeAccrual q = .ret none := by
  unfold PaymentUseCase.writeAccrual
  split
  · rfl
  · rename_i hpart
    have hnet : q.counterpartyNetKopecks ≤ 0 := by
      by_contra hnet
      rw [Payment.hasShare_iff.2 ⟨hpart, by omega⟩] at hsh
      cases hsh
    rw [if_pos hnet]
    rfl

theorem Payment.sameAs.hasShare {p q : Payment} (h : p.sameAs q) : q.hasShare = p.hasShare := by
  rw [h]
  rfl

/-- **Crediting a payment that is not credited.** -/
theorem writeAccrual_shows (uc : PaymentUseCase) (env : PayEnv) (w : PayWorld) {p q : Payment} {v : PayView}
    (h : w.db.Shows p v) (hs : p.sameAs q) (hc : v.credited = false) (hr : v.reversed = false)
    (hsh : p.hasShare = true) :
    ∃ res w', (uc.writeAccrual q).eval (PayOp.run env) w = (res, w') ∧
      w'.db.Shows p { v with credited := env.faults.appendAccrual.lands && p.creditable } ∧
      (res = none ↔ (env.faults.appendAccrual.answers && p.creditable) = true) ∧ w'.refunded = w.refunded := by
  have hnet := (Payment.hasShare_iff.1 hsh).2
  have hsame : { v with credited := false } = v := by rw [← hc]
  have hshq := hs.hasShare.trans hsh
  have hrun := PayOp.run_appendAccrual env (uc.accrualEntry q (q.serviceAt.getD env.now)) w
  cases hcr : p.creditable with
  | true =>
    obtain ⟨t, happ, hshow, -⟩ := h.appendAccrual_new hs hcr hc hr uc env.now (q.serviceAt.getD env.now)
    rw [happ] at hrun
    obtain ⟨hl, ha, he⟩ | ⟨hl, ha, m, he⟩ | ⟨hl, ha, m, he⟩ := hrun
    all_goals refine ⟨_, _, writeAccrual_eval uc hshq he, ?_, by simp [ha, absorbed], rfl⟩
    · simpa [hl] using hshow
    · simpa [hl] using hshow
    · simpa [hl, hsame] using h
  | false =>
    rw [h.appendAccrual_check hs hcr hnet uc env.now (q.serviceAt.getD env.now)] at hrun
    obtain ⟨-, -, he⟩ | ⟨-, -, m, he⟩ | ⟨-, -, m, he⟩ := hrun
    all_goals exact ⟨_, _, writeAccrual_eval uc hshq he, by simpa [hsame] using h, by simp [absorbed], rfl⟩

/-- The payment was made with another provider than the one in use. -/
def PaymentUseCase.mismatch (uc : PaymentUseCase) (p : Payment) : Bool :=
  uc.activeProvider != "" && p.providerName != uc.activeProvider

/-- **One webhook delivery is one step of the view.** -/
theorem handleWebhook_shows (uc : PaymentUseCase) (env : PayEnv) (raw : RawBody) (w : PayWorld) {p : Payment}
    {v : PayView} {ev : WebhookEvent} (h : w.db.Shows p v) (hv : v.Ok) (hparse : env.parse raw = .ok ev)
    (hpid : ev.providerPaymentID = p.providerID) (hcap : ev.requiresCapture = false)
    (hterm : ev.status.isTerminal = true) (hm : uc.mismatch p = false) :
    ∃ res w', (uc.handleWebhook raw).eval (PayOp.run env) w = (res, w') ∧
      w'.db.Shows p (v.webhook p ev.status env.faults).2 ∧
      (res.2 = none ↔ (v.webhook p ev.status env.faults).1 = true) ∧ w'.refunded = w.refunded := by
  obtain ⟨q, hget, hq, hs, hst⟩ := h.getByProviderID
  have hprov : q.providerName = p.providerName := by rw [hs]
  have hqid : q.id = p.id := by rw [hs]
  have hparsed : PayOp.run env (.parseWebhook raw) w = (.ok ev, w) := by rw [← hparse]; rfl
  rw [PaymentUseCase.handleWebhook, Prog.bind_eq, Prog.perform_bind, Prog.eval_step hparsed]
  dsimp only
  rw [if_neg (by simp [hcap]), if_neg (by simp [hterm]), Prog.bind_eq, Prog.perform_bind]
  have hread := PayOp.run_getByProviderID env p.providerID w
  rw [hget] at hread
  rw [hpid]
  obtain ⟨ha, he⟩ | ⟨ha, m, he⟩ := hread
  swap
  · rw [Prog.eval_step he]
    exact ⟨_, _, rfl, by simpa [PayView.webhook, ha] using h, by simp [PayView.webhook, ha], rfl⟩
  rw [Prog.eval_step he]
  dsimp only
  rw [hprov, if_neg (by simpa [PaymentUseCase.mismatch] using hm), hqid, Prog.bind_eq, Prog.perform_bind]
  have hupd := PayOp.run_updateStatusWithOutbox env p.id ev.status p.providerID
    (buildOutboxEvent q (statusToSubject ev.status)) w
  cases ht : v.status.isTerminal with
  | true =>
    -- the payment is final: the delivery changes nothing
    rw [h.update_terminal ht] at hupd
    obtain ⟨-, hu, he⟩ | ⟨-, hu, m, he⟩ | ⟨-, hu, m, he⟩ := hupd
    all_goals
      rw [Prog.eval_step he]
      exact ⟨_, _, rfl, by simpa [PayView.webhook, ha, ht] using h, by simp [PayView.webhook, ha, ht, hu], rfl⟩
  | false =>
    obtain ⟨db', hok, hshow, -⟩ := h.update_pending ht env.now ev.status
      (buildOutboxEvent q (statusToSubject ev.status)) hqid
    rw [hok] at hupd
    obtain ⟨hl, hu, he⟩ | ⟨hl, hu, m, he⟩ | ⟨hl, hu, m, he⟩ := hupd
    · rw [Prog.eval_step he]
      dsimp only
      rw [if_neg (by simp)]
      by_cases hs' : ev.status = .succeeded
      swap
      · rw [if_neg hs']
        exact ⟨_, _, rfl, by simpa [PayView.webhook, ha, ht, hl, hu, hs'] using hshow,
          by simp [PayView.webhook, ha, ht, hl, hu, hs'], rfl⟩
      rw [if_pos hs', Prog.bind_eq, Prog.eval_bind]
      cases hsh : p.hasShare with
      | false =>
        -- there is nobody to credit
        rw [writeAccrual_noShare uc (hs.hasShare.trans hsh)]
        exact ⟨_, _, rfl, by simpa [PayView.webhook, ha, ht, hl, hu, hsh] using hshow,
          by simp [PayView.webhook, ha, ht, hl, hu, hsh], rfl⟩
      | true =>
        have hc := hv.pending ht
        obtain ⟨res, w', hacc, hshow', hres, href⟩ := writeAccrual_shows uc env { w with db := db' } hshow hs hc (hv.reversed hc) hsh
        rw [hacc]
        refine ⟨(some ev, res.map (Err.wrap "write accrual")), w', by cases res <;> rfl, ?_, ?_, href⟩
        · simpa [PayView.webhook, ha, ht, hl, hu, hs', hsh] using hshow'
        · simpa [PayView.webhook, ha, ht, hl, hu, hs', hsh] using hres
    · rw [Prog.eval_step he]
      exact ⟨_, _, rfl, by simpa [PayView.webhook, ha, ht, hl, hu] using hshow,
        by simp [PayView.webhook, ha, ht, hl, hu], rfl⟩
    · rw [Prog.eval_step he]
      exact ⟨_, _, rfl, by simpa [PayView.webhook, ha, ht, hl] using h, by simp [PayView.webhook, ha, ht, hl], rfl⟩

/-- A payment of another provider takes no webhook. -/
theorem handleWebhook_mismatch (uc : PaymentUseCase) (env : PayEnv) (raw : RawBody) (w : PayWorld) {p : Payment}
    {v : PayView} {ev : WebhookEvent} (h : w.db.Shows p v) (hparse : env.parse raw = .ok ev)
    (hpid : ev.providerPaymentID = p.providerID) (hcap : ev.requiresCapture = false)
    (hterm : ev.status.isTerminal = true) (hm : uc.mismatch p = true) :
    ∃ res, (uc.handleWebhook raw).eval (PayOp.run env) w = (res, w) ∧ res.2 ≠ none := by
  obtain ⟨q, hget, -, hs, -⟩ := h.getByProviderID
  have hprov : q.providerName = p.providerName := by rw [hs]
  have hparsed : PayOp.run env (.parseWebhook raw) w = (.ok ev, w) := by rw [← hparse]; rfl
  have hread := PayOp.run_getByProviderID env p.providerID w
  rw [hget] at hread
  rw [PaymentUseCase.handleWebhook, Prog.bind_eq, Prog.perform_bind, Prog.eval_step hparsed]
  dsimp only
  rw [if_neg (by simp [hcap]), if_neg (by simp [hterm]), Prog.bind_eq, Prog.perform_bind, hpid]
  obtain ⟨-, he⟩ | ⟨-, m, he⟩ := hread
  · rw [Prog.eval_step he]
    dsimp only
    rw [hprov, if_pos (by simpa [PaymentUseCase.mismatch] using hm)]
    exact ⟨_, rfl, by simp⟩
  · rw [Prog.eval_step he]
    exact ⟨_, rfl, by simp⟩

/-! ## A refund -/

/-- A refund with no failure of the database, and whether it returns nil: the status never moves. -/
def PayView.refund (f : Fault Err) (v : PayView) : Bool × PayView :=
  if v.status ≠ .succeeded then (true, v)
  else if f.answers = false then (false, v)
  else (true, { v with reversed := v.credited })

theorem PayView.reversed_self {v : PayView} (h : v.credited = v.reversed) : { v with reversed := v.credited } = v := by
  cases v
  cases h
  rfl

theorem writeReversal_shows {env : PayEnv} (hf : env.faults = {}) (w : PayWorld) {p q : Payment} {v : PayView}
    (h : w.db.Shows p v) (hv : v.Ok) (hs : p.sameAs q) :
    ∃ w', (writeReversal q).eval (PayOp.run env) w = (none, w') ∧ w'.db.Shows p { v with reversed := v.credited } := by
  have hqid : q.id = p.id := by rw [hs]
  have hfind : PayOp.run env (.findAccrualByPayment q.id) w = (LedgerRepo.findAccrualByPayment p.id w.db, w) := by
    rw [hqid, PayOp.run, hf]
    rfl
  rw [writeReversal, Prog.bind_eq, Prog.perform_bind, Prog.eval_step hfind]
  obtain ⟨hc, a, ha, hmem, hacc, -⟩ | ⟨hc, hnone⟩ := h.findAccrual
  · have happ : PayOp.run env (.appendReversal (reversalEntry q a)) w =
        ((LedgerRepo.appendReversal env.now (reversalEntry q a) w.db).1,
          { w with db := (LedgerRepo.appendReversal env.now (reversalEntry q a) w.db).2 }) := by
      rw [PayOp.run, hf]
      rfl
    rw [ha]
    dsimp only
    rw [Prog.bind_eq, Prog.perform_bind, Prog.eval_step happ]
    cases hr : v.reversed with
    | false =>
      obtain ⟨t, hok, hshow⟩ := h.appendReversal_new hs hmem hacc hr env.now
      rw [hok]
      exact ⟨_, rfl, by simpa [hc] using hshow⟩
    | true =>
      have hsame : { v with reversed := v.credited } = v :=
        PayView.reversed_self (hc.trans hr.symm)
      rw [h.appendReversal_again hs hmem hacc hr env.now, hsame]
      exact ⟨_, rfl, h⟩
  · have hsame : { v with reversed := v.credited } = v :=
      PayView.reversed_self (hc.trans (hv.reversed hc).symm)
    rw [hnone, hsame]
    exact ⟨w, rfl, h⟩

/-- **One refund is one step of the view.** -/
theorem refundByBooking_shows {env : PayEnv} (hf : env.faults = {}) (w : PayWorld) {p : Payment} {v : PayView}
    (h : w.db.Shows p v) (hv : v.Ok) :
    ∃ res w', (refundByBooking p.bookingID).eval (PayOp.run env) w = (res, w') ∧
      w'.db.Shows p (v.refund env.refund).2 ∧ (res = none ↔ (v.refund env.refund).1 = true) := by
  obtain ⟨q, hget, hq, hs, hst⟩ := h.getByBookingID
  have hread : PayOp.run env (.getByBookingID p.bookingID) w = (.ok q, w) := by
    rw [← hget, PayOp.run, hf]
    rfl
  have hqid : q.id = p.id := by rw [hs]
  rw [refundByBooking, Prog.bind_eq, Prog.perform_bind, Prog.eval_step hread]
  dsimp only
  by_cases hsuc : q.status = .succeeded
  swap
  · rw [if_pos hsuc]
    rw [hst] at hsuc
    exact ⟨_, _, rfl, by simpa [PayView.refund, hsuc] using h, by simp [PayView.refund, hsuc]⟩
  rw [if_neg (by simp [hsuc]), Prog.bind_eq, Prog.perform_bind]
  rw [hst] at hsuc
  have hprov : ∀ key, PayOp.run env (.refund q.providerID q.amount key) w = env.refund.apply id
      (fun w => (.ok (), { w with refunded := w.refunded ++ [q.providerID] })) w := fun _ => rfl
  cases hrf : env.refund with
  | before e =>
    rw [Prog.eval_step (by rw [hprov, hrf])]
    exact ⟨_, _, rfl, by simpa [PayView.refund, hsuc, Fault.answers] using h, by simp [PayView.refund, hsuc, Fault.answers]⟩
  | after e =>
    rw [Prog.eval_step (by rw [hprov, hrf])]
    exact ⟨_, _, rfl, by simpa [PayView.refund, hsuc, Fault.answers] using h, by simp [PayView.refund, hsuc, Fault.answers]⟩
  | none =>
    rw [Prog.eval_step (by rw [hprov, hrf])]
    dsimp only [Fault.apply_none]
    -- the status update finds the payment final and is ignored
    have hupd : ∀ ev, PayOp.run env (.updateStatusWithOutbox q.id .refunded q.providerID ev)
        { w with refunded := w.refunded ++ [q.providerID] } =
        (.ok false, { w with refunded := w.refunded ++ [q.providerID] }) := by
      intro ev
      have hterm := h.update_terminal (by rw [hsuc]; rfl) env.now .refunded q.providerID ev
      simp only [PayOp.run, hf, Fault.apply_none, onPayments, hqid, hterm]
    rw [Prog.bind_eq, Prog.perform_bind, Prog.eval_step (hupd _)]
    dsimp only
    have hs' : p.sameAs { q with status := .refunded } := by
      rw [Payment.sameAs, hs]
    obtain ⟨w', hrev, hshow⟩ := writeReversal_shows hf { w with refunded := w.refunded ++ [q.providerID] } h hv hs'
    rw [Prog.bind_eq, Prog.eval_bind, hrev]
    exact ⟨_, _, rfl, by simpa [PayView.refund, hsuc, Fault.answers] using hshow,
      by simp [PayView.refund, hsuc, Fault.answers]⟩

end Agregator
