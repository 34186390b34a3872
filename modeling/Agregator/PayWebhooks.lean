import Agregator.PaySystem
import Agregator.PayCredit
/-!
# PayWebhooks — webhooks of one payment

Whatever webhooks come for a payment, and in whatever order their steps are taken, one of them decides: the guard of the
update lets a pending payment through only, and the outbox row is written with it.  Whether a webhook gets as far as the
update is up to the provider's name in the row, which `CreatePayment` leaves to a default.
-/
namespace Agregator

open Rel Conc

/-! ## One transition, one message -/

/-- The moment moves the payment from one status to another. -/
def PaymentsMoment.changes (id : String) (m : PaymentsMoment) : Bool :=
  (m.before.world.pay.db.statusOf id).isSome && m.before.world.pay.db.statusOf id != m.after.pay.db.statusOf id

/-- The outbox row tells of the status the moment committed. -/
def OutboxEvent.Tells (id : String) (e : OutboxEvent) (m : PaymentsMoment) : Prop :=
  ∃ st, m.after.pay.db.statusOf id = some st ∧ e.subject = statusToSubject st

/-- The payment left pending at most once, into a status for good; the outbox got one row for that, and no other. -/
structure MovedOnce (id : String) (w₀ : PaymentsWorld) (tr : List PaymentsMoment) (w : PaymentsWorld) : Prop where
  once : (tr.filter (PaymentsMoment.changes id)).length ≤ 1
  leaves : ∀ m ∈ tr, m.changes id = true → m.before.world.pay.db.statusOf id = some .pending ∧
    ∃ st, m.after.pay.db.statusOf id = some st ∧ st.isTerminal = true
  told : ∃ rows, w.pay.db.outboxOf id = w₀.pay.db.outboxOf id ++ rows ∧
    List.Forall₂ (OutboxEvent.Tells id) rows (tr.filter (PaymentsMoment.changes id))

theorem MovedOnce.snoc {id : String} {w₀ w : PaymentsWorld} {tr : List PaymentsMoment} {m : PaymentsMoment}
    (hI : MovedOnce id w₀ tr w) (hw : m.before.world = w)
    (hfinal : (∃ m ∈ tr, m.changes id = true) → ∃ st, w.pay.db.statusOf id = some st ∧ st.isTerminal = true)
    (hstep : ((m.after.pay.db.statusOf id = w.pay.db.statusOf id ∨
        w.pay.db.statusOf id = none ∧ m.after.pay.db.statusOf id = some .pending) ∧
      m.after.pay.db.outboxOf id = w.pay.db.outboxOf id) ∨
    (w.pay.db.statusOf id = some .pending ∧ ∃ st, m.after.pay.db.statusOf id = some st ∧ st.isTerminal = true ∧
      ∃ e : OutboxEvent, m.after.pay.db.outboxOf id = w.pay.db.outboxOf id ++ [e] ∧ e.subject = statusToSubject st)) :
    MovedOnce id w₀ (tr ++ [m]) m.after ∧
      ((∃ m' ∈ tr ++ [m], m'.changes id = true) → ∃ st, m.after.pay.db.statusOf id = some st ∧ st.isTerminal = true) := by
  have hsplit : ∀ {P : PaymentsMoment → Prop}, (∀ m' ∈ tr, P m') → P m → ∀ m' ∈ tr ++ [m], P m' := by
    intro P h1 h2 m' hm'
    rcases List.mem_append.1 hm' with hm' | hm'
    · exact h1 m' hm'
    · rw [List.mem_singleton.1 hm']
      exact h2
  obtain ⟨rows, hrows, htold⟩ := hI.told
  rcases hstep with ⟨hst, hout⟩ | ⟨hpend, st, hst, hterm, e, hout, hsub⟩
  · -- nothing is moved
    have hno : m.changes id = false := by
      unfold PaymentsMoment.changes
      rw [hw]
      rcases hst with hst | ⟨hnone, -⟩
      · simp [hst]
      · simp [hnone]
    have hfil : (tr ++ [m]).filter (PaymentsMoment.changes id) = tr.filter (PaymentsMoment.changes id) := by
      rw [List.filter_append, List.filter_cons_of_neg (by simp [hno]), List.filter_nil, List.append_nil]
    refine ⟨⟨by rw [hfil]; exact hI.once, hsplit hI.leaves (fun h => by rw [hno] at h; cases h), rows, ?_, by rw [hfil]; exact htold⟩, ?_⟩
    · rw [hout, hrows]
    · rintro ⟨m', hm', hch⟩
      have hold : ∃ m ∈ tr, m.changes id = true := by
        rcases List.mem_append.1 hm' with hm' | hm'
        · exact ⟨m', hm', hch⟩
        · rw [List.mem_singleton.1 hm', hno] at hch
          cases hch
      obtain ⟨st, hs, hterm⟩ := hfinal hold
      rcases hst with hst | ⟨hnone, -⟩
      · exact ⟨st, hst.trans hs, hterm⟩
      · rw [hnone] at hs
        cases hs
  · -- a pending payment is moved, so none was before
    have hch : m.changes id = true := by
      unfold PaymentsMoment.changes
      rw [hw, hpend, hst]
      cases st <;> first | rfl | cases hterm
    have hnil : tr.filter (PaymentsMoment.changes id) = [] := List.filter_eq_nil_iff.2 fun m' hm' hch' => by
      obtain ⟨s, hs, ht⟩ := hfinal ⟨m', hm', hch'⟩
      rw [hpend] at hs
      cases hs
      cases ht
    have hfil : (tr ++ [m]).filter (PaymentsMoment.changes id) = [m] := by
      rw [List.filter_append, hnil, List.filter_cons_of_pos hch]
      rfl
    rw [hnil] at htold
    cases htold
    refine ⟨⟨by rw [hfil]; exact Nat.le_refl _, hsplit hI.leaves (fun _ => ⟨by rw [hw]; exact hpend, st, hst, hterm⟩), [e], ?_, ?_⟩,
      fun _ => ⟨st, hst, hterm⟩⟩
    · rw [hout, hrows, List.append_nil]
    · rw [hfil]
      exact .cons ⟨st, hst, hsub⟩ .nil

/-- **A payment leaves pending at most once, for good, and the outbox tells of it once.** -/
theorem webhooks_move_once (uc : PaymentUseCase) (terms : ChargeTerms) (hashtext : String → ℤ) (id : String)
    {w₀ : PaymentsWorld} {tr : List PaymentsMoment} {c : PaymentsConfig}
    (h : (paymentsSys uc terms hashtext).Trace w₀ tr c) : MovedOnce id w₀ tr c.world := by
  suffices hI : MovedOnce id w₀ tr c.world ∧
      ((∃ m ∈ tr, m.changes id = true) → ∃ st, c.world.pay.db.statusOf id = some st ∧ st.isTerminal = true) from hI.1
  induction h with
  | init => exact ⟨⟨Nat.zero_le _, by simp, [], by simp, .nil⟩, by simp⟩
  | start c _ _ ih => exact ih
  | perform w' ts₁ ts₂ r ht he ih =>
    have hall := ht.reach.all (P := fun _ => PaymentsOp.Announces) (PaymentsCall.prog_announces uc terms)
    exact ih.1.snoc rfl ih.2 (PaymentsOp.Exec.payment he (hall _ (List.mem_append_right _ List.mem_cons_self)).1 id)
  | env _ he ih =>
    obtain ⟨tx, rfl⟩ := he
    exact ⟨⟨ih.1.once, ih.1.leaves, ih.1.told⟩, ih.2⟩

/-! ### Two webhooks that contradict each other -/

/-- What a call of the payments does alone. -/
theorem onPaying_runs {α : Type} (hashtext : String → ℤ) (env : PayEnv) (prog : PayProg α) (w : PaymentsWorld) :
    (onPaying prog).Runs (PaymentsOp.Exec hashtext) w (prog.eval (PayOp.run env) w.pay).1
      { w with pay := (prog.eval (PayOp.run env) w.pay).2 } :=
  Prog.Runs.lift (f := PaymentsOp.pay) (g := fun _ r => r) (fun pay => { w with pay := pay })
    (fun _ _ r _ he => ⟨r, rfl, he, rfl, rfl, rfl⟩) (Prog.runs_eval (exec_run env) prog w.pay)

def samplePaymentsWorld : PaymentsWorld := ⟨sampleWorld .pending, [], [], 0⟩

/-- The provider reports success, then the opposite. -/
def contradicting : PayEnv := calm 0 fun raw => .ok (sampleEvent (if raw = [] then .succeeded else .cancelled))

/-- The service once the deliveries have been made, one after the other. -/
def delivered (raws : List RawBody) : PaymentsWorld :=
  raws.foldl (fun w raw => { w with pay := ((do
    return (← PaymentUseCase.handleWebhook ⟨"alfa", 86400⟩ raw).2 : PayProg (Option Err)).eval (PayOp.run contradicting) w.pay).2 })
    samplePaymentsWorld

theorem delivered_trace (raw raw' : RawBody) : ∃ tr ts, (paymentsSys ⟨"alfa", 86400⟩ sampleTerms fun _ => 0).Trace
    samplePaymentsWorld tr ⟨delivered [raw, raw'], ts⟩ := by
  have hrun := onPaying_runs (fun _ => 0) contradicting (do
    return (← PaymentUseCase.handleWebhook ⟨"alfa", 86400⟩ raw).2 : PayProg (Option Err)) samplePaymentsWorld
  have hrun' := onPaying_runs (fun _ => 0) contradicting (do
    return (← PaymentUseCase.handleWebhook ⟨"alfa", 86400⟩ raw').2 : PayProg (Option Err)) (delivered [raw])
  have h0 : (paymentsSys ⟨"alfa", 86400⟩ sampleTerms fun _ => 0).Trace samplePaymentsWorld [] ⟨samplePaymentsWorld, []⟩ := .init
  obtain ⟨tr, did, h1⟩ := (h0.start (.handleWebhook raw) trivial).runs (fun _ _ _ _ he => he) hrun
  obtain ⟨tr', did', h2⟩ := (h1.start (.handleWebhook raw') trivial).runs (fun _ _ _ _ he => he) hrun'
  exact ⟨tr', _, h2⟩

theorem webhooks_move_once_sample : ∃ tr ts, (paymentsSys ⟨"alfa", 86400⟩ sampleTerms fun _ => 0).Trace
      samplePaymentsWorld tr ⟨delivered [[], [1]], ts⟩ ∧
    MovedOnce (samplePayment .pending).id samplePaymentsWorld tr (delivered [[], [1]]) ∧
    (delivered [[], [1]]).pay.db.statusOf (samplePayment .pending).id = some .succeeded ∧
    ((delivered [[], [1]]).pay.db.outboxOf (samplePayment .pending).id).map (·.subject) = [.paymentCompleted] := by
  obtain ⟨tr, ts, h⟩ := delivered_trace [] [1]
  exact ⟨tr, ts, h, webhooks_move_once _ _ _ _ h, rfl, rfl⟩

/-- The service once a success has been reported, and the row that tells of it. -/
def paidWorld : PaymentsWorld where
  pay := (PayOp.run contradicting (.updateStatusWithOutbox (samplePayment .pending).id .succeeded
    (samplePayment .pending).providerID (buildOutboxEvent (samplePayment .pending) .paymentCompleted)) (sampleWorld .pending)).2
  charges := []
  sessions := []
  opened := 0

def paidRow : OutboxEvent := { buildOutboxEvent (samplePayment .pending) .paymentCompleted with id := 1 }

/-- A run in which a success is reported. -/
theorem success_reported : ∃ tr c, ∃ m : PaymentsMoment, (paymentsSys ⟨"alfa", 86400⟩ sampleTerms fun _ => 0).Trace samplePaymentsWorld tr c ∧
    m ∈ tr ∧ (∃ raw, m.thread.call = .handleWebhook raw) ∧ m.before.world = samplePaymentsWorld ∧ m.after = paidWorld := by
  have hparse : PaymentsOp.Exec (fun _ => 0) (.pay (.parseWebhook [])) samplePaymentsWorld (.ok (sampleEvent .succeeded))
      samplePaymentsWorld := ⟨exec_run contradicting (.parseWebhook []) (sampleWorld .pending), rfl, rfl, rfl⟩
  have hget : PaymentsOp.Exec (fun _ => 0) (.pay (.getByProviderID "order-1")) samplePaymentsWorld (.ok (samplePayment .pending))
      samplePaymentsWorld := ⟨exec_run contradicting (.getByProviderID "order-1") (sampleWorld .pending), rfl, rfl, rfl⟩
  have hupd : PaymentsOp.Exec (fun _ => 0) (.pay (.updateStatusWithOutbox (samplePayment .pending).id .succeeded
      (sampleEvent .succeeded).providerPaymentID (buildOutboxEvent (samplePayment .pending) .paymentCompleted)))
      samplePaymentsWorld (.ok true) paidWorld :=
    ⟨exec_run contradicting _ (sampleWorld .pending), rfl, rfl, rfl⟩
  have h : (paymentsSys ⟨"alfa", 86400⟩ sampleTerms fun _ => 0).Trace samplePaymentsWorld [] ⟨samplePaymentsWorld, []⟩ := .init
  have h := h.start (.handleWebhook []) trivial
  have h := h.perform samplePaymentsWorld [] [] _ hparse
  have h := h.perform samplePaymentsWorld [] [] _ hget
  have h := h.perform paidWorld [] [] _ hupd
  exact ⟨_, _, _, h, List.mem_append_right _ (List.mem_singleton.2 rfl), ⟨[], rfl⟩, rfl, rfl⟩

/-! ## The provider of a payment -/

/-- A creation makes its payment with the provider the repository puts in the place of none. -/
theorem created_with_mock (uc : PaymentUseCase) (terms : ChargeTerms) (hashtext : String → ℤ) {w₀ : PaymentsWorld}
    {c : PaymentsConfig} (h : (paymentsSys uc terms hashtext).Reach anyStep w₀ c) {t : Thread PaymentsCall PaymentsOp
      PaymentsOp.Res (Option Err)} (ht : t ∈ c.threads) {x row : Payment}
    (he : (⟨.create (.createIdempotent x), .ok (true, row)⟩ : Event PaymentsOp PaymentsOp.Res) ∈ t.did) :
    c.world.pay.db.MadeWith row.id "mock" := by
  have hafter : ∀ c, ((paymentsSys uc terms hashtext).prog c).After (fun _ (o : PaymentsOp) => o.Announces) [] := fun c =>
    ((PaymentsCall.prog_announces uc terms c).mono fun _ ho _ => ho).after
  obtain ⟨h₁, h₂, hd⟩ := List.append_of_mem he
  have hname : x.providerName = "" := ((h.after (P := fun _ _ (o : PaymentsOp) => o.Announces) hafter t ht).2 h₁ _ h₂ hd).2
  refine h.lasting (E := fun e => e = ⟨.create (.createIdempotent x), .ok (true, row)⟩)
    (F := fun w => w.pay.db.MadeWith row.id "mock") (fun o w r w' hexec heq => ?_)
    (fun o w r w' hexec hF => PaymentsOp.Exec.madeWith hexec hF) (fun w w' henv hF => ?_) t ht _ he rfl
  · cases heq
    have hmade := PaymentsOp.Exec.claimed hexec
    rw [if_pos hname] at hmade
    exact hmade
  · obtain ⟨tx, rfl⟩ := henv
    exact hF

/-- The delivery comes to update the status of the payment. -/
def PaymentUseCase.Applies (uc : PaymentUseCase) (env : PayEnv) (raw : RawBody) (ev : WebhookEvent) (p : Payment)
    (w : PayWorld) : Prop :=
  ∃ out r, (⟨.updateStatusWithOutbox p.id ev.status ev.providerPaymentID out, r⟩ : Event PayOp PayOp.Res) ∈
    (uc.handleWebhook raw).events (PayOp.run env) w

/-- A final webhook for a payment comes as far as the update if and only if the payment was made with the provider in use. -/
theorem PaymentUseCase.applies_iff (uc : PaymentUseCase) {env : PayEnv} {raw : RawBody} {ev : WebhookEvent} {p : Payment}
    {w : PayWorld} (hp : p ∈ w.db.payments.rows) (hparse : env.parse raw = .ok ev)
    (hpid : ev.providerPaymentID = p.providerID) (hcap : ev.requiresCapture = false) (hterm : ev.status.isTerminal = true)
    (hread : env.faults.getByProviderID.answers = true) :
    uc.Applies env raw ev p w ↔ uc.activeProvider = "" ∨ p.providerName = uc.activeProvider := by
  have hparsed : PayOp.run env (.parseWebhook raw) w = (.ok ev, w) := by rw [← hparse]; rfl
  have hget := PaymentRepo.getByProviderID_mem hp
  have hfound : PayOp.run env (.getByProviderID p.providerID) w = (.ok p, w) := by
    rcases PayOp.run_getByProviderID env p.providerID w with ⟨-, he⟩ | ⟨hno, -⟩
    · rw [he, hget]
    · rw [hread] at hno
      cases hno
  unfold PaymentUseCase.Applies PaymentUseCase.handleWebhook
  rw [Prog.bind_eq, Prog.perform_bind, Prog.events_step hparsed]
  dsimp only
  rw [if_neg (by simp [hcap]), if_neg (by simp [hterm]), Prog.bind_eq, Prog.perform_bind, hpid, Prog.events_step hfound]
  dsimp only
  by_cases hm : uc.activeProvider ≠ "" ∧ p.providerName ≠ uc.activeProvider
  · rw [if_pos hm]
    constructor
    · rintro ⟨out, r, hmem⟩
      simp [Prog.events] at hmem
    · rintro (h | h)
      · exact absurd h hm.1
      · exact absurd h hm.2
  · rw [if_neg hm, Prog.bind_eq, Prog.perform_bind, Prog.events]
    refine ⟨fun _ => ?_, fun _ => ⟨_, _, List.mem_cons_of_mem _ (List.mem_cons_of_mem _ List.mem_cons_self)⟩⟩
    by_cases h : uc.activeProvider = ""
    · exact .inl h
    · exact .inr (by simpa [h] using hm)

/-- **A final webhook for a payment that was created here is applied if and only if the provider in use is the mock**, or
none is named. -/
theorem webhook_applied_iff (uc : PaymentUseCase) (terms : ChargeTerms) (hashtext : String → ℤ) {w₀ : PaymentsWorld}
    {c : PaymentsConfig} (h : (paymentsSys uc terms hashtext).Reach anyStep w₀ c) {t : Thread PaymentsCall PaymentsOp
      PaymentsOp.Res (Option Err)} (ht : t ∈ c.threads) {x row p : Payment}
    (he : (⟨.create (.createIdempotent x), .ok (true, row)⟩ : Event PaymentsOp PaymentsOp.Res) ∈ t.did)
    (hp : p ∈ c.world.pay.db.payments.rows) (hid : p.id = row.id) {env : PayEnv} {raw : RawBody} {ev : WebhookEvent}
    (hparse : env.parse raw = .ok ev) (hpid : ev.providerPaymentID = p.providerID) (hcap : ev.requiresCapture = false)
    (hterm : ev.status.isTerminal = true) (hread : env.faults.getByProviderID.answers = true) :
    uc.Applies env raw ev p c.world.pay ↔ uc.activeProvider = "" ∨ uc.activeProvider = "mock" := by
  obtain ⟨q, hq, hqid, hname⟩ := created_with_mock uc terms hashtext h ht he
  have hpq : p = q := c.world.pay.db.payments.eq_of_clash hp hq (Payment.clash_of_id (hid.trans hqid.symm))
  rw [uc.applies_iff hp hparse hpid hcap hterm hread, hpq, hname]
  exact or_congr Iff.rfl eq_comm

/-! ### A payment of another provider -/

/-- The operations with nothing failing. -/
def PaymentsOp.calmRun : (o : PaymentsOp) → PaymentsWorld → o.Res × PaymentsWorld
  | pay o, w => ((o.run contradicting w.pay).1, { w with pay := (o.run contradicting w.pay).2 })
  | create o, w =>
    let out := o.run (fun _ => 0) calmCreate w.creating
    (out.1, { w with
      pay := { w.pay with db := out.2.db }, charges := out.2.charges, sessions := out.2.sessions, opened := out.2.opened })

theorem PaymentsOp.calmRun_exec (o : PaymentsOp) (w : PaymentsWorld) :
    PaymentsOp.Exec (fun _ => 0) o w (o.calmRun w).1 (o.calmRun w).2 := by
  cases o with
  | pay o => exact ⟨exec_run contradicting o w.pay, rfl, rfl, rfl⟩
  | create o => exact ⟨⟨calmCreate, rfl⟩, rfl⟩

/-- The service once the sample payment has been created. -/
def createdWorld : PaymentsWorld :=
  ((onCreating do return (← sampleTerms.createPayment sampleInput).2).eval PaymentsOp.calmRun ⟨⟨noPayments, []⟩, [], [], 0⟩).2

def createdPayment : Payment :=
  { PaymentRepo.newRow 0 "00000000-0000-0000-0000-000000000011" (sampleTerms.newPayment sampleInput) with
    providerID := "order-2", paymentURL := "https://example.test/pay" }

theorem createdWorld_rows : createdWorld.pay.db.payments.rows = [createdPayment] := by decide +kernel

theorem created_reach (uc : PaymentUseCase) : ∃ t, (paymentsSys uc sampleTerms fun _ => 0).Reach anyStep
      ⟨⟨noPayments, []⟩, [], [], 0⟩ ⟨createdWorld, [t]⟩ ∧
    (⟨.create (.createIdempotent (sampleTerms.newPayment sampleInput)), .ok (true, claimedRow)⟩ :
      Event PaymentsOp PaymentsOp.Res) ∈ t.did := by
  have hstart : (paymentsSys uc sampleTerms fun _ => 0).Reach anyStep ⟨⟨noPayments, []⟩, [], [], 0⟩
      ⟨⟨⟨noPayments, []⟩, [], [], 0⟩, [] ++ [⟨.createPayment sampleInput, [], (PaymentsCall.createPayment sampleInput).prog uc sampleTerms⟩]⟩ :=
    Sys.Reach.init.step (.start _ [] _ trivial)
  exact ⟨_, hstart.evals (fun o w => ⟨PaymentsOp.calmRun_exec o w, fun _ _ _ => trivial⟩) [] [], List.mem_cons_self⟩

/-- The provider in use reports the payment paid. -/
def paidByAlfa : PayEnv := calm 0 fun _ => .ok { sampleEvent .succeeded with providerPaymentID := "order-2" }

theorem webhook_applied_iff_sample :
    PaymentUseCase.Applies ⟨"mock", 86400⟩ paidByAlfa [] { sampleEvent .succeeded with providerPaymentID := "order-2" }
      createdPayment createdWorld.pay ↔ ("mock" : String) = "" ∨ ("mock" : String) = "mock" := by
  obtain ⟨t, h, he⟩ := created_reach ⟨"mock", 86400⟩
  have hrow : createdPayment ∈ createdWorld.pay.db.payments.rows := by
    rw [createdWorld_rows]
    exact List.mem_singleton.2 rfl
  exact webhook_applied_iff ⟨"mock", 86400⟩ _ _ h (List.mem_singleton.2 rfl) he hrow rfl rfl rfl rfl rfl rfl

theorem webhook_not_always_applied : ¬ ∀ (uc : PaymentUseCase) (terms : ChargeTerms) (hashtext : String → ℤ)
    (w₀ : PaymentsWorld) (c : PaymentsConfig), (paymentsSys uc terms hashtext).Reach anyStep w₀ c →
    ∀ t ∈ c.threads, ∀ x row p : Payment,
      (⟨.create (.createIdempotent x), .ok (true, row)⟩ : Event PaymentsOp PaymentsOp.Res) ∈ t.did →
      p ∈ c.world.pay.db.payments.rows → p.id = row.id → ∀ (env : PayEnv) (raw : RawBody) (ev : WebhookEvent),
        env.parse raw = .ok ev → ev.providerPaymentID = p.providerID → ev.requiresCapture = false →
        ev.status.isTerminal = true → env.faults.getByProviderID.answers = true → uc.Applies env raw ev p c.world.pay := by
  intro h
  obtain ⟨t, hr, he⟩ := created_reach ⟨"alfa", 86400⟩
  have hrow : createdPayment ∈ createdWorld.pay.db.payments.rows := by
    rw [createdWorld_rows]
    exact List.mem_singleton.2 rfl
  have happ := h ⟨"alfa", 86400⟩ _ _ _ _ hr t (List.mem_singleton.2 rfl) _ _ createdPayment he hrow rfl paidByAlfa []
    { sampleEvent .succeeded with providerPaymentID := "order-2" } rfl rfl rfl rfl rfl
  have hmock := (PaymentUseCase.applies_iff ⟨"alfa", 86400⟩ hrow rfl rfl rfl rfl rfl).1 happ
  exact absurd hmock (by decide)

end Agregator
