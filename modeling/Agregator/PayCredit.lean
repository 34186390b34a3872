import Agregator.PayDeliver
/-!
# PayCredit — what the partner is credited with

The accrual of a payment is a transaction of its own, after the one that makes the payment final.  What a sequence of
deliveries leaves in the ledger is worked out on the view of the payment; the two results say exactly which sequences
end with the ledger as it should be.
-/
namespace Agregator

open Rel Conc

/-- A delivery of a webhook: its body, and the environment it is handled in. -/
structure Delivery where
  raw : RawBody
  env : PayEnv

namespace Delivery

variable (p : Payment) (d : Delivery)

/-- The provider takes the body for a notification about the payment, with this status. -/
def Says (s : PaymentStatus) : Prop :=
  ∃ ev, d.env.parse d.raw = .ok ev ∧ ev.providerPaymentID = p.providerID ∧ ev.requiresCapture = false ∧ ev.status = s

/-- If the payment is still open, this delivery makes it final. -/
def commits : Bool := d.env.faults.getByProviderID.answers && d.env.faults.updateStatusWithOutbox.lands

/-- If the payment is final already, this delivery returns nil. -/
def acknowledges : Bool := d.env.faults.getByProviderID.answers && d.env.faults.updateStatusWithOutbox.answers

/-- If this delivery makes the payment succeed, it credits the partner. -/
def credits : Bool := d.env.faults.updateStatusWithOutbox.answers && d.env.faults.appendAccrual.lands

end Delivery

/-! ## A success delivered until it is acknowledged -/

/-- Deliveries one after another: what each returned, and the state after them. -/
def deliverAll (uc : PaymentUseCase) : List Delivery → PayWorld → List (Option Err) × PayWorld
  | [], w => ([], w)
  | d :: ds, w =>
    let r := (uc.handleWebhook d.raw).eval (PayOp.run d.env) w
    let rs := deliverAll uc ds r.2
    (r.1.2 :: rs.1, rs.2)

/-- The same on the view of the payment. -/
def PayView.deliverAll (p : Payment) (s : PaymentStatus) : List Delivery → PayView → List Bool × PayView
  | [], v => ([], v)
  | d :: ds, v =>
    let r := v.webhook p s d.env.faults
    let rs := PayView.deliverAll p s ds r.2
    (r.1 :: rs.1, rs.2)

theorem PayView.webhook_ok {p : Payment} {s : PaymentStatus} {f : PayFaults} {v : PayView}
    (hs : s.isTerminal = true) (hv : v.Ok) : (v.webhook p s f).2.Ok := by
  unfold PayView.webhook
  split
  · exact hv
  split
  · exact hv
  rename_i hopen
  have hc := hv.pending (by simpa using hopen)
  have hr := hv.reversed hc
  split
  · exact hv
  split
  · exact ⟨fun h => by simp [hs] at h, fun _ => hr⟩
  split
  · exact ⟨fun h => by simp [hs] at h, fun _ => hr⟩
  · exact ⟨fun h => by simp [hs] at h, fun _ => hr⟩

/-- **Deliveries are steps of the view**, one for one. -/
theorem deliverAll_shows (uc : PaymentUseCase) {p : Payment} {s : PaymentStatus} (hs : s.isTerminal = true)
    (hm : uc.mismatch p = false) :
    ∀ (ds : List Delivery) (w : PayWorld) (v : PayView), (∀ d ∈ ds, d.Says p s) → w.db.Shows p v → v.Ok →
      (deliverAll uc ds w).2.db.Shows p (v.deliverAll p s ds).2 ∧
      (deliverAll uc ds w).1.map (· == none) = (v.deliverAll p s ds).1
  | [], _, _, _, h, _ => ⟨h, rfl⟩
  | d :: ds, w, v, hd, h, hv => by
    obtain ⟨ev, hparse, hpid, hcap, rfl⟩ := hd d (by simp)
    obtain ⟨res, w', hrun, hshow, hres, -⟩ := handleWebhook_shows uc d.env d.raw w h hv hparse hpid hcap hs hm
    have ih := deliverAll_shows uc hs hm ds w' _ (fun x hx => hd x (by simp [hx])) hshow (PayView.webhook_ok hs hv)
    have hack : (res.2 == none) = (v.webhook p ev.status d.env.faults).1 := by
      rw [Bool.eq_iff_iff, ← hres, beq_iff_eq]
    simp only [deliverAll, PayView.deliverAll, hrun, List.map_cons, hack]
    exact ⟨ih.1, by rw [ih.2]⟩

/-- The ledger holds exactly one accrual of the payment, of its net amount. -/
def PaymentDB.CreditedOnce (db : PaymentDB) (p : Payment) : Prop :=
  ∃ e, db.ledger.select (LedgerRepo.isAccrualOf p.id) = [e] ∧ e.amountKopecks = p.counterpartyNetKopecks

theorem PaymentDB.Shows.creditedOnce {db : PaymentDB} {p : Payment} {v : PayView} (h : db.Shows p v) :
    db.CreditedOnce p ↔ v.credited = true := by
  constructor
  · rintro ⟨e, he, -⟩
    have hm : e ∈ db.ledger.select (LedgerRepo.isAccrualOf p.id) := by simp [he]
    obtain ⟨hrow, hacc⟩ := List.mem_filter.1 hm
    exact (h.accrual hrow hacc).1
  · intro hc
    obtain ⟨e, he, hacc, hamt⟩ := h.credited hc
    refine ⟨e, db.ledger.select_key he hacc (fun x hx => ?_), hamt⟩
    obtain ⟨hp, hty⟩ := LedgerRepo.isAccrualOf_iff.1 hx
    obtain ⟨hp', hty'⟩ := LedgerRepo.isAccrualOf_iff.1 hacc
    exact LedgerEntry.clash_of_accrual hty hty' (hp.trans hp'.symm)

/-- As soon as one delivery has returned nil, the partner is credited, once. -/
def AccrualComplete (uc : PaymentUseCase) (p : Payment) (w : PayWorld) (ds : List Delivery) : Prop :=
  ∀ ds₁ ds₂, ds = ds₁ ++ ds₂ → none ∈ (deliverAll uc ds₁ w).1 → (deliverAll uc ds₁ w).2.db.CreditedOnce p

/-- The delivery that makes the payment final also credits the partner, or no later one is acknowledged. -/
def accrualKept (p : Payment) : List Delivery → Bool
  | [] => true
  | d :: ds => if d.commits then d.credits && p.creditable || ds.all (fun d' => !d'.acknowledges) else accrualKept p ds

/-! ### The deliveries of a success, on the view -/

section Success

variable {p : Payment} {d : Delivery} {v : PayView}

/-- A final payment stays as it is. -/
theorem PayView.webhook_final (hv : v.status.isTerminal = true) (s : PaymentStatus) :
    v.webhook p s d.env.faults = (d.acknowledges, v) := by
  unfold PayView.webhook Delivery.acknowledges
  cases d.env.faults.getByProviderID.answers <;> simp [hv]

theorem PayView.deliverAll_final (hv : v.status.isTerminal = true) (s : PaymentStatus) :
    ∀ ds : List Delivery, v.deliverAll p s ds = (ds.map Delivery.acknowledges, v)
  | [] => rfl
  | d :: ds => by
    simp only [PayView.deliverAll, PayView.webhook_final hv, PayView.deliverAll_final hv s ds, List.map_cons]

/-- An open payment with a share, and the delivery of its success. -/
theorem PayView.webhook_success (hsh : p.hasShare = true) (d : Delivery) :
    PayView.fresh.webhook p .succeeded d.env.faults =
      if d.commits then (d.env.faults.updateStatusWithOutbox.answers && (d.env.faults.appendAccrual.answers && p.creditable),
        ⟨.succeeded, d.credits && p.creditable, false⟩)
      else (false, PayView.fresh) := by
  unfold PayView.webhook Delivery.commits Delivery.credits PayView.fresh
  cases d.env.faults.getByProviderID.answers <;> cases hl : d.env.faults.updateStatusWithOutbox.lands <;>
    cases hu : d.env.faults.updateStatusWithOutbox.answers <;> simp [PaymentStatus.isTerminal, hsh]

/-- On the view: as soon as one delivery is acknowledged, the payment is credited. -/
theorem accrualKept_iff (hsh : p.hasShare = true) :
    ∀ ds : List Delivery, (∀ ds₁ ds₂, ds = ds₁ ++ ds₂ → true ∈ (PayView.fresh.deliverAll p .succeeded ds₁).1 →
      (PayView.fresh.deliverAll p .succeeded ds₁).2.credited = true) ↔ accrualKept p ds = true
  | [] => by
    simp only [accrualKept, iff_true]
    intro ds₁ ds₂ h
    simp [List.nil_eq_append_iff.1 h, PayView.deliverAll]
  | d :: ds => by
    have hstep := PayView.webhook_success hsh d
    cases hc : d.commits with
    | false =>
      -- the payment is still open
      rw [hc] at hstep
      simp only [accrualKept, hc, Bool.false_eq_true, if_false]
      rw [← accrualKept_iff hsh ds]
      constructor
      · intro h ds₁ ds₂ hds hack
        have := h (d :: ds₁) ds₂ (by simp [hds])
        simp only [PayView.deliverAll, hstep, Bool.false_eq_true, if_false] at this
        exact this (by simp [hack])
      · intro h ds₁ ds₂ hds hack
        cases ds₁ with
        | nil => simp [PayView.deliverAll] at hack
        | cons d' ds₁ =>
          obtain ⟨rfl, hds'⟩ : d = d' ∧ ds = ds₁ ++ ds₂ := by simpa using hds
          simp only [PayView.deliverAll, hstep, Bool.false_eq_true, if_false] at hack ⊢
          exact h ds₁ ds₂ hds' (by simpa using hack)
    | true =>
      -- the payment is final from here on
      rw [hc, if_pos rfl] at hstep
      have hrun : ∀ ds₁ : List Delivery, PayView.fresh.deliverAll p .succeeded (d :: ds₁) =
          ((d.env.faults.updateStatusWithOutbox.answers && (d.env.faults.appendAccrual.answers && p.creditable)) ::
            ds₁.map Delivery.acknowledges, ⟨.succeeded, d.credits && p.creditable, false⟩) := by
        intro ds₁
        rw [PayView.deliverAll, hstep]
        dsimp only
        rw [PayView.deliverAll_final rfl]
      simp only [accrualKept, hc, if_true]
      cases hcr : d.credits && p.creditable with
      | true =>
        refine ⟨fun _ => rfl, fun _ ds₁ ds₂ hds hack => ?_⟩
        cases ds₁ with
        | nil => simp [PayView.deliverAll] at hack
        | cons d' ds₁ =>
          obtain ⟨rfl, -⟩ : d = d' ∧ ds = ds₁ ++ ds₂ := by simpa using hds
          rw [hrun]
          exact hcr
      | false =>
        -- this delivery is not acknowledged, and no later one credits
        have hfirst : (d.env.faults.updateStatusWithOutbox.answers &&
            (d.env.faults.appendAccrual.answers && p.creditable)) = false := by
          by_contra hack
          simp only [Bool.not_eq_false, Bool.and_eq_true] at hack
          simp [Delivery.credits, hack.1, Fault.lands_of_answers hack.2.1, hack.2.2] at hcr
        simp only [Bool.false_or, List.all_eq_true, Bool.not_eq_true']
        constructor
        · intro h d' hd'
          by_contra hack
          have hno := h (d :: ds) [] (by simp)
          rw [hrun, hcr] at hno
          exact absurd (hno (List.mem_cons_of_mem _ (List.mem_map.2 ⟨d', hd', by simpa using hack⟩))) (by simp)
        · intro h ds₁ ds₂ hds hack
          cases ds₁ with
          | nil => simp [PayView.deliverAll] at hack
          | cons d' ds₁ =>
            obtain ⟨rfl, hds'⟩ : d = d' ∧ ds = ds₁ ++ ds₂ := by simpa using hds
            rw [hrun, hfirst] at hack
            rcases List.mem_cons.1 hack with h0 | hack
            · cases h0
            obtain ⟨x, hx, hxa⟩ := List.mem_map.1 hack
            rw [h x (by simp [hds', hx])] at hxa
            cases hxa

end Success

/-- A payment of another provider is never acknowledged. -/
theorem deliverAll_mismatch {uc : PaymentUseCase} (hm : uc.mismatch p = true) {s : PaymentStatus} (hs : s.isTerminal = true)
    {v : PayView} : ∀ (ds : List Delivery) (w : PayWorld), (∀ d ∈ ds, d.Says p s) → w.db.Shows p v →
      none ∉ (deliverAll uc ds w).1
  | [], _, _, _ => by simp [deliverAll]
  | d :: ds, w, hd, h => by
    obtain ⟨ev, hparse, hpid, hcap, rfl⟩ := hd d (by simp)
    obtain ⟨res, hrun, hres⟩ := handleWebhook_mismatch uc d.env d.raw w h hparse hpid hcap hs hm
    have ih := deliverAll_mismatch hm hs ds w (fun x hx => hd x (by simp [hx])) h
    simp only [deliverAll, hrun, List.mem_cons, not_or]
    exact ⟨fun h0 => hres h0.symm, ih⟩

theorem accrualComplete_iff_kept {uc : PaymentUseCase} {p : Payment} (hm : uc.mismatch p = false) {w : PayWorld}
    (hw : w.db.Shows p .fresh) (hsh : p.hasShare = true) {ds : List Delivery} (hds : ∀ d ∈ ds, d.Says p .succeeded) :
    AccrualComplete uc p w ds ↔ accrualKept p ds = true := by
  rw [← accrualKept_iff hsh]
  refine forall_congr' fun ds₁ => forall_congr' fun ds₂ => forall_congr' fun h => ?_
  obtain ⟨hshow, hres⟩ := deliverAll_shows uc rfl hm ds₁ w _ (fun d hd => hds d (by simp [h, hd])) hw PayView.fresh_ok
  rw [hshow.creditedOnce, ← hres]
  simp

/-- **Accrual completeness holds of exactly the sequences that do not lose the accrual**: those in which the delivery
that makes the payment final also credits the partner, or is followed by no acknowledged one. -/
theorem accrualComplete_iff (uc : PaymentUseCase) {p : Payment} {w : PayWorld} (hw : w.db.Shows p .fresh)
    (hsh : p.hasShare = true) {ds : List Delivery} (hds : ∀ d ∈ ds, d.Says p .succeeded) :
    AccrualComplete uc p w ds ↔ uc.mismatch p = true ∨ accrualKept p ds = true := by
  cases hm : uc.mismatch p with
  | true =>
    refine ⟨fun _ => .inl rfl, fun _ ds₁ ds₂ h hack => ?_⟩
    exact absurd hack (deliverAll_mismatch hm rfl ds₁ w (fun d hd => hds d (by simp [h, hd])) hw)
  | false => simpa using accrualComplete_iff_kept hm hw hsh hds

theorem sampleWorld_shows : (sampleWorld .pending).db.Shows (samplePayment .pending) .fresh :=
  ⟨⟨_, List.mem_singleton.2 rfl, rfl, rfl⟩, rfl⟩

def sampleEvent (status : PaymentStatus) : WebhookEvent := ⟨"order-1", status, false, "", "", ""⟩

/-- A notification of the sample payment, under the given failures. -/
def sampleDelivery (status : PaymentStatus) (faults : PayFaults) : Delivery :=
  ⟨[], { calm 0 (fun _ => .ok (sampleEvent status)) with faults := faults }⟩

theorem sampleDelivery_says (status s : PaymentStatus) (faults : PayFaults) :
    (sampleDelivery status faults).Says (samplePayment s) status := ⟨_, rfl, rfl, rfl, rfl⟩

/-- The accrual fails once, and the retry is acknowledged without it. -/
def lostAccrual : List Delivery :=
  [sampleDelivery .succeeded { appendAccrual := .before "timeout" }, sampleDelivery .succeeded {}]

theorem lostAccrual_says : ∀ d ∈ lostAccrual, d.Says (samplePayment .pending) .succeeded := by
  intro d hd
  rcases List.mem_pair.1 hd with rfl | rfl <;> exact sampleDelivery_says _ _ _

theorem accrualComplete_iff_sample :
    AccrualComplete ⟨"alfa", 86400⟩ (samplePayment .pending) (sampleWorld .pending) lostAccrual ↔
      PaymentUseCase.mismatch ⟨"alfa", 86400⟩ (samplePayment .pending) = true ∨
        accrualKept (samplePayment .pending) lostAccrual = true :=
  accrualComplete_iff ⟨"alfa", 86400⟩ sampleWorld_shows (by decide) lostAccrual_says

theorem accrual_not_always_complete : ¬ ∀ (uc : PaymentUseCase) (p : Payment) (w : PayWorld) (ds : List Delivery),
    w.db.Shows p .fresh → p.hasShare = true → (∀ d ∈ ds, d.Says p .succeeded) → AccrualComplete uc p w ds := by
  intro h
  have hlost := h ⟨"alfa", 86400⟩ _ _ lostAccrual sampleWorld_shows (by decide) lostAccrual_says
  rw [accrualComplete_iff_kept (by decide) sampleWorld_shows (by decide) lostAccrual_says] at hlost
  exact absurd hlost (by decide)

/-! ## Refunds the provider reports -/

/-- What can happen to the payment: a notification from the provider, or a refund of its booking. -/
inductive PayAction where
  | webhook (d : Delivery)
  | refund (env : PayEnv)

namespace PayAction

/-- The provider's notifications are about the payment and final, and the database does not fail. -/
def Clean (p : Payment) : PayAction → Prop
  | .webhook d => (∃ s, d.Says p s ∧ s.isTerminal = true) ∧ d.env.faults = {}
  | .refund env => env.faults = {}

/-- The status a notification carries. -/
def said : PayAction → Option PaymentStatus
  | .webhook d =>
    match d.env.parse d.raw with
    | .ok ev => some ev.status
    | .error _ => none
  | .refund _ => none

/-- A refund the provider makes. -/
def isMade : PayAction → Bool
  | .webhook _ => false
  | .refund env => env.refund.answers

def run (uc : PaymentUseCase) (p : Payment) : PayAction → PayWorld → Option Err × PayWorld
  | .webhook d, w =>
    let r := (uc.handleWebhook d.raw).eval (PayOp.run d.env) w
    (r.1.2, r.2)
  | .refund env, w => (refundByBooking p.bookingID).eval (PayOp.run env) w

/-- The same on the view of the payment. -/
def step (p : Payment) (v : PayView) (a : PayAction) : Bool × PayView :=
  match a with
  | .webhook d => v.webhook p (a.said.getD .pending) d.env.faults
  | .refund env => v.refund env.refund

end PayAction

def runAll (uc : PaymentUseCase) (p : Payment) : List PayAction → PayWorld → PayWorld
  | [], w => w
  | a :: as, w => runAll uc p as (a.run uc p w).2

/-- The status of the last notification that was acknowledged. -/
def lastAcknowledged (uc : PaymentUseCase) (p : Payment) : List PayAction → PayWorld → Option PaymentStatus
  | [], _ => none
  | a :: as, w =>
    (lastAcknowledged uc p as (a.run uc p w).2).or (if (a.run uc p w).1 = none then a.said else none)

/-- A refund the provider reports last has reached the ledger: what it holds of the payment sums to zero. -/
def RefundReported (uc : PaymentUseCase) (p : Payment) (w : PayWorld) (as : List PayAction) : Prop :=
  lastAcknowledged uc p as w = some .refunded →
    (runAll uc p as w).db.ledger.sum (LedgerEntry.ofPayment p.id) (·.amountKopecks) = 0

/-- The status of the last notification. -/
def lastSaid : List PayAction → Option PaymentStatus
  | [] => none
  | a :: as => (lastSaid as).or a.said

/-- The first notification is no success, or a refund is made after it, or the last one reports no refund. -/
def refundReaches : List PayAction → Bool
  | [] => true
  | a :: as =>
    match a.said with
    | none => refundReaches as
    | some s => s != .succeeded || as.any PayAction.isMade || (lastSaid (a :: as)) != some .refunded

/-! ### On the view -/

theorem PayView.refund_ok {f : Fault Err} {v : PayView} (hv : v.Ok) : (v.refund f).2.Ok := by
  unfold PayView.refund
  split
  · exact hv
  split
  · exact hv
  · exact ⟨hv.pending, fun h => h⟩

theorem PayAction.step_ok {p : Payment} {v : PayView} {a : PayAction} (ha : a.Clean p) (hv : v.Ok) :
    (PayAction.step p v a).2.Ok := by
  cases a with
  | webhook d =>
    obtain ⟨⟨s, ⟨ev, hparse, -, -, rfl⟩, hterm⟩, -⟩ := ha
    exact PayView.webhook_ok (by simpa [PayAction.said, hparse] using hterm) hv
  | refund env => exact PayView.refund_ok hv

/-- **Notifications and refunds are steps of the view.** -/
theorem PayAction.run_shows (uc : PaymentUseCase) {p : Payment} (hm : uc.mismatch p = false) {a : PayAction}
    (ha : a.Clean p) {w : PayWorld} {v : PayView} (h : w.db.Shows p v) (hv : v.Ok) :
    (a.run uc p w).2.db.Shows p (PayAction.step p v a).2 ∧
      ((a.run uc p w).1 = none ↔ (PayAction.step p v a).1 = true) := by
  cases a with
  | webhook d =>
    obtain ⟨⟨s, ⟨ev, hparse, hpid, hcap, rfl⟩, hterm⟩, -⟩ := ha
    obtain ⟨res, w', hrun, hshow, hres, -⟩ := handleWebhook_shows uc d.env d.raw w h hv hparse hpid hcap hterm hm
    simp only [PayAction.run, PayAction.step, PayAction.said, hrun, hparse, Option.getD_some]
    exact ⟨hshow, hres⟩
  | refund env =>
    obtain ⟨res, w', hrun, hshow, hres⟩ := refundByBooking_shows ha w h hv
    simp only [PayAction.run, PayAction.step, hrun]
    exact ⟨hshow, hres⟩

/-- The entries of the payment sum to what the view holds. -/
theorem PaymentDB.Shows.sum {db : PaymentDB} {p : Payment} {v : PayView} (h : db.Shows p v) :
    db.ledger.sum (LedgerEntry.ofPayment p.id) (·.amountKopecks) = v.balance p.counterpartyNetKopecks := by
  have he := congrArg (fun l => (l.map Prod.snd).sum) h.entries
  simpa [PaymentDB.entriesOf, Table.sum, PayView.balance, Function.comp_def] using he

theorem PayView.balance_eq {v : PayView} (hv : v.Ok) (net : ℤ) :
    v.balance net = if v.credited && !v.reversed then net else 0 := by
  have hr := hv.reversed
  unfold PayView.balance PayView.entries
  cases hc : v.credited <;> cases hrev : v.reversed <;> simp_all

def PayView.runAll (p : Payment) : List PayAction → PayView → PayView
  | [], v => v
  | a :: as, v => PayView.runAll p as (PayAction.step p v a).2

def PayView.lastAcknowledged (p : Payment) : List PayAction → PayView → Option PaymentStatus
  | [], _ => none
  | a :: as, v =>
    (PayView.lastAcknowledged p as (PayAction.step p v a).2).or (if (PayAction.step p v a).1 then a.said else none)

theorem runAll_shows (uc : PaymentUseCase) {p : Payment} (hm : uc.mismatch p = false) :
    ∀ (as : List PayAction) (w : PayWorld) (v : PayView), (∀ a ∈ as, a.Clean p) → w.db.Shows p v → v.Ok →
      (runAll uc p as w).db.Shows p (v.runAll p as) ∧ (v.runAll p as).Ok ∧
      lastAcknowledged uc p as w = v.lastAcknowledged p as
  | [], _, _, _, h, hv => ⟨h, hv, rfl⟩
  | a :: as, w, v, ha, h, hv => by
    have hclean := ha a (by simp)
    obtain ⟨hshow, hres⟩ := PayAction.run_shows uc hm hclean h hv
    obtain ⟨ih1, ih2, ih3⟩ := runAll_shows uc hm as _ _ (fun x hx => ha x (by simp [hx])) hshow
      (PayAction.step_ok hclean hv)
    refine ⟨ih1, ih2, ?_⟩
    simp only [lastAcknowledged, PayView.lastAcknowledged, ih3, hres]

theorem PayAction.said_refund (env : PayEnv) : (PayAction.refund env).said = none := rfl

/-- A final payment: every notification is acknowledged, and a refund made takes the credit of a success back. -/
theorem PayView.runAll_final {p : Payment} :
    ∀ (as : List PayAction) (v : PayView), (∀ a ∈ as, a.Clean p) → v.status.isTerminal = true →
      v.lastAcknowledged p as = lastSaid as ∧
      v.runAll p as = { v with
        reversed := if v.status = .succeeded ∧ as.any PayAction.isMade = true then v.credited else v.reversed }
  | [], v, _, _ => by simp [PayView.lastAcknowledged, lastSaid, PayView.runAll]
  | .webhook d :: as, v, ha, hv => by
    obtain ⟨-, hf⟩ := ha (.webhook d) (by simp)
    have hstep : PayAction.step p v (.webhook d) = (true, v) := by
      rw [PayAction.step, PayView.webhook_final hv, Delivery.acknowledges, hf]
      rfl
    obtain ⟨ih1, ih2⟩ := PayView.runAll_final as v (fun x hx => ha x (by simp [hx])) hv
    simp only [PayView.lastAcknowledged, lastSaid, PayView.runAll, hstep, ih1, ih2, if_true, List.any_cons]
    simp [PayAction.isMade]
  | .refund env :: as, v, ha, hv => by
    have hsame : (PayAction.step p v (.refund env)).2.status = v.status ∧
        (PayAction.step p v (.refund env)).2.credited = v.credited ∧
        (PayAction.step p v (.refund env)).2.reversed =
          if v.status = .succeeded ∧ env.refund.answers = true then v.credited else v.reversed := by
      by_cases hs : v.status = .succeeded <;> cases hr : env.refund.answers <;>
        simp [PayAction.step, PayView.refund, hs, hr]
    obtain ⟨h1, h2, h3⟩ := hsame
    obtain ⟨ih1, ih2⟩ := PayView.runAll_final as (PayAction.step p v (.refund env)).2 (fun x hx => ha x (by simp [hx]))
      (by rw [h1]; exact hv)
    simp only [PayView.lastAcknowledged, lastSaid, PayView.runAll, ih1, ih2, PayAction.said_refund, ite_self, h1, h2, h3,
      List.any_cons, true_and, PayAction.isMade]
    congr 1
    by_cases hs : v.status = .succeeded <;> by_cases hr : env.refund.answers = true <;> simp [hs, hr]

/-- A payment the ledger cannot credit is not credited. -/
theorem PayView.runAll_uncredited {p : Payment} (hcr : p.creditable = false) :
    ∀ (as : List PayAction) (v : PayView), v.credited = false → (v.runAll p as).credited = false
  | [], _, hc => hc
  | a :: as, v, hc => by
    refine PayView.runAll_uncredited hcr as _ ?_
    cases a with
    | webhook d =>
      simp only [PayAction.step, PayView.webhook]
      split_ifs <;> simp [hc, hcr]
    | refund env =>
      simp only [PayAction.step, PayView.refund]
      split_ifs <;> exact hc

/-- On the view: if the last acknowledged notification reports a refund, nothing is left of the credit. -/
theorem refundReaches_iff {p : Payment} (hcr : p.creditable = true) :
    ∀ as : List PayAction, (∀ a ∈ as, a.Clean p) →
      ((PayView.fresh.lastAcknowledged p as = some .refunded →
        ((PayView.fresh.runAll p as).credited && !(PayView.fresh.runAll p as).reversed) = false) ↔
      refundReaches as = true)
  | [], _ => by simp [PayView.lastAcknowledged, refundReaches]
  | .refund env :: as, ha => by
    have hstep : PayAction.step p .fresh (.refund env) = (true, .fresh) := rfl
    have ih := refundReaches_iff hcr as (fun x hx => ha x (by simp [hx]))
    simpa [PayView.lastAcknowledged, PayView.runAll, hstep, refundReaches, PayAction.said_refund] using ih
  | .webhook d :: as, ha => by
    obtain ⟨⟨s, ⟨ev, hparse, -, -, rfl⟩, hterm⟩, hf⟩ := ha (.webhook d) (by simp)
    have hsaid : (PayAction.webhook d).said = some ev.status := by simp [PayAction.said, hparse]
    have hstep : PayAction.step p .fresh (.webhook d) = (true, ⟨ev.status, ev.status == .succeeded, false⟩) := by
      rw [PayAction.step, hsaid, hf]
      cases ev.status <;>
        simp [PayView.webhook, PayView.fresh, Fault.answers, Fault.lands, PaymentStatus.isTerminal, hcr,
          Payment.hasShare_of_creditable hcr]
    obtain ⟨h1, h2⟩ := PayView.runAll_final (p := p) as ⟨ev.status, ev.status == .succeeded, false⟩
      (fun x hx => ha x (by simp [hx])) hterm
    simp only [PayView.lastAcknowledged, PayView.runAll, hstep, h1, h2, if_true, refundReaches, lastSaid, hsaid]
    by_cases hs : ev.status = .succeeded <;> cases hmade : as.any PayAction.isMade <;> simp [hs]

/-- A payment of another provider has no acknowledged notification. -/
theorem lastAcknowledged_mismatch {uc : PaymentUseCase} {p : Payment} (hm : uc.mismatch p = true) :
    ∀ (as : List PayAction) (w : PayWorld), (∀ a ∈ as, a.Clean p) → w.db.Shows p .fresh →
      lastAcknowledged uc p as w = none
  | [], _, _, _ => rfl
  | .webhook d :: as, w, ha, h => by
    obtain ⟨⟨s, ⟨ev, hparse, hpid, hcap, rfl⟩, hterm⟩, -⟩ := ha (.webhook d) (by simp)
    obtain ⟨res, hrun, hres⟩ := handleWebhook_mismatch uc d.env d.raw w h hparse hpid hcap hterm hm
    have ih := lastAcknowledged_mismatch hm as w (fun x hx => ha x (by simp [hx])) h
    simp [lastAcknowledged, PayAction.run, hrun, ih, hres]
  | .refund env :: as, w, ha, h => by
    obtain ⟨res, w', hrun, hshow, -⟩ := refundByBooking_shows (ha (.refund env) (by simp)) w h PayView.fresh_ok
    have ih := lastAcknowledged_mismatch hm as w' (fun x hx => ha x (by simp [hx])) hshow
    simp [lastAcknowledged, PayAction.run, hrun, ih, PayAction.said_refund]

theorem refundReported_iff_reaches {uc : PaymentUseCase} {p : Payment} (hm : uc.mismatch p = false)
    (hcr : p.creditable = true) {w : PayWorld} (hw : w.db.Shows p .fresh) {as : List PayAction}
    (has : ∀ a ∈ as, a.Clean p) : RefundReported uc p w as ↔ refundReaches as = true := by
  have hnet : p.counterpartyNetKopecks ≠ 0 := by
    have := (Payment.hasShare_iff.1 (Payment.hasShare_of_creditable hcr)).2
    omega
  obtain ⟨hshow, hok, hlast⟩ := runAll_shows uc hm as w _ has hw PayView.fresh_ok
  rw [← refundReaches_iff hcr as has, RefundReported, hlast, hshow.sum, PayView.balance_eq hok]
  refine imp_congr_right fun _ => ?_
  cases (PayView.fresh.runAll p as).credited && !(PayView.fresh.runAll p as).reversed <;> simp [hnet]

/-- **A refund the provider reports reaches the ledger in exactly the sequences in which it has nothing to do there**: the
payment was not credited by the first notification, or a refund of the booking is made after it. -/
theorem refundReported_iff (uc : PaymentUseCase) {p : Payment} {w : PayWorld} (hw : w.db.Shows p .fresh)
    {as : List PayAction} (has : ∀ a ∈ as, a.Clean p) :
    RefundReported uc p w as ↔ uc.mismatch p = true ∨ p.creditable = false ∨ refundReaches as = true := by
  cases hm : uc.mismatch p with
  | true => simp [RefundReported, lastAcknowledged_mismatch hm as w has hw]
  | false =>
    cases hcr : p.creditable with
    | true => simpa using refundReported_iff_reaches hm hcr hw has
    | false =>
      obtain ⟨hshow, hok, -⟩ := runAll_shows uc hm as w _ has hw PayView.fresh_ok
      simp [RefundReported, hshow.sum, PayView.balance_eq hok, PayView.runAll_uncredited hcr as .fresh rfl]

/-! ### The bank's statuses -/

namespace Alfa

def rbsDeposited : ℤ := 2
def rbsReversed : ℤ := 3
def rbsRefunded : ℤ := 4
def rbsDeclined : ℤ := 6

def mapStatus (s : ℤ) : PaymentStatus :=
  if s = rbsDeposited then .succeeded
  else if s = rbsRefunded then .refunded
  else if s = rbsReversed ∨ s = rbsDeclined then .cancelled
  else .pending

/-- The event made of a callback about an order, once the order's status has been pulled from the bank. -/
def webhookEvent (orderID : String) (orderStatus : ℤ) : WebhookEvent where
  providerPaymentID := orderID
  status := mapStatus orderStatus
  requiresCapture := false
  captureKey := ""
  rawEvent := "alfa.callback"
  rawProviderStatus := toString orderStatus

/-- A callback about the sample order. -/
def callback (orderStatus : ℤ) : Delivery := ⟨[], calm 0 fun _ => .ok (webhookEvent "order-1" orderStatus)⟩

/-- The bank has the order paid, then paid back. -/
def paidBack : List PayAction := [.webhook (callback rbsDeposited), .webhook (callback rbsRefunded)]

theorem paidBack_clean : ∀ a ∈ paidBack, a.Clean (samplePayment .pending) := by
  intro a ha
  rcases List.mem_pair.1 ha with rfl | rfl
  · exact ⟨⟨.succeeded, ⟨_, rfl, rfl, rfl, rfl⟩, rfl⟩, rfl⟩
  · exact ⟨⟨.refunded, ⟨_, rfl, rfl, rfl, rfl⟩, rfl⟩, rfl⟩

end Alfa

theorem refundReported_iff_sample :
    RefundReported ⟨"alfa", 86400⟩ (samplePayment .pending) (sampleWorld .pending) Alfa.paidBack ↔
      PaymentUseCase.mismatch ⟨"alfa", 86400⟩ (samplePayment .pending) = true ∨
        (samplePayment .pending).creditable = false ∨ refundReaches Alfa.paidBack = true :=
  refundReported_iff ⟨"alfa", 86400⟩ sampleWorld_shows Alfa.paidBack_clean

theorem refund_not_always_reported : ¬ ∀ (uc : PaymentUseCase) (p : Payment) (w : PayWorld) (as : List PayAction),
    w.db.Shows p .fresh → p.hasShare = true → (∀ a ∈ as, a.Clean p) → RefundReported uc p w as := by
  intro h
  have hback := h ⟨"alfa", 86400⟩ _ _ Alfa.paidBack sampleWorld_shows (by decide) Alfa.paidBack_clean
  rw [refundReported_iff_reaches (by decide) (by decide) sampleWorld_shows Alfa.paidBack_clean] at hback
  exact absurd hback (by decide)

end Agregator
