import Agregator.PayoutSafe
import Agregator.ConcTrace
/-!
# PayoutAcked — an acknowledged payout webhook

A delivery that is acknowledged is not sent again.  A payout learns the provider's id only after the bank has answered, and
until then a delivery of its event finds no row, which `HandlePayoutWebhook` acknowledges as an event of somebody else's.
Where every delivery finds its row, the row of an acknowledged one has come to the end the event announces.
-/
namespace Agregator

open Rel Conc

namespace PayoutWorld

/-- The payout has been succeeded or failed, as the event of its transfer says, and a failed one is given back. -/
def Settled (w : PayoutWorld) (ev : PayoutWebhookEvent) : Prop :=
  ∃ q ∈ w.db.payouts.rows, (∃ t ∈ w.bank.transfers.rows, t.id = ev.providerPayoutID ∧ t.key = q.idempotencyKey) ∧
    (ev.status = .succeeded → q.status = .succeeded) ∧
    (ev.status = .failed → q.status = .failed ∧
      ∃ e, w.db.adjustments q.id = [e] ∧ e.amountKopecks = q.amountKopecks ∧ e.partner = q.partner)

end PayoutWorld

/-- A delivery of the event has been acknowledged. -/
def Acked (ts : List (Thread PayoutCall PayoutOp PayoutOp.Res (Option Err))) (ev : PayoutWebhookEvent) : Prop :=
  ∃ t ∈ ts, ∃ raw, t.call = .handlePayoutWebhook raw ∧ ⟨.parsePayoutWebhook raw, .ok (some ev)⟩ ∈ t.did ∧ t.rest = .ret none

/-- Once every call has returned, an acknowledged event that is final has had its effect. -/
def NoneLost (c : Config PayoutWorld PayoutCall PayoutOp PayoutOp.Res (Option Err)) : Prop :=
  (∀ t ∈ c.threads, ∃ a, t.rest = .ret a) → ∀ ev, ev.status ≠ .pending → Acked c.threads ev → c.world.Settled ev

/-- A delivery of a final event does not miss its row. -/
def webhookFinds (did : List (Event PayoutOp PayoutOp.Res)) : Event PayoutOp PayoutOp.Res → Prop
  | ⟨.getByProviderPayoutID _, .error err⟩ => err.code = .notFound →
      ∀ raw ev, ⟨.parsePayoutWebhook raw, .ok (some ev)⟩ ∈ did → ev.status = .pending
  | _ => True

/-! ## What the answers have told -/

namespace PayoutWorld

/-- A payout succeeds only with its transfer. -/
def Carried (w : PayoutWorld) : Prop := ∀ q ∈ w.db.payouts.rows, q.status = .succeeded →
  ∃ t ∈ w.bank.transfers.rows, t.key = q.idempotencyKey ∧ t.status = .succeeded

/-- The row of the id has the key. -/
def Named (w : PayoutWorld) (id key : String) : Prop := ∃ q ∈ w.db.payouts.rows, q.id = id ∧ q.idempotencyKey = key

/-- The row a reconciliation starts from is still there. -/
def Starts (c : PayoutCall) (w : PayoutWorld) : Prop := ∀ p, c = .reconcileOne p → w.Named p.id p.idempotencyKey

/-- The payout of the id is final. -/
def Final (w : PayoutWorld) (id : String) : Prop := ∃ q ∈ w.db.payouts.rows, q.id = id ∧ q.status.isTerminal = true

/-- A transfer of which `sel` holds has the status, if that is a final one. -/
def Says (w : PayoutWorld) (sel : Transfer → Prop) (status : ProviderStatus) : Prop :=
  ∃ t ∈ w.bank.transfers.rows, sel t ∧ (status ≠ .pending → t.status = status)

/-- What an answer says of the world, and goes on saying. -/
def Told (w : PayoutWorld) : Event PayoutOp PayoutOp.Res → Prop
  | ⟨.createPendingWithLedger p, .ok q⟩ => w.Named q.id p.idempotencyKey
  | ⟨.createPayout req, .ok result⟩ => w.Says (fun t => t.key = req.idempotencyKey) result.status
  | ⟨.parsePayoutWebhook _, .ok (some ev)⟩ => w.Says (fun t => t.id = ev.providerPayoutID) ev.status
  | ⟨.getByProviderPayoutID pid, .ok p⟩ =>
      ∃ t ∈ w.bank.transfers.rows, t.id = pid ∧ w.Named p.id t.key
  | ⟨.markSucceeded id _, .ok _⟩ | ⟨.markFailedWithReversal id _ _, .ok _⟩ => w.Final id
  | _ => True

variable {w w' : PayoutWorld}

theorem Named.goes {id key : String} (h : w.Named id key) (hg : w.goes w') : w'.Named id key := by
  obtain ⟨q, hq, hid, hk⟩ := h
  obtain ⟨q', hq', hf⟩ := hg.1 q hq
  exact ⟨q', hq', hf.id.trans hid, hf.key.trans hk⟩

theorem Starts.goes {c : PayoutCall} (h : Starts c w) (hg : w.goes w') : Starts c w' := fun p hp => (h p hp).goes hg

theorem Final.goes {id : String} (h : w.Final id) (hg : w.goes w') : w'.Final id := by
  obtain ⟨q, hq, hid, hst⟩ := h
  obtain ⟨q', hq', hf⟩ := hg.1 q hq
  exact ⟨q', hq', hf.id.trans hid, by rw [hf.final hst]; exact hst⟩

theorem Says.goes {sel : Transfer → Prop} {status : ProviderStatus} (h : w.Says sel status)
    (hsel : ∀ t t', t'.request = t.request → t'.id = t.id → sel t → sel t') (hg : w.goes w') : w'.Says sel status := by
  obtain ⟨t, ht, hs, hst⟩ := h
  obtain ⟨t', ht', hr, hi, hfin⟩ := hg.2.transfers t ht
  refine ⟨t', ht', hsel t t' hr hi hs, fun hne => ?_⟩
  have := hst hne
  rw [hfin (by rw [this]; exact hne), this]

theorem Told.goes {e : Event PayoutOp PayoutOp.Res} (h : w.Told e) (hg : w.goes w') : w'.Told e := by
  unfold Told at h ⊢
  split at h
  · exact h.goes hg
  · exact h.goes (fun t t' hr _ hk => by rw [Transfer.key, hr]; exact hk) hg
  · exact h.goes (fun t t' _ hi hid => hi.trans hid) hg
  · obtain ⟨t, ht, hid, hn⟩ := h
    obtain ⟨t', ht', hr, hi, -⟩ := hg.2.transfers t ht
    refine ⟨t', ht', hi.trans hid, ?_⟩
    rw [Transfer.key, hr]
    exact hn.goes hg
  · exact h.goes hg
  · exact h.goes hg
  · trivial

end PayoutWorld

namespace PayoutRepo

/-- A payout that was marked as succeeded is final. -/
theorem markSucceeded_final {now : Time} {id : String} {at' : Time} {b : Bool} {db db' : PaymentDB} {q : Payout}
    (hq : q ∈ db.payouts.rows) (hid : q.id = id) (h : markSucceeded now id at' db = (.ok b, db')) :
    ∃ q' ∈ db'.payouts.rows, q'.id = id ∧ q'.status.isTerminal = true := by
  unfold markSucceeded at h
  rw [uuidParam_ok (by rw [← hid]; exact Payout.isUUID_id hq)] at h
  dsimp only at h
  split at h
  · cases h
  rename_i t ht
  obtain rfl : { db with payouts := t } = db' := congrArg Prod.snd h
  by_cases hst : q.status.isTerminal = true
  · refine ⟨q, ?_, hid, hst⟩
    rw [Table.update_rows ht]
    exact List.mem_map.2 ⟨q, hq, by simp [guarded, hst]⟩
  · refine ⟨{ q with status := .succeeded, completedAt := some at', updatedAt := now }, ?_, hid, rfl⟩
    rw [Table.update_rows ht]
    exact List.mem_map.2 ⟨q, hq, by simp [guarded, hst, hid]⟩

/-- A payout that was marked as failed is final. -/
theorem markFailedWithReversal_final {now : Time} {id reason : String} {at' : Time} {b : Bool} {db db' : PaymentDB}
    (h : markFailedWithReversal now id reason at' db = (.ok b, db')) :
    ∃ q' ∈ db'.payouts.rows, q'.id = id ∧ q'.status.isTerminal = true := by
  unfold markFailedWithReversal at h
  rcases uuidParam_cases id with ⟨hu, -⟩ | ⟨e, hu, -⟩
  swap
  · rw [hu] at h
    cases h
  rw [hu] at h
  dsimp only at h
  split at h
  · cases h
  rename_i p hget
  obtain ⟨hp, hid⟩ := Table.get_mem hget
  rw [beq_iff_eq] at hid
  split at h
  · rename_i hst
    obtain rfl : db = db' := congrArg Prod.snd h
    exact ⟨p, hp, hid, hst⟩
  split at h
  · cases h
  rename_i t ht
  obtain ⟨e, he, -⟩ | ⟨e, he, -⟩ | ⟨l, he, -, -⟩ := appendLedgerEntry_cases now (credit p reason) { db with payouts := t }
  · rw [he] at h
    cases h
  · rw [he] at h
    cases h
  · rw [he] at h
    obtain rfl : { db with payouts := t, ledger := l } = db' := congrArg Prod.snd h
    refine ⟨{ p with status := .failed, failureReason := reason, completedAt := some at', updatedAt := now }, ?_, hid, rfl⟩
    dsimp only
    rw [Table.update_rows ht]
    exact List.mem_map.2 ⟨p, hp, by simp [hid]⟩

end PayoutRepo

/-! ## Before a payout is marked as succeeded -/

/-- A row the call has seen under this id has this key. -/
def Names (c : PayoutCall) (h : List (Event PayoutOp PayoutOp.Res)) (id key : String) : Prop :=
  (∃ p, c = .reconcileOne p ∧ p.id = id ∧ p.idempotencyKey = key) ∨
  ∃ payout p, ⟨.createPendingWithLedger payout, .ok p⟩ ∈ h ∧ p.id = id ∧ payout.idempotencyKey = key

/-- The bank has told the call that the transfer of the payout has succeeded. -/
def Confirmed (c : PayoutCall) (h : List (Event PayoutOp PayoutOp.Res)) (id : String) : Prop :=
  (∃ raw ev p, ⟨.parsePayoutWebhook raw, .ok (some ev)⟩ ∈ h ∧ ev.status = .succeeded ∧
    ⟨.getByProviderPayoutID ev.providerPayoutID, .ok p⟩ ∈ h ∧ p.id = id) ∨
  ∃ req result, ⟨.createPayout req, .ok result⟩ ∈ h ∧ result.status = .succeeded ∧ Names c h id req.idempotencyKey

/-- What a call has behind it before an operation. -/
def priorTo (c : PayoutCall) (h : List (Event PayoutOp PayoutOp.Res)) : PayoutOp → Prop
  | .markSucceeded id _ => Confirmed c h id
  | .createPendingWithLedger p => p.status = .unset
  | .getByProviderPayoutID _ => ∃ raw, c = .handlePayoutWebhook raw
  | _ => True

section Prior

variable {c : PayoutCall} {h : List (Event PayoutOp PayoutOp.Res)}

theorem giveUp_prior (id reason : String) (both : Err → Err) (done : Option Err) :
    (giveUp id reason both done).After (priorTo c) h := by
  refine ⟨trivial, fun now => ⟨trivial, fun r => ?_⟩⟩
  cases r <;> trivial

theorem takeResult_prior {ctx id : String} {req : PayoutRequest} {result : PayoutResult}
    (hr : ⟨.createPayout req, .ok result⟩ ∈ h) (hn : Names c h id req.idempotencyKey) :
    (takeResult ctx id result).After (priorTo c) h := by
  simp only [takeResult, Prog.bind_eq, Prog.perform_bind]
  refine ⟨trivial, fun r => ?_⟩
  cases r with
  | error err => trivial
  | ok u =>
  dsimp only
  cases hst : result.status with
  | pending => trivial
  | succeeded =>
    refine ⟨trivial, fun now => ⟨.inr ⟨req, result, by simp [hr], hst, ?_⟩, fun r => by cases r <;> trivial⟩⟩
    rcases hn with hn | ⟨payout, p, hp, hid, hk⟩
    · exact .inl hn
    · exact .inr ⟨payout, p, by simp [hp], hid, hk⟩
  | failed => exact ⟨trivial, fun now => ⟨trivial, fun r => by cases r <;> trivial⟩⟩

theorem reconcileOne_prior (p : Payout) : (reconcileOne p).After (priorTo (.reconcileOne p)) h := by
  simp only [reconcileOne, Prog.bind_eq, Prog.perform_bind]
  refine ⟨trivial, fun r => ?_⟩
  cases r with
  | error err => exact giveUp_prior _ _ _ _
  | ok method =>
  refine ⟨trivial, fun r => ?_⟩
  cases r with
  | ok result =>
    exact takeResult_prior (show (⟨.createPayout (payoutRequest p.amountKopecks p.currency p.idempotencyKey method p.partner),
      .ok result⟩ : Event PayoutOp PayoutOp.Res) ∈ _ by simp) (.inl ⟨p, rfl, rfl, rfl⟩)
  | error err =>
    dsimp only
    split
    · trivial
    · exact giveUp_prior _ _ _ _

theorem coolingDown_all (uc : PayoutUseCase) (ref : PartnerRef) :
    (uc.coolingDown ref).All (fun o => ∀ h, priorTo c h o) := by
  unfold PayoutUseCase.coolingDown
  split
  swap
  · trivial
  refine ⟨fun _ => trivial, fun r => ?_⟩
  cases r with
  | error err => trivial
  | ok last =>
  cases last with
  | none => trivial
  | some last => exact ⟨fun _ => trivial, fun _ => trivial⟩

theorem payoutPartner_prior (uc : PayoutUseCase) (ref : PartnerRef) : (uc.payoutPartner ref).After (priorTo c) h := by
  simp only [PayoutUseCase.payoutPartner, Prog.bind_eq, Prog.perform_bind]
  refine ⟨trivial, fun r => ?_⟩
  cases r with
  | error err => trivial
  | ok balance =>
  dsimp only
  split
  · trivial
  refine Prog.After.bind (fun h r => ?_) (coolingDown_all uc ref).after
  cases r with
  | error err => trivial
  | ok cooling =>
  cases cooling with
  | true => trivial
  | false =>
  refine ⟨trivial, fun r => ?_⟩
  cases r with
  | error err => dsimp only; split <;> trivial
  | ok method =>
  refine ⟨trivial, fun payoutID => ⟨rfl, fun r => ?_⟩⟩
  cases r with
  | error err => dsimp only; split <;> trivial
  | ok p =>
  refine ⟨trivial, fun r => ?_⟩
  cases r with
  | ok result =>
    exact takeResult_prior (show (⟨.createPayout (payoutRequest balance.availableKopecks "RUB"
        (uc.newPayout ref balance.availableKopecks method payoutID).idempotencyKey method ref),
      .ok result⟩ : Event PayoutOp PayoutOp.Res) ∈ _ by simp)
      (.inr ⟨uc.newPayout ref balance.availableKopecks method payoutID, p, by simp, rfl, rfl⟩)
  | error err =>
    dsimp only
    split
    · trivial
    · exact giveUp_prior _ _ _ _

theorem handlePayoutWebhook_prior (uc : PayoutUseCase) (raw : RawBody) :
    (uc.handlePayoutWebhook raw).After (priorTo (.handlePayoutWebhook raw)) h := by
  simp only [PayoutUseCase.handlePayoutWebhook, Prog.bind_eq, Prog.perform_bind]
  refine ⟨trivial, fun r => ?_⟩
  cases r with
  | error err => trivial
  | ok parsed =>
  cases parsed with
  | none => trivial
  | some event =>
  refine ⟨⟨raw, rfl⟩, fun r => ?_⟩
  cases r with
  | error err => dsimp only; split <;> trivial
  | ok p =>
  dsimp only
  split
  · trivial
  cases hst : event.status with
  | pending => trivial
  | succeeded =>
    refine ⟨trivial, fun now => ⟨.inl ⟨raw, event, p, by simp, hst, by simp, rfl⟩, fun r => ?_⟩⟩
    cases r <;> trivial
  | failed =>
    refine ⟨trivial, fun now => ⟨trivial, fun r => ?_⟩⟩
    cases r <;> trivial

theorem PayoutCall.prog_prior (uc : PayoutUseCase) (c : PayoutCall) : (c.prog uc).After (priorTo c) [] := by
  cases c with
  | payoutPartner ref => exact payoutPartner_prior uc ref
  | reconcileOne p => exact reconcileOne_prior p
  | handlePayoutWebhook raw => exact Prog.After.bind (f := fun r => .ret r.2) (fun _ _ => trivial) (handlePayoutWebhook_prior uc raw)

end Prior

/-! ## What a delivery has done when it is acknowledged -/

/-- The payout of the event has been looked up and marked. -/
def Applied (h : List (Event PayoutOp PayoutOp.Res)) (ev : PayoutWebhookEvent) : Prop :=
  ∃ p, ⟨.getByProviderPayoutID ev.providerPayoutID, .ok p⟩ ∈ h ∧
    ((∃ at' b, ⟨.markSucceeded p.id at', .ok b⟩ ∈ h) ∨ ∃ reason at' b, ⟨.markFailedWithReversal p.id reason at', .ok b⟩ ∈ h)

/-- The payout of the event has been looked up and not found. -/
def Missed (h : List (Event PayoutOp PayoutOp.Res)) (ev : PayoutWebhookEvent) : Prop :=
  ∃ h₁ h₂ err raw, h = h₁ ++ ⟨.getByProviderPayoutID ev.providerPayoutID, .error err⟩ :: h₂ ∧ err.code = .notFound ∧
    ⟨.parsePayoutWebhook raw, .ok (some ev)⟩ ∈ h₁

theorem handlePayoutWebhook_ends (uc : PayoutUseCase) (raw : RawBody) :
    (uc.handlePayoutWebhook raw).Ends (fun h r => r.2 = none → ∀ ev, ⟨.parsePayoutWebhook raw, .ok (some ev)⟩ ∈ h →
      ev.status ≠ .pending → Applied h ev ∨ Missed h ev) [] := by
  simp only [PayoutUseCase.handlePayoutWebhook, Prog.bind_eq, Prog.perform_bind]
  intro r
  cases r with
  | error err => simp [Prog.Ends]
  | ok parsed =>
  cases parsed with
  | none => simp [Prog.Ends]
  | some event =>
  intro r
  cases r with
  | error err =>
    dsimp only
    split
    · rename_i hnf
      intro _ ev hev _
      obtain rfl : ev = event := by simpa using hev
      exact .inr ⟨[⟨.parsePayoutWebhook raw, .ok (some ev)⟩], [], err, raw, rfl, hnf, by simp⟩
    · intro h
      cases h
  | ok p =>
  dsimp only
  split
  · intro h
    cases h
  cases hst : event.status with
  | pending =>
    intro _ ev hev hne
    obtain rfl : ev = event := by simpa using hev
    exact absurd hst hne
  | succeeded =>
    intro now r
    cases r with
    | error err =>
      intro h
      cases h
    | ok b =>
      intro _ ev hev _
      obtain rfl : ev = event := by simpa using hev
      exact .inl ⟨p, by simp, .inl ⟨now, b, by simp⟩⟩
  | failed =>
    intro now r
    cases r with
    | error err =>
      intro h
      cases h
    | ok b =>
      intro _ ev hev _
      obtain rfl : ev = event := by simpa using hev
      exact .inl ⟨p, by simp, .inr ⟨ev.failureReason, now, b, by simp⟩⟩

theorem PayoutCall.prog_ends (uc : PayoutUseCase) (c : PayoutCall) :
    (c.prog uc).Ends (fun h a => ∀ raw, c = .handlePayoutWebhook raw → a = none → ∀ ev,
      ⟨.parsePayoutWebhook raw, .ok (some ev)⟩ ∈ h → ev.status ≠ .pending → Applied h ev ∨ Missed h ev) [] := by
  cases c with
  | payoutPartner ref => exact .of_forall (fun _ _ => nofun) _ _
  | reconcileOne p => exact .of_forall (fun _ _ => nofun) _ _
  | handlePayoutWebhook raw =>
    refine Prog.Ends.bind (f := fun r : Option PayoutWebhookEvent × Option Err => .ret r.2) ?_
    refine (handlePayoutWebhook_ends uc raw).mono fun h r hr raw' hc => ?_
    cases hc
    exact hr

/-! ## One step -/

namespace PayoutWorld

variable {w w' : PayoutWorld}

theorem createPayout_says {env : PayoutEnv} {req : PayoutRequest} {result : PayoutResult}
    (he : PayoutOp.run env (.createPayout req) w = (.ok result, w')) :
    w'.Says (fun t => t.key = req.idempotencyKey) result.status := by
  have hrun := Fault.of_ok he
  simp only [onBank, Prod.mk.injEq] at hrun
  obtain ⟨hr, rfl⟩ := hrun
  rcases Bank.createPayout_cases env.choice req w.bank with
    ⟨t, ht, hk, hc⟩ | ⟨e, -, -, ⟨-, hc⟩ | hc⟩ | ⟨t, ts, hreq, -, hins, hc⟩ | ⟨e, -, hc⟩
  · rw [hc] at hr ⊢
    cases hr
    exact ⟨t, ht, hk, fun _ => rfl⟩
  · rw [hc] at hr
    cases hr
  · rw [hc] at hr
    cases hr
  · rw [hc] at hr ⊢
    cases hr
    exact ⟨t, by simp [Table.insert_rows hins], congrArg PayoutRequest.idempotencyKey hreq, fun _ => rfl⟩
  · rw [hc] at hr
    cases hr

/-- The row a call has confirmed the transfer of. -/
theorem row_of_confirmed {c : PayoutCall} {h : List (Event PayoutOp PayoutOp.Res)} {id : String} (hc : Confirmed c h id)
    (ht : ∀ e ∈ h, w.Told e) (hready : Starts c w) :
    ∃ q ∈ w.db.payouts.rows, q.id = id ∧ ∃ t ∈ w.bank.transfers.rows, t.key = q.idempotencyKey ∧ t.status = .succeeded := by
  have hnamed : ∀ {key}, Names c h id key → w.Named id key := by
    rintro key (⟨p, hrec, rfl, rfl⟩ | ⟨payout, p, hp, rfl, rfl⟩)
    · exact hready p hrec
    · exact ht _ hp
  rcases hc with ⟨raw, ev, p, hev, hst, hp, rfl⟩ | ⟨req, result, hr, hst, hn⟩
  · obtain ⟨t, htr, hid, q, hq, hqid, hk⟩ := ht _ hp
    obtain ⟨t', ht', hid', hs⟩ := ht _ hev
    have heq : t' = t := w.bank.transfers.eq_of_clash ht' htr (Bank.clash_of_id (hid'.trans hid.symm))
    rw [heq, hst] at hs
    exact ⟨q, hq, hqid, t, htr, hk.symm, hs nofun⟩
  · obtain ⟨q, hq, hqid, hk⟩ := hnamed hn
    obtain ⟨t, htr, htk, hs⟩ := ht _ hr
    rw [hst] at hs
    exact ⟨q, hq, hqid, t, htr, htk.trans hk.symm, hs nofun⟩

/-- **What is answered is so**, when the call has behind it what it must have. -/
theorem told_of_exec {c : PayoutCall} {h : List (Event PayoutOp PayoutOp.Res)} {o : PayoutOp} {r : o.Res} (hk : w.Kept)
    (hp : priorTo c h o) (ht : ∀ e ∈ h, w.Told e) (hready : Starts c w)
    (he : PayoutOp.Exec o w r w') : w'.Told ⟨o, r⟩ := by
  cases o with
  | createPendingWithLedger p =>
    cases r with
    | error err => trivial
    | ok q =>
      obtain ⟨-, -, hmade⟩ := exec_create hk hp he
      obtain ⟨hq, hkey, -, -⟩ := hmade q rfl
      exact ⟨q, hq, rfl, hkey⟩
  | createPayout req =>
    cases r with
    | error err => trivial
    | ok result =>
      obtain ⟨env, he⟩ := he
      exact createPayout_says he
  | parsePayoutWebhook raw =>
    obtain ⟨env, he⟩ := he
    obtain ⟨hr, rfl⟩ : w.bank.parsePayoutWebhook (env.parse raw) = r ∧ w = w' := by simpa [PayoutOp.run] using he
    cases r with
    | error err => trivial
    | ok parsed =>
    cases parsed with
    | none => trivial
    | some ev =>
      obtain ⟨t, ht, hid, hst⟩ := Bank.parsePayoutWebhook_confirmed hr
      exact ⟨t, ht, hid, fun _ => hst⟩
  | getByProviderPayoutID pid =>
    cases r with
    | error err => trivial
    | ok p =>
      obtain ⟨env, he⟩ := he
      obtain ⟨rfl, hget⟩ := onPayouts_read he
      have hrow := hget p rfl
      simp only [PayoutRepo.getByProviderPayoutID, PayoutRepo.scanOne] at hrow
      split at hrow
      · rename_i q hq
        cases hrow
        obtain ⟨hq, hpid⟩ := Table.get_mem hq
        obtain ⟨t, ht, hkey, hid⟩ := hk.known p hq pid (by simpa using hpid)
        exact ⟨t, ht, hid, p, hq, rfl, hkey.symm⟩
      · cases hrow
  | markSucceeded id at' =>
    cases r with
    | error err => trivial
    | ok b =>
      obtain ⟨q, hq, hid, -⟩ := row_of_confirmed hp ht hready
      obtain ⟨env, he⟩ := he
      exact PayoutRepo.markSucceeded_final hq hid ((onPayouts_db he).2.2 b rfl)
  | markFailedWithReversal id reason at' =>
    cases r with
    | error err => trivial
    | ok b =>
      obtain ⟨env, he⟩ := he
      exact PayoutRepo.markFailedWithReversal_final ((onPayouts_db he).2.2 b rfl)
  | balance ref => trivial
  | lastPayoutAt ref => trivial
  | getActiveMethod ref => trivial
  | getMethodByID id => trivial
  | markProcessing id pid => trivial
  | newUUID => trivial
  | now => trivial

/-- The transaction marks a payout as succeeded only with its transfer. -/
def Backs (w : PayoutWorld) : LedgerOp → Prop
  | .createPendingWithLedger _ _ p => p.status = .unset
  | .markSucceeded _ id _ => ∃ q ∈ w.db.payouts.rows, q.id = id ∧
      ∃ t ∈ w.bank.transfers.rows, t.key = q.idempotencyKey ∧ t.status = .succeeded
  | _ => True

theorem Carried.ledger (h : w.Carried) {o : LedgerOp} (ho : w.Backs o) :
    ({ w with db := o.apply w.db } : PayoutWorld).Carried := by
  unfold Carried at h ⊢
  dsimp only
  cases o with
  | appendAccrual now e =>
    rcases LedgerRepo.appendAccrual_cases now e w.db with ⟨_, he, -⟩ | ⟨_, he, -⟩ | ⟨l, he, -⟩ <;>
      rw [LedgerOp.apply, he] <;> exact h
  | appendReversal now e =>
    rcases LedgerRepo.appendReversal_cases now e w.db with ⟨_, he, -⟩ | ⟨_, he, -⟩ | ⟨l, he, -⟩ <;>
      rw [LedgerOp.apply, he] <;> exact h
  | createPendingWithLedger now gen p =>
    rcases PayoutRepo.createPendingWithLedger_cases now gen p w.db with ⟨_, he⟩ | ⟨id, t, l, he, -, -, ht, -⟩
    · rw [LedgerOp.apply, he]
      exact h
    · rw [LedgerOp.apply, he]
      intro q hq
      rw [Table.insert_rows ht] at hq
      rcases List.mem_append.1 hq with hq | hq
      · exact h q hq
      · rw [Backs] at ho
        rw [List.mem_singleton.1 hq]
        simp [PayoutRepo.row, ho]
  | markProcessing now id pid =>
    rcases PayoutRepo.markProcessing_cases now id pid w.db with ⟨_, he⟩ | ⟨he, -⟩ | ⟨p, l₁, l₂, t, hr, -, -, he, hr'⟩
    · rw [LedgerOp.apply, he]
      exact h
    · rw [LedgerOp.apply, he]
      exact h
    · rw [LedgerOp.apply, he]
      dsimp only
      rw [hr']
      exact forall_replaced (hr ▸ h) fun hst => by cases hst
  | markSucceeded now id at' =>
    rcases PayoutRepo.markSucceeded_cases now id at' w.db with ⟨_, he⟩ | ⟨p, l₁, l₂, t, hr, hid, -, he, hr'⟩
    · rw [LedgerOp.apply, he]
      exact h
    · rw [LedgerOp.apply, he]
      dsimp only
      rw [hr']
      refine forall_replaced (hr ▸ h) fun _ => ?_
      obtain ⟨q, hq, hqid, hx⟩ := ho
      have hqp : q = p := w.db.payouts.eq_of_clash hq (by simp [hr]) (Payout.clash_of_id (hqid.trans hid.symm))
      subst hqp
      exact hx
  | markFailedWithReversal now id reason at' =>
    rcases PayoutRepo.markFailedWithReversal_cases now id reason at' w.db with ⟨_, he⟩ | ⟨p, l₁, l₂, t, l, hr, -, -, he, hr', -⟩
    · rw [LedgerOp.apply, he]
      exact h
    · rw [LedgerOp.apply, he]
      dsimp only
      rw [hr']
      exact forall_replaced (hr ▸ h) fun hst => by cases hst

/-- The bank keeps what it has decided. -/
theorem Carried.bank (h : w.Carried) {b : Bank} (hg : w.bank.Goes b) : ({ w with bank := b } : PayoutWorld).Carried := by
  intro q hq hst
  obtain ⟨t, ht, hk, hs⟩ := h q hq hst
  obtain ⟨t', ht', hr, -, hfin⟩ := hg.transfers t ht
  refine ⟨t', ht', ?_, (hfin (by simp [hs])).trans hs⟩
  rw [Transfer.key, hr]
  exact hk

theorem Carried.tx {α : Type} {f : PaymentDB → Except Err α × PaymentDB} {fault : Fault String} {r : Except Err α}
    (h : w.Carried) {o : LedgerOp} (ho : w.Backs o) (hf : (f w.db).2 = o.apply w.db)
    (he : fault.apply Err.plain (onPayouts f) w = (r, w')) : w'.Carried := by
  rcases onPayouts_cases he with ⟨-, rfl⟩ | ⟨_, -, rfl | rfl⟩
  · rw [hf]
    exact h.ledger ho
  · exact h
  · rw [hf]
    exact h.ledger ho

theorem Carried.moves (h : w.Carried) (hm : PayoutWorld.Moves w w') : w'.Carried := by
  cases hm with
  | accrue now e => exact h.ledger (o := .appendAccrual now e) trivial
  | reverse now e => exact h.ledger (o := .appendReversal now e) trivial
  | settle id st reason => exact h.bank (w.bank.goes_settle id st reason)

/-- **A payout succeeds only with its transfer**, whatever call does what. -/
theorem Carried.exec {c : PayoutCall} {h : List (Event PayoutOp PayoutOp.Res)} {o : PayoutOp} {r : o.Res} (hw : w.Carried)
    (hg : w.goes w') (hp : priorTo c h o) (ht : ∀ e ∈ h, w.Told e)
    (hready : Starts c w) (he : PayoutOp.Exec o w r w') : w'.Carried := by
  obtain ⟨env, he⟩ := he
  cases o with
  | createPendingWithLedger p => exact hw.tx (o := .createPendingWithLedger env.now env.uuid p) hp rfl he
  | markProcessing id pid => exact hw.tx (o := .markProcessing env.now id pid) trivial rfl he
  | markSucceeded id at' =>
    exact hw.tx (o := .markSucceeded env.now id at') (row_of_confirmed hp ht hready) rfl he
  | markFailedWithReversal id reason at' =>
    exact hw.tx (o := .markFailedWithReversal env.now id reason at') trivial rfl he
  | createPayout req =>
    have hsnd : (env.fault.apply transientErr (onBank (Bank.createPayout env.choice req)) w).2 = w' := congrArg Prod.snd he
    have hdb : w' = { w with bank := w'.bank } := by
      rcases Fault.apply_state env.fault transientErr (onBank (Bank.createPayout env.choice req)) w with h' | h'
      · rw [← hsnd, h']
      · rw [← hsnd, h']
        rfl
    rw [hdb]
    exact hw.bank hg.2
  | balance ref => rwa [(onPayouts_read he).1]
  | lastPayoutAt ref => rwa [(onPayouts_read he).1]
  | getActiveMethod ref => rwa [(onPayouts_read he).1]
  | getMethodByID id => rwa [(onPayouts_read he).1]
  | getByProviderPayoutID pid => rwa [(onPayouts_read he).1]
  | parsePayoutWebhook raw =>
    cases he
    exact hw
  | newUUID =>
    cases he
    exact hw
  | now =>
    cases he
    exact hw

end PayoutWorld

/-! ## Runs -/

/-- Every reconciliation finds the method of its payout, or its payout given up before, and no delivery of a final event
misses its row. -/
def foundInTime : Sys.Cond PayoutWorld PayoutCall PayoutOp PayoutOp.Res (Option Err) :=
  fun c t o r => methodFound t.call o c.world r ∧ webhookFinds t.did ⟨o, r⟩

section Runs

variable {uc : PayoutUseCase} {w₀ : PayoutWorld} {c : Config PayoutWorld PayoutCall PayoutOp PayoutOp.Res (Option Err)}

/-- **What every call has been told is so**, and payouts succeed only with their transfers. -/
theorem told_of_reach (hw : w₀.Opening) (h : (payoutSys uc).Reach foundInTime w₀ c) :
    c.world.Carried ∧ ∀ t ∈ c.threads, PayoutWorld.Starts t.call c.world ∧
      ∀ e ∈ t.did, c.world.Told e := by
  have hsafe : ∀ {c}, (payoutSys uc).Reach foundInTime w₀ c → c.world.Kept ∧ w₀.goes c.world ∧
      ∀ t ∈ c.threads, PayoutSafe t.call t.did t.rest c.world := fun h =>
    h.safe (fun c o w r => methodFound c o w r) (fun _ _ _ _ h => h.1) PayoutWorld.goes_refl PayoutWorld.goes_trans
      (Q := fun _ _ _ _ => True) hw.kept (fun _ _ _ hI hc => PayoutCall.prog_safe uc hc hI) (fun _ _ hI hm => hI.moves hm)
  refine h.told (I := PayoutWorld.Carried) (T := PayoutWorld.Told) (R := PayoutWorld.goes)
    (K := PayoutWorld.Starts) (fun _ _ _ hg ht => ht.goes hg) (fun _ _ _ hg hs => hs.goes hg) (fun c => PayoutCall.prog_prior uc c)
    (fun q hq => by simp [hw.db.payouts] at hq) ?_ ?_ ?_
  · rintro c w hready p rfl
    exact ⟨p, hready.1, rfl, rfl⟩
  · intro w w' ts₁ ts₂ c h o k r hr ho hcar hnamed hprior htold he
    obtain ⟨hkept, -, hts⟩ := hsafe hr
    obtain ⟨-, hg, -⟩ := hts ⟨c, h, .call o k⟩ (by simp) w w.goes_refl hkept r w' he ho.1
    exact ⟨hcar.exec hg hprior htold hnamed he, hg, PayoutWorld.told_of_exec hkept hprior htold hnamed he⟩
  · intro w w' ts hr hcar hm
    exact ⟨hcar.moves hm, ((hsafe hr).1.moves hm).2⟩

/-- **No acknowledged webhook is lost in a run whose deliveries find their rows**, and whose reconciliations give up only
what the bank has not taken on. -/
theorem noneLost_of_found (uc : PayoutUseCase) {w₀ : PayoutWorld} (hw : w₀.Opening)
    {c : Config PayoutWorld PayoutCall PayoutOp PayoutOp.Res (Option Err)} (h : (payoutSys uc).Reach foundInTime w₀ c) :
    NoneLost c := by
  rintro - ev hne ⟨t, ht, raw, hcall, hparse, hrest⟩
  obtain ⟨hkept, -⟩ := h.safe (fun c o w r => methodFound c o w r) (fun _ _ _ _ h => h.1) PayoutWorld.goes_refl
    PayoutWorld.goes_trans (Q := fun _ _ _ _ => True) hw.kept
    (fun _ _ _ hI hc => PayoutCall.prog_safe uc hc hI) (fun _ _ hI hm => hI.moves hm)
  obtain ⟨hcar, htold⟩ := told_of_reach hw h
  have htold := (htold t ht).2
  have hend := h.ends (fun c => PayoutCall.prog_ends uc c) t ht
  rw [hrest] at hend
  rcases hend raw hcall rfl ev hparse hne with ⟨p, hlook, hmark⟩ | ⟨h₁, h₂, err, raw', hdid, hnf, hparse'⟩
  swap
  · have := h.each (P := webhookFinds) (fun _ _ _ _ ho => ho.2) t ht h₁ _ h₂ hdid hnf raw' ev hparse'
    exact absurd this hne
  -- the row that was found is the one of the transfer, and it is final
  obtain ⟨x, hx, hxid, q, hq, hqid, hkey⟩ := htold _ hlook
  obtain ⟨x', hx', hxid', htells⟩ := htold _ hparse
  obtain rfl : x' = x := c.world.bank.transfers.eq_of_clash hx' hx (Bank.clash_of_id (hxid'.trans hxid.symm))
  have hst := htells hne
  have hfinal : c.world.Final p.id := by
    rcases hmark with ⟨at', b, hm⟩ | ⟨reason, at', b, hm⟩ <;> exact htold _ hm
  obtain ⟨q', hq', hqid', hterm⟩ := hfinal
  obtain rfl : q' = q := c.world.db.payouts.eq_of_clash hq' hq (Payout.clash_of_id (hqid'.trans hqid.symm))
  refine ⟨q', hq, ⟨x', hx, hxid, hkey.symm⟩, fun hs => ?_, fun hf => ?_⟩
  · -- a payout that has failed has no transfer that succeeded
    cases hqst : q'.status with
    | succeeded => rfl
    | failed =>
      have := hkept.justified hq hqst hx hkey.symm
      rw [hst, hs] at this
      cases this
    | _ => simp [hqst, PayoutStatus.isTerminal] at hterm
  · have hfailed : q'.status = .failed := by
      cases hqst : q'.status with
      | failed => rfl
      | succeeded =>
        obtain ⟨y, hy, hyk, hys⟩ := hcar q' hq hqst
        obtain rfl : y = x' := c.world.bank.transfers.eq_of_clash hy hx (Bank.clash_of_key (hyk.trans hkey))
        rw [hst, hf] at hys
        cases hys
      | _ => simp [hqst, PayoutStatus.isTerminal] at hterm
    exact ⟨hfailed, hkept.sound.compensated q' hq hfailed⟩

end Runs

/-! ### A delivery before the payout knows its id -/

/-- The event of the sample transfer, as the bank confirms it. -/
def samplePayoutEvent : PayoutWebhookEvent := ⟨"bank-1", .succeeded, "", "payout.succeeded"⟩

/-- The sample notification is on its way. -/
def eventEnv : PayoutEnv := { sampleEnv .none with parse := fun _ => .ok (some samplePayoutEvent) }

/-- A payout run does not look payouts up by the id the provider has given them. -/
theorem payoutPartner_finds (uc : PayoutUseCase) (ref : PartnerRef) :
    (uc.payoutPartner ref).All (fun o => ∀ did r, webhookFinds did ⟨o, r⟩) := by
  refine Prog.After.all (fun h o hp did r => ?_) (payoutPartner_prior (c := .payoutPartner ref) (h := []) uc ref)
  cases o with
  | getByProviderPayoutID pid =>
    obtain ⟨raw, hc⟩ := hp
    cases hc
  | _ => trivial

/-- The sample payout is made, the bank has taken it on, and its transfer has come to its end, before the payout service
goes on. -/
theorem accepted_settled : ∃ w d, (payoutSys samplePayoutUseCase).Reach foundInTime samplePayoutWorld
      ⟨w, [⟨.payoutPartner sampleRef, d, takeResult "" sampleRow.id ⟨"bank-1", .pending, ""⟩⟩]⟩ ∧
    w.db.payouts.rows = [sampleRow] ∧ w.bank.transfers.rows = [⟨sampleRequest, "bank-1", .succeeded, ""⟩] := by
  obtain ⟨t, l, l', hacc, hav, hcreate, hrows⟩ := samplePayouts_paid .unset (.inl rfl)
  have hr1 : (payoutSys samplePayoutUseCase).Reach foundInTime samplePayoutWorld
      ⟨{ samplePayoutWorld with db := { samplePayouts with ledger := l } }, []⟩ := by
    have hmove := PayoutWorld.Moves.accrue samplePayoutWorld 0 sampleAccrual
    rw [LedgerOp.apply, samplePayoutWorld, hacc] at hmove
    exact .step .init (.env _ _ _ hmove)
  have hr2 := hr1.step (.start _ _ (PayoutCall.payoutPartner sampleRef) trivial)
  obtain ⟨ts, hts, hbank⟩ := Bank.createPayout_first sampleRequest "bank-1" .pending ""
  have hexec : PayoutOp.Exec (.createPayout sampleRequest)
      { samplePayoutWorld with db := { samplePayouts with payouts := t, ledger := l' } } (.ok ⟨"bank-1", .pending, ""⟩)
      ⟨{ samplePayouts with payouts := t, ledger := l' }, ⟨ts, []⟩⟩ := by
    refine ⟨sampleEnv .none, ?_⟩
    rw [PayoutOp.run, sampleEnv, Fault.apply_none, onBank]
    dsimp only [samplePayoutWorld]
    rw [hbank]
  have hasks := payoutPartner_asks { samplePayoutWorld with db := { samplePayouts with ledger := l } } rfl hav hcreate hexec
    (P := fun rest w => rest = takeResult "" sampleRow.id ⟨"bank-1", .pending, ""⟩ ∧
      w = ⟨{ samplePayouts with payouts := t, ledger := l' }, ⟨ts, []⟩⟩)
    (fun result h => by cases h; exact ⟨rfl, rfl⟩) fun _ h => by cases h
  obtain ⟨d, _, w, ⟨rfl, rfl⟩, hr3⟩ := hr2.reaches
    (fun _ _ _ _ he => ⟨he.1, fun _ t ht => ⟨by rw [ht]; trivial, he.2 _ _⟩⟩) [] []
    (hasks.of_all (payoutPartner_finds samplePayoutUseCase sampleRef))
  obtain ⟨ts', hup, hts'⟩ := Table.update_one hts (p := fun t => t.id == "bank-1" && t.status == .pending)
    (f := fun t => { t with status := .succeeded, reason := "" }) rfl rfl
  have hr4 := hr3.step (.env _ _ _ (.settle _ "bank-1" .succeeded ""))
  refine ⟨_, d, hr4, hrows, ?_⟩
  rw [Bank.settle, hup]
  exact hts'

/-- A bank with the sample transfer confirms its event. -/
theorem confirm_sample {b : Bank} (hb : b.transfers.rows = [⟨sampleRequest, "bank-1", .succeeded, ""⟩]) :
    b.parsePayoutWebhook (.ok (some samplePayoutEvent)) = .ok (some samplePayoutEvent) := by
  have hget : b.transfers.get (fun t => t.id == "bank-1") = some ⟨sampleRequest, "bank-1", .succeeded, ""⟩ := by
    rw [Table.get, hb]
    rfl
  rw [Bank.parsePayoutWebhook, Bank.confirm, samplePayoutEvent]
  dsimp only
  rw [hget]
  rfl

/-- The bank confirms the sample event to a delivery. -/
theorem exec_parse_sample {w : PayoutWorld} (hb : w.bank.transfers.rows = [⟨sampleRequest, "bank-1", .succeeded, ""⟩]) :
    PayoutOp.Exec (.parsePayoutWebhook []) w (.ok (some samplePayoutEvent)) w :=
  ⟨eventEnv, by rw [PayoutOp.run, eventEnv, confirm_sample hb]⟩

/-- **A webhook can be lost**: it comes before the payout knows the id it is about, and is acknowledged. -/
theorem acked_lost : ∃ c, (payoutSys samplePayoutUseCase).Reach anyStep samplePayoutWorld c ∧ ¬ NoneLost c := by
  obtain ⟨w, d, hr, hrow, hbank⟩ := accepted_settled
  have hr1 : (payoutSys samplePayoutUseCase).Reach anyStep samplePayoutWorld
      ⟨w, [⟨.payoutPartner sampleRef, d, takeResult "" sampleRow.id ⟨"bank-1", .pending, ""⟩⟩]⟩ :=
    hr.mono fun _ _ _ _ _ => trivial
  -- the delivery looks for the payout, which has no id of the provider's yet
  have hr2 := hr1.step (.start w _ (PayoutCall.handlePayoutWebhook []) trivial)
  have hr3 := hr2.step (.perform _ _ [_] [] _ _ _ _ _ (exec_parse_sample hbank) trivial)
  have hlook : PayoutOp.Exec (.getByProviderPayoutID "bank-1") w (.error (.status .notFound "payout not found")) w := by
    refine ⟨sampleEnv .none, ?_⟩
    have hget : w.db.payouts.get (fun p => p.providerPayoutID == some "bank-1") = none := by
      rw [Table.get, hrow]
      rfl
    rw [PayoutOp.run, sampleEnv, Fault.apply_none, onPayouts]
    simp only [PayoutRepo.getByProviderPayoutID, PayoutRepo.scanOne, hget]
  have hr4 := hr3.step (.perform _ _ [_] [] _ _ _ _ _ hlook trivial)
  -- only now does the payout run store the id
  obtain ⟨r, w', hmark⟩ : ∃ r w', PayoutOp.Exec (.markProcessing sampleRow.id "bank-1") w r w' :=
    ⟨_, _, sampleEnv .none, rfl⟩
  obtain ⟨x, hr5⟩ : ∃ x, (payoutSys samplePayoutUseCase).Reach anyStep samplePayoutWorld
      ⟨w', [⟨.payoutPartner sampleRef, d ++ [⟨.markProcessing sampleRow.id "bank-1", r⟩], .ret x⟩,
        ⟨.handlePayoutWebhook [], [⟨.parsePayoutWebhook [], .ok (some samplePayoutEvent)⟩,
          ⟨.getByProviderPayoutID "bank-1", .error (.status .notFound "payout not found")⟩], .ret none⟩]⟩ := by
    cases r with
    | error err => exact ⟨_, hr4.step (.perform _ _ [] [_] _ _ _ _ _ hmark trivial)⟩
    | ok u => exact ⟨_, hr4.step (.perform _ _ [] [_] _ _ _ _ _ hmark trivial)⟩
  refine ⟨_, hr5, fun hnone => ?_⟩
  obtain ⟨q, hq, -, hsucc, -⟩ := hnone (by simp) samplePayoutEvent (by simp [samplePayoutEvent])
    ⟨_, List.mem_cons_of_mem _ (List.mem_singleton.2 rfl), [], rfl, by simp, rfl⟩
  have hq : q ∈ w'.db.payouts.rows := hq
  obtain ⟨env, hmark⟩ := hmark
  have hpend : ∀ q ∈ w'.db.payouts.rows, q.status ≠ .succeeded := by
    have hold : ∀ q ∈ w.db.payouts.rows, q.status ≠ .succeeded := by
      rw [hrow]
      simp [sampleRow, PayoutRepo.row, samplePayout]
    rcases (onPayouts_db hmark).2.1 with hdb | hdb
    · rw [hdb]
      exact hold
    · rw [hdb]
      rcases PayoutRepo.markProcessing_cases env.now sampleRow.id "bank-1" w.db with
        ⟨_, he⟩ | ⟨he, -⟩ | ⟨p, l₁, l₂, t, hr, -, -, he, hr'⟩
      · rw [he]
        exact hold
      · rw [he]
        exact hold
      · rw [he]
        dsimp only
        rw [hr']
        exact forall_replaced (hr ▸ hold) fun hst => by cases hst
  exact hpend q hq (hsucc rfl)

theorem webhooks_sometimes_lost : ¬ ∀ (uc : PayoutUseCase) (w₀ : PayoutWorld) c, w₀.Opening →
    (payoutSys uc).Reach anyStep w₀ c → NoneLost c := by
  intro h
  obtain ⟨c, hr, hbad⟩ := acked_lost
  exact hbad (h _ _ c samplePayoutWorld_opening hr)

/-- The row of the sample payout once the bank's answer is known. -/
def sampleProcessing : Payout :=
  { sampleRow with status := .processing, providerPayoutID := some "bank-1", attemptCount := 1, updatedAt := 0 }

/-- The payout run stores the id and returns. -/
theorem processing_settled : ∃ w d, (payoutSys samplePayoutUseCase).Reach foundInTime samplePayoutWorld
      ⟨w, [⟨.payoutPartner sampleRef, d, .ret none⟩]⟩ ∧
    w.db.payouts.rows = [sampleProcessing] ∧ w.bank.transfers.rows = [⟨sampleRequest, "bank-1", .succeeded, ""⟩] := by
  obtain ⟨w, d, hr, hrow, hbank⟩ := accepted_settled
  have hid : isUUID sampleRow.id = true := by decide
  have hcheck : payoutSchema.check sampleProcessing = true := by decide
  obtain ⟨t, hup, ht⟩ := Table.update_one hrow (p := fun p => p.id == sampleRow.id && p.status == .pending)
    (f := fun p => { p with
      status := .processing, providerPayoutID := some "bank-1", attemptCount := p.attemptCount + 1, updatedAt := 0 })
    rfl hcheck
  have hmark : PayoutOp.Exec (.markProcessing sampleRow.id "bank-1") w (.ok ()) { w with db := { w.db with payouts := t } } := by
    refine ⟨sampleEnv .none, ?_⟩
    rw [PayoutOp.run, sampleEnv, Fault.apply_none, onPayouts, PayoutRepo.markProcessing, uuidParam_ok hid]
    dsimp only
    rw [hup]
  have hr1 : (payoutSys samplePayoutUseCase).Reach foundInTime samplePayoutWorld
      ⟨{ w with db := { w.db with payouts := t } },
        [⟨.payoutPartner sampleRef, d ++ [⟨.markProcessing sampleRow.id "bank-1", .ok ()⟩], .ret none⟩]⟩ :=
    hr.step (.perform _ _ [] [] _ _ _ _ _ hmark ⟨trivial, trivial⟩)
  exact ⟨_, _, hr1, ht, hbank⟩

theorem noneLost_of_found_sample : ∃ c, (∀ t ∈ c.threads, ∃ a, t.rest = .ret a) ∧ Acked c.threads samplePayoutEvent ∧
    NoneLost c := by
  obtain ⟨w, d, hr, hrow, hbank⟩ := processing_settled
  have hid : isUUID sampleProcessing.id = true := by decide
  have hcheck : payoutSchema.check { sampleProcessing with status := .succeeded, completedAt := some 0, updatedAt := 0 } =
      true := by decide
  have hr1 := hr.step (.start w _ (PayoutCall.handlePayoutWebhook []) trivial)
  have hr2 := hr1.step (.perform _ _ [_] [] _ _ _ _ _ (exec_parse_sample hbank) ⟨trivial, trivial⟩)
  have hlook : PayoutOp.Exec (.getByProviderPayoutID "bank-1") w (.ok sampleProcessing) w := by
    refine ⟨sampleEnv .none, ?_⟩
    have hget : w.db.payouts.get (fun p => p.providerPayoutID == some "bank-1") = some sampleProcessing := by
      rw [Table.get, hrow]
      rfl
    rw [PayoutOp.run, sampleEnv, Fault.apply_none, onPayouts]
    simp only [PayoutRepo.getByProviderPayoutID, PayoutRepo.scanOne, hget]
  have hr3 := hr2.step (.perform _ _ [_] [] _ _ _ _ _ hlook ⟨trivial, trivial⟩)
  have hnow : PayoutOp.Exec .now w (0 : Time) w := ⟨sampleEnv .none, rfl⟩
  have hr4 := hr3.step (.perform _ _ [_] [] _ _ _ _ _ hnow ⟨trivial, trivial⟩)
  obtain ⟨t, hup, -⟩ := Table.update_one hrow (p := PayoutRepo.guarded sampleProcessing.id)
    (f := fun p => { p with status := .succeeded, completedAt := some 0, updatedAt := 0 }) rfl hcheck
  have hmark : PayoutOp.Exec (.markSucceeded sampleProcessing.id 0) w
      (.ok (w.db.payouts.rows.any (PayoutRepo.guarded sampleProcessing.id))) { w with db := { w.db with payouts := t } } := by
    refine ⟨sampleEnv .none, ?_⟩
    rw [PayoutOp.run, sampleEnv, Fault.apply_none, onPayouts, PayoutRepo.markSucceeded, uuidParam_ok hid]
    dsimp only
    rw [hup]
  have hr5 := hr4.step (.perform _ _ [_] [] _ _ _ _ _ hmark ⟨trivial, trivial⟩)
  refine ⟨_, ?_, ?_, noneLost_of_found samplePayoutUseCase samplePayoutWorld_opening hr5⟩
  · exact List.forall_mem_cons.2 ⟨⟨none, rfl⟩, List.forall_mem_cons.2 ⟨⟨none, rfl⟩, by simp⟩⟩
  · exact ⟨_, List.mem_cons_of_mem _ (List.mem_singleton.2 rfl), [], rfl, by simp, rfl⟩

end Agregator
