import Agregator.ConcMoments
import Agregator.ConcLift
import Agregator.PayWebhooks
/-!
# PayPayload — what a payment event says of its payment

An outbox row is written with the status update, in one transaction, but its payload is made from the row that was read
before.  A read that finds a payment final binds it for good, so an update that goes through tells of one read as pending, and
never of the status it commits (`payloads_disagree`).
-/
namespace Agregator

open Rel Conc

/-- The payload says what the row of its payment says. -/
def OutboxEvent.AgreesWith (o : OutboxEvent) (db : PaymentDB) : Prop :=
  ∃ st, db.statusOf o.paymentID = some st ∧ o.payload.status = st.string

/-- The moment appends these rows to the outbox. -/
def PaymentsMoment.Writes (m : PaymentsMoment) (rows : List OutboxEvent) : Prop :=
  m.after.pay.db.outbox = m.before.world.pay.db.outbox ++ rows

/-! ## What has been read -/

/-- The payment a call has read. -/
def readPayment : Event PaymentsOp PaymentsOp.Res → Option Payment
  | ⟨.pay (.getByBookingID _), .ok p⟩ => some p
  | ⟨.pay (.getByProviderID _), .ok p⟩ => some p
  | _ => none

/-- An update is made with the payload of the payment as it was read, or once that was read as paid. -/
def PaymentsOp.FromRead (h : List (Event PaymentsOp PaymentsOp.Res)) : PaymentsOp → Prop
  | .pay (.updateStatusWithOutbox id _ _ ev) => ∃ e ∈ h, ∃ p, readPayment e = some p ∧ p.id = id ∧
      (ev.payload.status = p.status.string ∨ p.status = .succeeded)
  | _ => True

/-- The same of an operation of the payments. -/
def PayOp.FromRead (h : List (Event PayOp PayOp.Res)) (o : PayOp) : Prop :=
  ∀ h', Lifts PaymentsOp.pay (fun _ r => r) h h' → (PaymentsOp.pay o).FromRead h'

theorem PayOp.fromRead_offside {o : PayOp} (ho : o.offside) (h : List (Event PayOp PayOp.Res)) : o.FromRead h := by
  intro h' _
  cases o with
  | updateStatusWithOutbox => exact False.elim ho
  | _ => trivial

theorem PayOp.fromRead_offside_all {α : Type} {p : PayProg α} (hp : p.All PayOp.offside) {h : List (Event PayOp PayOp.Res)} :
    p.After PayOp.FromRead h :=
  (hp.mono fun _ ho h => PayOp.fromRead_offside ho h).after

theorem handleWebhook_fromRead (uc : PaymentUseCase) (raw : RawBody) : (uc.handleWebhook raw).After PayOp.FromRead [] := by
  unfold PaymentUseCase.handleWebhook
  simp only [Prog.bind_eq, Prog.perform_bind]
  refine ⟨PayOp.fromRead_offside (by trivial) _, fun r => ?_⟩
  cases r with
  | error err => trivial
  | ok event =>
  dsimp only
  split
  · refine ⟨PayOp.fromRead_offside (by trivial) _, fun r => ?_⟩
    cases r <;> trivial
  split
  · trivial
  refine ⟨PayOp.fromRead_offside (by trivial) _, fun r => ?_⟩
  cases r with
  | error err => trivial
  | ok p =>
  dsimp only
  split
  · trivial
  constructor
  · intro h' hh
    obtain ⟨r', hr', hg⟩ := hh ⟨.getByProviderID event.providerPaymentID, .ok p⟩ (by simp)
    have hg : r' = .ok p := hg
    rw [hg] at hr'
    exact ⟨_, hr', p, rfl, rfl, .inl rfl⟩
  · intro r
    refine PayOp.fromRead_offside_all ?_
    cases r with
    | error err => trivial
    | ok updated =>
    dsimp only
    split
    · trivial
    split
    · refine Prog.All.bind (fun res => ?_) (writeAccrual_offside uc p)
      cases res <;> trivial
    · trivial

theorem refundByBooking_fromRead (b : String) : (refundByBooking b).After PayOp.FromRead [] := by
  unfold refundByBooking
  simp only [Prog.bind_eq, Prog.perform_bind]
  refine ⟨PayOp.fromRead_offside (by trivial) _, fun r => ?_⟩
  cases r with
  | error err => dsimp only; split <;> trivial
  | ok p =>
  dsimp only
  split
  · trivial
  rename_i hpaid
  refine ⟨PayOp.fromRead_offside (by trivial) _, fun r => ?_⟩
  cases r with
  | error err => trivial
  | ok u =>
  constructor
  · intro h' hh
    obtain ⟨r', hr', hg⟩ := hh ⟨.getByBookingID b, .ok p⟩ (by simp)
    have hg : r' = .ok p := hg
    rw [hg] at hr'
    exact ⟨_, hr', p, rfl, rfl, .inr (by simpa using hpaid)⟩
  · intro r
    refine PayOp.fromRead_offside_all ?_
    cases r with
    | error err => trivial
    | ok updated =>
      refine Prog.All.bind (fun res => ?_) (writeReversal_offside _)
      cases res <;> trivial

theorem PaymentsCall.prog_fromRead (uc : PaymentUseCase) (terms : ChargeTerms) (c : PaymentsCall) :
    (c.prog uc terms).After PaymentsOp.FromRead [] := by
  have hpay : ∀ {p : PayProg (Option Err)}, p.After PayOp.FromRead [] → (onPaying p).After PaymentsOp.FromRead [] :=
    fun hp => Prog.After.lift (Lifts.nil _ _) hp
  cases c with
  | createPayment inp =>
    have hall : (PaymentsCall.prog uc terms (.createPayment inp)).All fun o => ∀ h, o.FromRead h :=
      lift_all (Prog.All.of_forall (fun _ _ => trivial) _)
    exact hall.after
  | handleWebhook raw => exact hpay (Prog.After.bind (fun _ _ => by trivial) (handleWebhook_fromRead uc raw))
  | refundByBooking b => exact hpay (refundByBooking_fromRead b)

/-! ## What a read binds -/

/-- A payment that was read as final is as it was read. -/
def PaymentsWorld.Bound (w : PaymentsWorld) (e : Event PaymentsOp PaymentsOp.Res) : Prop :=
  ∀ p, readPayment e = some p → p.status.isTerminal = true → w.pay.db.statusOf p.id = some p.status

namespace PaymentsOp.Exec

variable {hashtext : String → ℤ} {o : PaymentsOp} {w w' : PaymentsWorld} {r : o.Res}

/-- **A final status is kept.** -/
theorem final (he : PaymentsOp.Exec hashtext o w r w') (ho : o.Announces) {id : String} {st : PaymentStatus}
    (hst : w.pay.db.statusOf id = some st) (hterm : st.isTerminal = true) : w'.pay.db.statusOf id = some st := by
  rcases PaymentsOp.Exec.payment he ho id with ⟨h | ⟨hnone, -⟩, -⟩ | ⟨hpend, -⟩
  · rw [h, hst]
  · rw [hnone] at hst
    cases hst
  · rw [hpend] at hst
    cases hst
    cases hterm

/-- What a call reads is there. -/
theorem read (he : PaymentsOp.Exec hashtext o w r w') : w'.Bound ⟨o, r⟩ := by
  intro p hp _
  have hmem : ∀ {q : Payment}, q ∈ w.pay.db.payments.rows → w'.pay = w.pay → w'.pay.db.statusOf q.id = some q.status := by
    intro q hq hw
    rw [hw, PaymentDB.statusOf, PaymentDB.payment_mem hq rfl]
    rfl
  cases o with
  | create o => cases hp
  | pay o =>
    cases o with
    | getByBookingID b =>
      cases r with
      | error err => cases hp
      | ok q =>
        cases hp
        obtain ⟨hw, hr | ⟨t, hr⟩⟩ := PayOp.Exec.getByBookingID he.1
        · exact hmem (PaymentRepo.of_getByBookingID hr.symm).1 hw
        · cases hr
    | getByProviderID i =>
      cases r with
      | error err => cases hp
      | ok q =>
        cases hp
        obtain ⟨hw, hr | ⟨t, hr⟩⟩ := PayOp.Exec.getByProviderID he.1
        · exact hmem (PaymentRepo.of_getByProviderID hr.symm).1 hw
        · cases hr
    | _ => cases hp

/-- A creation writes nothing to the outbox. -/
theorem created_outbox {o : CreateOp} {r : o.Res} (he : PaymentsOp.Exec hashtext (.create o) w r w') :
    w'.pay.db.outbox = w.pay.db.outbox := by
  obtain ⟨he, -⟩ := he
  rcases he.state with h | ⟨env, h⟩
  · have hdb : w'.pay.db = w.pay.db := congrArg CreateWorld.db h
    rw [hdb]
  have hdb : w'.pay.db = (o.attempt hashtext env w.creating).2.db := congrArg CreateWorld.db h
  rw [hdb]
  rcases CreateOp.attempt_db hashtext env o w.creating with hsame | ⟨p, rfl, hclaim⟩ | ⟨i, pid, url, db, hset, hstore⟩
  · rw [hsame]
    rfl
  · rw [hclaim]
    rcases PaymentRepo.createIdempotent_cases env.now env.newID p w.creating.db with ⟨e, h⟩ | ⟨h, -⟩ | ⟨t, h, -⟩ <;>
      rw [h] <;> rfl
  · rw [hstore]
    rcases PaymentRepo.setProviderInfo_cases env.now i pid url w.creating.db with ⟨e, h⟩ | ⟨h, -⟩ | ⟨t, h, -⟩ <;>
      rw [h] at hset <;> cases hset
    rfl

end PaymentsOp.Exec

/-- **What the calls have read as final stays as it was read.** -/
theorem reads_bind {uc : PaymentUseCase} {terms : ChargeTerms} {hashtext : String → ℤ} {w₀ : PaymentsWorld}
    {c : PaymentsConfig} (h : (paymentsSys uc terms hashtext).Reach anyStep w₀ c) :
    ∀ t ∈ c.threads, ∀ e ∈ t.did, c.world.Bound e := by
  have hafter : ∀ c, ((paymentsSys uc terms hashtext).prog c).After (fun _ (o : PaymentsOp) => o.Announces) [] := fun c =>
    ((PaymentsCall.prog_announces uc terms c).mono fun _ ho _ => ho).after
  have htold := h.told (I := fun _ => True) (K := fun _ _ => True) (T := PaymentsWorld.Bound)
    (R := fun w w' => ∀ id st, w.pay.db.statusOf id = some st → st.isTerminal = true → w'.pay.db.statusOf id = some st)
    (fun w w' e hR hT p hp hterm => hR _ _ (hT p hp hterm) hterm) (fun _ _ _ _ _ => trivial) hafter trivial (fun _ _ _ => trivial)
    (fun w w' ts₁ ts₂ c h o k r _ _ _ _ ho _ he =>
      ⟨trivial, fun _ _ hst hterm => PaymentsOp.Exec.final he ho hst hterm, PaymentsOp.Exec.read he⟩)
    (fun w w' ts _ _ he => by
      obtain ⟨tx, rfl⟩ := he
      exact ⟨trivial, fun _ _ hst _ => hst⟩)
  exact fun t ht => (htold.2 t ht).2

/-! ## What is written -/

/-- An update made from a payment that was read writes nothing, or a row that tells of another status than it commits. -/
theorem PaymentsOp.Exec.tells {hashtext : String → ℤ} {o : PaymentsOp} {w w' : PaymentsWorld} {r : o.Res}
    (he : PaymentsOp.Exec hashtext o w r w') (ho : o.Announces) {h : List (Event PaymentsOp PaymentsOp.Res)}
    (hread : o.FromRead h) (hbound : ∀ e ∈ h, w.Bound e) :
    ∃ rows, w'.pay.db.outbox = w.pay.db.outbox ++ rows ∧ ∀ row ∈ rows, ¬ row.AgreesWith w'.pay.db := by
  cases o with
  | create o => exact ⟨[], by rw [he.created_outbox, List.append_nil], by simp⟩
  | pay o =>
    have hpay := he.1
    by_cases hoff : o.offside
    · exact ⟨[], by rw [(PayOp.Exec.payments hpay hoff).2.1, List.append_nil], by simp⟩
    cases o with
    | updateStatusWithOutbox i st pid ev =>
      obtain ⟨hterm, -, hev⟩ := ho
      rcases PayOp.Exec.update_row hpay with hw |
        ⟨now, p, l₁, l₂, db', hrows, hid, hpend, hw, hrows', row, hrow, -, htells, hof, -⟩ <;> rw [hw]
      · exact ⟨[], (List.append_nil _).symm, by simp⟩
      refine ⟨[row], hrow, fun row' hrow' => ?_⟩
      rw [List.mem_singleton.1 hrow']
      rintro ⟨s, hst, hagree⟩
      -- the row is final once the update is made
      have hnew : db'.statusOf i = some st := by
        rw [PaymentDB.statusOf, PaymentDB.payment_mem (p := { p with status := st, providerID := pid, updatedAt := now })
          (by rw [hrows']; simp) hid]
        rfl
      have hold : w.pay.db.statusOf i = some p.status := by
        rw [PaymentDB.statusOf, PaymentDB.payment_mem (by rw [hrows]; simp) hid]
        rfl
      have hst : db'.statusOf row.paymentID = some s := hst
      rw [hof, hev, hnew] at hst
      cases hst
      -- what was read cannot have been final, or the guard had not let the update through
      obtain ⟨e, hmem, q, hq, hqid, hpayload⟩ := hread
      have hqpend : q.status.isTerminal = false := by
        by_contra hfinal
        have hread := hbound e hmem q hq (by simpa using hfinal)
        rw [hqid, hold] at hread
        exact hfinal (Option.some.inj hread ▸ hpend)
      rcases hpayload with hpayload | hpaid
      · rw [htells, hpayload] at hagree
        revert hagree hterm hqpend
        cases q.status <;> cases st <;> decide
      · rw [hpaid] at hqpend
        cases hqpend
    | _ => exact absurd trivial hoff

/-- **No outbox row says what its transaction commits**: whatever notifications and refunds come, in whatever order their steps
are taken, the payload of each row written is not the status of the payments row. -/
theorem payloads_disagree {uc : PaymentUseCase} {terms : ChargeTerms} {hashtext : String → ℤ} {w₀ : PaymentsWorld}
    {tr : List PaymentsMoment} {c : PaymentsConfig} (h : (paymentsSys uc terms hashtext).Trace w₀ tr c) :
    ∀ m ∈ tr, ∃ rows, m.Writes rows ∧ ∀ row ∈ rows, ¬ row.AgreesWith m.after.pay.db := by
  intro m hm
  obtain ⟨tr₁, tr₂, htr⟩ := List.append_of_mem hm
  obtain ⟨ts₁, ts₂, k, hts, hrest⟩ := (h.steps m hm).thread
  have hreach := (h.before htr).reach
  have hin : m.thread ∈ m.before.threads := by rw [hts]; simp
  have ho := (hreach.all (P := fun _ => PaymentsOp.Announces) (PaymentsCall.prog_announces uc terms) _ hin)
  rw [hrest] at ho
  exact (h.steps m hm).exec.tells ho.1 (h.prior (PaymentsCall.prog_fromRead uc terms) m hm) (reads_bind hreach _ hin)

/-! ### A payment that has succeeded -/

theorem payloads_disagree_sample : ∃ tr c, ∃ m : PaymentsMoment, ∃ rows,
    (paymentsSys ⟨"alfa", 86400⟩ sampleTerms fun _ => 0).Trace samplePaymentsWorld tr c ∧ m ∈ tr ∧ m.Writes rows ∧ rows ≠ [] ∧
    ∀ row ∈ rows, ¬ row.AgreesWith m.after.pay.db := by
  obtain ⟨tr, c, m, h, hm, -, hbefore, hafter⟩ := success_reported
  obtain ⟨rows, hrows, hdisagree⟩ := payloads_disagree h m hm
  refine ⟨tr, c, m, rows, h, hm, hrows, ?_, hdisagree⟩
  rintro rfl
  unfold PaymentsMoment.Writes at hrows
  rw [hbefore, hafter] at hrows
  exact absurd (congrArg List.length hrows) (by decide)

theorem payloads_do_not_agree : ¬ ∀ (uc : PaymentUseCase) (terms : ChargeTerms) (hashtext : String → ℤ) (w₀ : PaymentsWorld)
    (tr : List PaymentsMoment) (c : PaymentsConfig), (paymentsSys uc terms hashtext).Trace w₀ tr c →
    ∀ m ∈ tr, ∀ rows, m.Writes rows → ∀ row ∈ rows, row.AgreesWith m.after.pay.db := by
  intro hall
  obtain ⟨tr, c, m, h, hm, -, hbefore, hafter⟩ := success_reported
  have hrows : m.Writes [paidRow] := by
    unfold PaymentsMoment.Writes
    rw [hbefore, hafter]
    rfl
  obtain ⟨st, hst, htells⟩ := hall _ _ _ _ _ _ h m hm [paidRow] hrows paidRow List.mem_cons_self
  rw [hafter] at hst
  have hpaid : paidWorld.pay.db.statusOf paidRow.paymentID = some .succeeded := rfl
  rw [hpaid] at hst
  cases hst
  exact absurd htells (by decide)

end Agregator
