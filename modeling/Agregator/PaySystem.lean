import Agregator.PayCharge
import Agregator.PayUsecase
/-!
# PaySystem — the payment service as a whole

Creations, webhooks and refunds of any payments at once, on one database.  What is known of one payment, told by its id, is
the provider it was made with, which nothing changes (`Exec.madeWith`), its status and the outbox rows about it
(`Exec.payment`).
-/
namespace Agregator

open Rel Conc

/-- The database and the refunds, with the provider's charges and the sessions of the database. -/
structure PaymentsWorld where
  pay : PayWorld
  charges : List CreateRequest
  sessions : List Session
  opened : ℕ

def PaymentsWorld.creating (w : PaymentsWorld) : CreateWorld := ⟨w.pay.db, w.charges, w.sessions, w.opened⟩

inductive PaymentsOp where
  | pay (o : PayOp)
  | create (o : CreateOp)
deriving DecidableEq

@[reducible] def PaymentsOp.Res : PaymentsOp → Type
  | pay o => o.Res
  | create o => o.Res

abbrev PaymentsProg := Prog PaymentsOp PaymentsOp.Res

inductive PaymentsCall where
  | createPayment (inp : CreatePaymentInput)
  | handleWebhook (rawBody : RawBody)
  | refundByBooking (bookingID : String)
deriving DecidableEq

def onPaying {α : Type} (p : PayProg α) : PaymentsProg α := p.lift .pay fun _ r => r

def onCreating {α : Type} (p : CreateProg α) : PaymentsProg α := p.lift .create fun _ r => r

/-- The call, with the error it returns. -/
def PaymentsCall.prog (uc : PaymentUseCase) (terms : ChargeTerms) : PaymentsCall → PaymentsProg (Option Err)
  | .createPayment inp => onCreating do return (← terms.createPayment inp).2
  | .handleWebhook rawBody => onPaying do return (← uc.handleWebhook rawBody).2
  | .refundByBooking bookingID => onPaying (Agregator.refundByBooking bookingID)

def PaymentsOp.Exec (hashtext : String → ℤ) : (o : PaymentsOp) → PaymentsWorld → o.Res → PaymentsWorld → Prop
  | pay o, w, r, w' => PayOp.Exec anyEnv o w.pay r w'.pay ∧ w'.charges = w.charges ∧ w'.sessions = w.sessions ∧ w'.opened = w.opened
  | create o, w, r, w' => CreateOp.Exec hashtext o w.creating r w'.creating ∧ w'.pay = { w.pay with db := w'.pay.db }

def paymentsSys (uc : PaymentUseCase) (terms : ChargeTerms) (hashtext : String → ℤ) :
    Sys PaymentsWorld PaymentsCall PaymentsOp PaymentsOp.Res (Option Err) where
  prog := PaymentsCall.prog uc terms
  ready _ _ := True
  exec := PaymentsOp.Exec hashtext
  env w w' := ∃ tx, w' = { w with sessions := (w.creating.close tx).sessions }

abbrev PaymentsConfig := Config PaymentsWorld PaymentsCall PaymentsOp PaymentsOp.Res (Option Err)

abbrev PaymentsMoment := Moment PaymentsWorld PaymentsCall PaymentsOp PaymentsOp.Res (Option Err)

/-! ## One payment -/

namespace PaymentDB

def payment (db : PaymentDB) (id : String) : Option Payment := db.payments.get (fun p => p.id == id)

def statusOf (db : PaymentDB) (id : String) : Option PaymentStatus := (db.payment id).map (·.status)

/-- The payment was made with this provider. -/
def MadeWith (db : PaymentDB) (id provider : String) : Prop := ∃ x ∈ db.payments.rows, x.id = id ∧ x.providerName = provider

def outboxOf (db : PaymentDB) (id : String) : List OutboxEvent := db.outbox.filter (·.paymentID == id)

variable {db : PaymentDB} {id : String} {p : Payment}

theorem payment_mem (hp : p ∈ db.payments.rows) (hid : p.id = id) : db.payment id = some p :=
  db.payments.get_key hp (by simpa using hid) fun x hx => Payment.clash_of_id ((by simpa using hx : x.id = id).trans hid.symm)

end PaymentDB

namespace PaymentRepo

variable {now : Time} {db : PaymentDB}

/-- A status update, of the payment it names and of the others. -/
theorem updateStatusWithOutbox_payment (now : Time) (id : String) (st : PaymentStatus) (pid : String) {ev : OutboxEvent}
    (db : PaymentDB) (hev : ev.paymentID = id) (i : String) :
    ((updateStatusWithOutbox now id st pid ev db).2.statusOf i = db.statusOf i ∧
      (updateStatusWithOutbox now id st pid ev db).2.outboxOf i = db.outboxOf i) ∨
    (i = id ∧ (∃ s, db.statusOf i = some s ∧ s.isTerminal = false) ∧
      (updateStatusWithOutbox now id st pid ev db).2.statusOf i = some st ∧
      ∃ o : OutboxEvent, (updateStatusWithOutbox now id st pid ev db).2.outboxOf i = db.outboxOf i ++ [o] ∧ o.subject = ev.subject) := by
  rcases updateStatusWithOutbox_cases now id st pid ev db with ⟨e, h, -⟩ | ⟨h, -⟩ |
    ⟨p, l₁, l₂, db', hrows, hid, hst, h, hrows', ⟨o, ho, hsub, -, hpay, -⟩, -⟩
  · rw [h]
    exact .inl ⟨rfl, rfl⟩
  · rw [h]
    exact .inl ⟨rfl, rfl⟩
  rw [h]
  by_cases hi : i = id
  · subst hi
    have hp : db.payment i = some p := PaymentDB.payment_mem (by rw [hrows]; simp) hid
    have hp' : db'.payment i = some { p with status := st, providerID := pid, updatedAt := now } :=
      PaymentDB.payment_mem (by rw [hrows']; simp) hid
    refine .inr ⟨rfl, ⟨p.status, by rw [PaymentDB.statusOf, hp]; rfl, hst⟩, by rw [PaymentDB.statusOf, hp']; rfl, o, ?_, hsub⟩
    simp [PaymentDB.outboxOf, ho, List.filter_append, hpay, hev]
  · have hne : ¬ p.id = i := fun hpi => hi (hpi.symm.trans hid)
    refine .inl ⟨?_, ?_⟩
    · simp [PaymentDB.statusOf, PaymentDB.payment, Table.get, hrows, hrows', List.find?_append, hne]
    · have hev' : ¬ o.paymentID = i := by
        rw [hpay, hev]
        exact Ne.symm hi
      simp [PaymentDB.outboxOf, ho, List.filter_append, hev']

/-- A claim, of the payment it makes and of the others. -/
theorem createIdempotent_payment (now : Time) (newID : String) {p : Payment} (db : PaymentDB) (hst : p.status = .pending)
    (i : String) :
    ((createIdempotent now newID p db).2.statusOf i = db.statusOf i ∨
      db.statusOf i = none ∧ (createIdempotent now newID p db).2.statusOf i = some .pending) ∧
    (createIdempotent now newID p db).2.outboxOf i = db.outboxOf i := by
  rcases createIdempotent_cases now newID p db with ⟨e, h⟩ | ⟨h, -⟩ | ⟨t, h, hrows, -⟩
  · rw [h]
    exact ⟨.inl rfl, rfl⟩
  · rw [h]
    exact ⟨.inl rfl, rfl⟩
  rw [h]
  refine ⟨?_, rfl⟩
  have hget : ({ db with payments := t } : PaymentDB).payment i =
      (db.payment i).or (if newID = i then some (newRow now newID p) else none) := by
    unfold PaymentDB.payment Table.get
    rw [hrows, List.find?_append]
    by_cases hi : newID = i <;> simp [newRow, hi]
  unfold PaymentDB.statusOf
  rw [hget]
  cases hpay : db.payment i with
  | some x => exact .inl rfl
  | none =>
    by_cases hi : newID = i
    · rw [if_pos hi]
      exact .inr ⟨rfl, congrArg some hst⟩
    · rw [if_neg hi]
      exact .inl rfl

theorem setProviderInfo_payment {id pid url : String} {db' : PaymentDB}
    (h : setProviderInfo now id pid url db = .ok (some db')) (i : String) :
    db'.statusOf i = db.statusOf i ∧ db'.outboxOf i = db.outboxOf i := by
  rcases setProviderInfo_cases now id pid url db with ⟨e, he⟩ | ⟨he, -⟩ | ⟨t, he, hrows⟩
  · rw [he] at h
    cases h
  · rw [he] at h
    cases h
  rw [he] at h
  cases h
  refine ⟨?_, rfl⟩
  unfold PaymentDB.statusOf PaymentDB.payment Table.get
  rw [hrows, List.find?_map, Option.map_map]
  have hid : ∀ x : Payment, ((fun p : Payment => p.id == i) ∘ fun x : Payment =>
      if x.id == id then { x with providerID := pid, paymentURL := url, updatedAt := now } else x) x = (x.id == i) := by
    intro x
    simp only [Function.comp]
    split <;> rfl
  rw [funext hid]
  congr 1
  funext x
  simp only [Function.comp]
  split <;> rfl

end PaymentRepo

/-! ## What the programs ask for -/

/-- A new payment is pending, and an update puts the payment it names into a status for good, with an event for it. -/
def PaymentsOp.Announces : PaymentsOp → Prop
  | pay (.updateStatusWithOutbox id st _ ev) => st.isTerminal = true ∧ ev.subject = statusToSubject st ∧ ev.paymentID = id
  | create (.createIdempotent p) => p.status = .pending ∧ p.providerName = ""
  | _ => True

theorem lift_all {Op Op' : Type} {Res : Op → Type} {Res' : Op' → Type} {α : Type} {f : Op → Op'}
    {g : (o : Op) → Res' (f o) → Res o} {P : Op' → Prop} : ∀ {p : Prog Op Res α}, p.All (fun o => P (f o)) → (p.lift f g).All P
  | .ret _, _ => trivial
  | .call _ _, h => ⟨h.1, fun _ => lift_all (h.2 _)⟩

theorem PayOp.announces_offside {o : PayOp} (h : o.offside) : (PaymentsOp.pay o).Announces := by
  cases o with
  | updateStatusWithOutbox => exact False.elim h
  | _ => trivial

/-- What holds of the statements that neither write a payment nor tell of one, and of the update of a final event, holds of
a delivery. -/
theorem handleWebhook_all {P : PayOp → Prop} (hoff : ∀ o, o.offside → P o)
    (hupd : ∀ p st pid, st.isTerminal = true →
      P (.updateStatusWithOutbox p.id st pid (buildOutboxEvent p (statusToSubject st))))
    (uc : PaymentUseCase) (raw : RawBody) : (uc.handleWebhook raw).All P := by
  unfold PaymentUseCase.handleWebhook
  simp only [Prog.bind_eq, Prog.perform_bind]
  refine ⟨hoff _ trivial, fun r => ?_⟩
  cases r with
  | error err => trivial
  | ok event =>
  dsimp only
  split
  · refine ⟨hoff _ trivial, fun r => ?_⟩
    cases r <;> trivial
  split
  · trivial
  rename_i hterm
  refine ⟨hoff _ trivial, fun r => ?_⟩
  cases r with
  | error err => trivial
  | ok p =>
  dsimp only
  split
  · trivial
  refine ⟨hupd p event.status _ (by simpa using hterm), fun r => ?_⟩
  cases r with
  | error err => trivial
  | ok updated =>
  dsimp only
  split
  · trivial
  split
  · refine Prog.All.bind (fun res => ?_) ((writeAccrual_offside uc p).mono hoff)
    cases res <;> trivial
  · trivial

theorem refundByBooking_all {P : PayOp → Prop} (hoff : ∀ o, o.offside → P o)
    (hupd : ∀ (p : Payment) pid,
      P (.updateStatusWithOutbox p.id .refunded pid (buildOutboxEvent { p with status := .refunded } .paymentRefunded)))
    (b : String) : (refundByBooking b).All P := by
  unfold refundByBooking
  simp only [Prog.bind_eq, Prog.perform_bind]
  refine ⟨hoff _ trivial, fun r => ?_⟩
  cases r with
  | error err => dsimp only; split <;> trivial
  | ok p =>
  dsimp only
  split
  · trivial
  refine ⟨hoff _ trivial, fun r => ?_⟩
  cases r with
  | error err => trivial
  | ok u =>
  refine ⟨hupd p _, fun r => ?_⟩
  cases r with
  | error err => trivial
  | ok updated =>
    refine Prog.All.bind (fun res => ?_) ((writeReversal_offside _).mono hoff)
    cases res <;> trivial

theorem handleWebhook_announces (uc : PaymentUseCase) (raw : RawBody) :
    (uc.handleWebhook raw).All fun o => PaymentsOp.Announces (.pay o) :=
  handleWebhook_all (fun _ => PayOp.announces_offside) (fun _ _ _ hst => ⟨hst, rfl, rfl⟩) uc raw

theorem refundByBooking_announces (b : String) : (refundByBooking b).All fun o => PaymentsOp.Announces (.pay o) :=
  refundByBooking_all (fun _ => PayOp.announces_offside) (fun _ _ => ⟨rfl, rfl, rfl⟩) b

theorem PaymentsCall.prog_announces (uc : PaymentUseCase) (terms : ChargeTerms) (c : PaymentsCall) :
    (c.prog uc terms).All PaymentsOp.Announces := by
  cases c with
  | createPayment inp =>
    have hall : (terms.createPayment inp).All fun o => PaymentsOp.Announces (.create o) :=
      (createPayment_after terms inp).all fun h o hp => by
        cases o with
        | createIdempotent p =>
          have hp : p = terms.newPayment inp := hp
          rw [hp]
          exact ⟨rfl, rfl⟩
        | _ => trivial
    exact lift_all (Prog.All.bind (fun _ => by trivial) hall)
  | handleWebhook raw => exact lift_all (Prog.All.bind (fun _ => by trivial) (handleWebhook_announces uc raw))
  | refundByBooking b => exact lift_all (refundByBooking_announces b)

/-! ## One operation -/

namespace PaymentsOp.Exec

variable {hashtext : String → ℤ} {o : PaymentsOp} {w w' : PaymentsWorld} {r : o.Res}

/-- A creation leaves the outbox alone, and makes a payment at most. -/
theorem created {o : CreateOp} {r : o.Res} (he : PaymentsOp.Exec hashtext (.create o) w r w')
    (ho : PaymentsOp.Announces (.create o)) (id : String) :
    (w'.pay.db.statusOf id = w.pay.db.statusOf id ∨ w.pay.db.statusOf id = none ∧ w'.pay.db.statusOf id = some .pending) ∧
      w'.pay.db.outboxOf id = w.pay.db.outboxOf id := by
  obtain ⟨he, -⟩ := he
  have hquiet : w'.creating.db = w.creating.db →
      ((w'.pay.db.statusOf id = w.pay.db.statusOf id ∨ w.pay.db.statusOf id = none ∧ w'.pay.db.statusOf id = some .pending) ∧
        w'.pay.db.outboxOf id = w.pay.db.outboxOf id) := by
    intro h
    have h : w'.pay.db = w.pay.db := h
    rw [h]
    exact ⟨.inl rfl, rfl⟩
  rcases he.state with h | ⟨env, h⟩
  · exact hquiet (by rw [h])
  have hdb : w'.pay.db = (o.attempt hashtext env w.creating).2.db := congrArg CreateWorld.db h
  rcases CreateOp.attempt_db hashtext env o w.creating with hsame | ⟨p, rfl, hclaim⟩ | ⟨i, pid, url, db, hset, hstore⟩
  · exact hquiet (by rw [h, hsame])
  · rw [hdb, hclaim]
    exact PaymentRepo.createIdempotent_payment env.now env.newID w.pay.db ho.1 id
  · rw [hdb, hstore]
    exact (PaymentRepo.setProviderInfo_payment hset id).imp .inl fun h => h

/-- **What one operation does to a payment**: it leaves status and outbox alone, makes the payment, or puts a pending one
into a status for good, with one outbox row that says so. -/
theorem payment (he : PaymentsOp.Exec hashtext o w r w') (ho : o.Announces) (id : String) :
    ((w'.pay.db.statusOf id = w.pay.db.statusOf id ∨ w.pay.db.statusOf id = none ∧ w'.pay.db.statusOf id = some .pending) ∧
      w'.pay.db.outboxOf id = w.pay.db.outboxOf id) ∨
    (w.pay.db.statusOf id = some .pending ∧ ∃ st, w'.pay.db.statusOf id = some st ∧ st.isTerminal = true ∧
      ∃ e : OutboxEvent, w'.pay.db.outboxOf id = w.pay.db.outboxOf id ++ [e] ∧ e.subject = statusToSubject st) := by
  cases o with
  | pay o =>
    obtain ⟨he, -⟩ := he
    by_cases hoff : o.offside
    · obtain ⟨hp, hout, -⟩ := PayOp.Exec.payments he hoff
      have hst : w'.pay.db.statusOf id = w.pay.db.statusOf id := by
        unfold PaymentDB.statusOf PaymentDB.payment
        rw [hp]
      have hob : w'.pay.db.outboxOf id = w.pay.db.outboxOf id := by
        unfold PaymentDB.outboxOf
        rw [hout]
      exact .inl ⟨.inl hst, hob⟩
    cases o with
    | updateStatusWithOutbox i st pid ev =>
      obtain ⟨hterm, hsub, hev⟩ := ho
      obtain ⟨now, h | h⟩ := PayOp.Exec.update_state he <;> rw [h]
      · exact .inl ⟨.inl rfl, rfl⟩
      rcases PaymentRepo.updateStatusWithOutbox_payment now i st pid w.pay.db hev id with
        ⟨h1, h2⟩ | ⟨-, ⟨s, hs, hpend⟩, h1, e, h2, h3⟩
      · exact .inl ⟨.inl h1, h2⟩
      · have hs' : s = .pending := by cases s <;> first | rfl | cases hpend
        rw [hs'] at hs
        exact .inr ⟨hs, st, h1, hterm, e, h2, h3.trans hsub⟩
    | _ => exact absurd trivial hoff
  | create o => exact .inl (created he ho id)

/-- **Nothing changes the provider a payment was made with.** -/
theorem madeWith (he : PaymentsOp.Exec hashtext o w r w') {id provider : String} (h : w.pay.db.MadeWith id provider) :
    w'.pay.db.MadeWith id provider := by
  obtain ⟨x, hx, hid, hname⟩ := h
  cases o with
  | pay o =>
    obtain ⟨he, -⟩ := he
    by_cases hoff : o.offside
    · rw [PaymentDB.MadeWith, (PayOp.Exec.payments he hoff).1]
      exact ⟨x, hx, hid, hname⟩
    cases o with
    | updateStatusWithOutbox i st pid ev =>
      rcases PayOp.Exec.update_row he with h | ⟨now, p, l₁, l₂, db', hrows, -, -, h, hrows', -⟩ <;> rw [h]
      · exact ⟨x, hx, hid, hname⟩
      rw [hrows, List.mem_append, List.mem_cons] at hx
      unfold PaymentDB.MadeWith
      rw [hrows']
      rcases hx with hx | rfl | hx
      · exact ⟨x, by simp [hx], hid, hname⟩
      · exact ⟨_, List.mem_append_right _ List.mem_cons_self, hid, hname⟩
      · exact ⟨x, by simp [hx], hid, hname⟩
    | _ => exact absurd trivial hoff
  | create o =>
    obtain ⟨he, -⟩ := he
    rcases he.state with h | ⟨env, h⟩
    · have hdb : w'.pay.db = w.pay.db := congrArg CreateWorld.db h
      rw [hdb]
      exact ⟨x, hx, hid, hname⟩
    have hdb : w'.pay.db = (o.attempt hashtext env w.creating).2.db := congrArg CreateWorld.db h
    rw [hdb]
    rcases CreateOp.attempt_db hashtext env o w.creating with hsame | ⟨p, rfl, hclaim⟩ | ⟨i, pid, url, db, hset, hstore⟩
    · rw [hsame]
      exact ⟨x, hx, hid, hname⟩
    · rw [hclaim]
      exact ⟨x, PaymentRepo.createIdempotent_rows _ _ p _ x hx, hid, hname⟩
    · rw [hstore]
      rcases PaymentRepo.setProviderInfo_cases env.now i pid url w.creating.db with ⟨e, h⟩ | ⟨h, -⟩ | ⟨t, h, hrows⟩
      · rw [h] at hset
        cases hset
      · rw [h] at hset
        cases hset
      rw [h] at hset
      cases hset
      refine ⟨_, by rw [hrows]; exact List.mem_map.2 ⟨x, hx, rfl⟩, ?_⟩
      split <;> exact ⟨hid, hname⟩

/-- A claim names the provider of the payment it makes. -/
theorem claimed {p row : Payment} (he : PaymentsOp.Exec hashtext (.create (.createIdempotent p)) w (.ok (true, row)) w') :
    w'.pay.db.MadeWith row.id (if p.providerName = "" then "mock" else p.providerName) := by
  obtain ⟨⟨env, he⟩, -⟩ := he
  have hrun := Fault.of_ok he
  simp only [CreateOp.attempt, onCreate] at hrun
  rcases PaymentRepo.createIdempotent_cases env.now env.newID p w.creating.db with ⟨e, h⟩ | ⟨h, -⟩ | ⟨t, h, hrows, -⟩ <;>
    rw [h] at hrun
  · cases hrun
  · cases hrun
  · obtain ⟨hres, hw⟩ := Prod.mk.inj hrun
    have hdb : w'.pay.db = { w.creating.db with payments := t } := (congrArg CreateWorld.db hw).symm
    cases hres
    rw [PaymentDB.MadeWith, hdb]
    exact ⟨PaymentRepo.newRow env.now env.newID p, by simp [hrows], rfl, rfl⟩

end PaymentsOp.Exec

end Agregator
