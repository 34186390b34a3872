import Agregator.PayUsecase
/-!
# PayView — one payment seen through the database

What the database says of one payment comes down to three things: its status, whether the partner has been credited,
and whether the credit has been taken back.  `Shows` relates a database to such a view; the lemmas here are the
repository calls read at that level.
-/
namespace Agregator

open Rel Conc

structure PayView where
  status   : PaymentStatus
  credited : Bool
  reversed : Bool
deriving DecidableEq

/-- The ledger entries of the payment: type and amount, in the order they were written. -/
def PayView.entries (v : PayView) (net : ℤ) : List (LedgerEntryType × ℤ) :=
  (if v.credited then [(.accrual, net)] else []) ++ (if v.reversed then [(.reversal, -net)] else [])

/-- What the entries of the payment sum to. -/
def PayView.balance (v : PayView) (net : ℤ) : ℤ := ((v.entries net).map (·.2)).sum

/-- The same payment, but for what the status update writes. -/
def Payment.sameAs (p q : Payment) : Prop := q = { p with status := q.status, updatedAt := q.updatedAt }

theorem Payment.sameAs_refl (p : Payment) : p.sameAs p := rfl

def LedgerEntry.ofPayment (pid : String) (e : LedgerEntry) : Bool := e.paymentID == pid

/-- The type and the amount of the payment's ledger entries. -/
def PaymentDB.entriesOf (db : PaymentDB) (pid : String) : List (LedgerEntryType × ℤ) :=
  (db.ledger.select (LedgerEntry.ofPayment pid)).map fun e => (e.entryType, e.amountKopecks)

structure PaymentDB.Shows (db : PaymentDB) (p : Payment) (v : PayView) : Prop where
  row     : ∃ q ∈ db.payments.rows, p.sameAs q ∧ q.status = v.status
  entries : db.entriesOf p.id = v.entries p.counterpartyNetKopecks

/-- The accrual of the payment passes the ledger's constraints: its partner is one. -/
def Payment.creditable (p : Payment) : Bool :=
  (PartnerType.ofString p.counterpartyType).valid && isUUID p.counterpartyID && decide (0 < p.counterpartyNetKopecks)

/-- The payment owes a partner something, whether or not the ledger can hold it. -/
def Payment.hasShare (p : Payment) : Bool :=
  p.counterpartyID != "" && p.counterpartyType != "" && decide (0 < p.counterpartyNetKopecks)

theorem Payment.hasShare_of_creditable {p : Payment} (h : p.creditable = true) : p.hasShare = true := by
  simp only [Payment.creditable, Bool.and_eq_true, decide_eq_true_eq] at h
  obtain ⟨⟨hty, hid⟩, hnet⟩ := h
  have hty' : p.counterpartyType ≠ "" := by
    intro h0
    rw [h0] at hty
    exact absurd hty (by decide)
  simp [Payment.hasShare, ne_empty_of_isUUID hid, hty', hnet]

namespace PaymentDB.Shows

variable {db : PaymentDB} {p : Payment} {v : PayView}

theorem getByBookingID (h : db.Shows p v) :
    ∃ q, PaymentRepo.getByBookingID p.bookingID db = .ok q ∧ q ∈ db.payments.rows ∧ p.sameAs q ∧ q.status = v.status := by
  obtain ⟨q, hq, hs, hst⟩ := h.row
  refine ⟨q, ?_, hq, hs, hst⟩
  have hb : p.bookingID = q.bookingID := by rw [hs]
  rw [hb]
  exact PaymentRepo.getByBookingID_mem hq

theorem getByProviderID (h : db.Shows p v) :
    ∃ q, PaymentRepo.getByProviderID p.providerID db = .ok q ∧ q ∈ db.payments.rows ∧ p.sameAs q ∧
      q.status = v.status := by
  obtain ⟨q, hq, hs, hst⟩ := h.row
  refine ⟨q, ?_, hq, hs, hst⟩
  have hb : p.providerID = q.providerID := by rw [hs]
  rw [hb]
  exact PaymentRepo.getByProviderID_mem hq

theorem isUUID_id (h : db.Shows p v) : isUUID p.id = true := by
  obtain ⟨q, hq, hs, -⟩ := h.row
  have hid : p.id = q.id := by rw [hs]
  rw [hid]
  exact (Payment.uuids hq).1

/-- A terminal payment stays as it is. -/
theorem update_terminal (h : db.Shows p v) (ht : v.status.isTerminal = true) (now : Time) (st : PaymentStatus)
    (pid : String) (ev : OutboxEvent) :
    PaymentRepo.updateStatusWithOutbox now p.id st pid ev db = (.ok false, db) := by
  obtain ⟨q, hq, hs, hst⟩ := h.row
  have hid : p.id = q.id := by rw [hs]
  rw [hid]
  exact PaymentRepo.updateStatusWithOutbox_terminal hq (by rw [hst, ht]) now st pid ev

/-- A pending payment takes the new status, and one outbox row is written. -/
theorem update_pending (h : db.Shows p v) (ht : v.status.isTerminal = false) (now : Time) (st : PaymentStatus)
    (ev : OutboxEvent) (hev : ev.paymentID = p.id) :
    ∃ db', PaymentRepo.updateStatusWithOutbox now p.id st p.providerID ev db = (.ok true, db') ∧
      db'.Shows p { v with status := st } ∧ db'.ledger = db.ledger ∧
      ∃ o : OutboxEvent, db'.outbox = db.outbox ++ [o] ∧ o.subject = ev.subject ∧ o.paymentID = p.id := by
  obtain ⟨q, hq, hs, hst⟩ := h.row
  have hid : p.id = q.id := by rw [hs]
  have hpid : p.providerID = q.providerID := by rw [hs]
  obtain ⟨db', hok⟩ := PaymentRepo.updateStatusWithOutbox_pending now st ev hq (by rw [hst, ht]) (hev.trans hid)
  rw [← hid, ← hpid] at hok
  rcases PaymentRepo.updateStatusWithOutbox_cases now p.id st p.providerID ev db with
    ⟨e, he, -⟩ | ⟨he, -⟩ | ⟨q', l₁, l₂, db₁, hrows, hid', -, he, hrows', ⟨o, ho, hsub, -, hpay, -⟩, hl, -, -⟩
  · simp [hok] at he
  · simp [hok] at he
  obtain rfl : db' = db₁ := by simpa [hok] using he
  have hqq : q' = q := db.payments.eq_of_clash (by simp [hrows]) hq (Payment.clash_of_id (hid'.trans hid))
  subst hqq
  refine ⟨db', hok, ⟨⟨{ q' with status := st, providerID := p.providerID, updatedAt := now }, by simp [hrows'], ?_, rfl⟩,
    ?_⟩, hl, o, ho, hsub, hpay.trans hev⟩
  · rw [Payment.sameAs, hs]
  · have he := h.entries
    simpa [entriesOf, hl, PayView.entries] using he

/-! ### The ledger entries of the payment -/

/-- An entry of the payment in the view is one in the ledger. -/
theorem mem_entries (h : db.Shows p v) {t : LedgerEntryType} {a : ℤ}
    (ha : (t, a) ∈ v.entries p.counterpartyNetKopecks) :
    ∃ e ∈ db.ledger.rows, e.paymentID = p.id ∧ e.entryType = t ∧ e.amountKopecks = a := by
  rw [← h.entries] at ha
  obtain ⟨e, he, hta⟩ := List.mem_map.1 ha
  obtain ⟨hm, hp⟩ := List.mem_filter.1 he
  simp only [Prod.mk.injEq] at hta
  exact ⟨e, hm, by simpa [LedgerEntry.ofPayment] using hp, hta.1, hta.2⟩

theorem entry_mem (h : db.Shows p v) {e : LedgerEntry} (he : e ∈ db.ledger.rows) (hp : e.paymentID = p.id) :
    (e.entryType, e.amountKopecks) ∈ v.entries p.counterpartyNetKopecks := by
  rw [← h.entries]
  exact List.mem_map.2 ⟨e, List.mem_filter.2 ⟨he, by simp [LedgerEntry.ofPayment, hp]⟩, rfl⟩

/-- An accrual in the ledger is the credit of the view. -/
theorem accrual (h : db.Shows p v) {e : LedgerEntry} (he : e ∈ db.ledger.rows)
    (hacc : LedgerRepo.isAccrualOf p.id e = true) : v.credited = true ∧ e.amountKopecks = p.counterpartyNetKopecks := by
  obtain ⟨hp, hty⟩ := LedgerRepo.isAccrualOf_iff.1 hacc
  have hm := h.entry_mem he hp
  rw [hty] at hm
  simpa [PayView.entries] using hm

theorem credited (h : db.Shows p v) (hc : v.credited = true) :
    ∃ e ∈ db.ledger.rows, LedgerRepo.isAccrualOf p.id e = true ∧ e.amountKopecks = p.counterpartyNetKopecks := by
  obtain ⟨e, he, hp, hty, ha⟩ := h.mem_entries (t := .accrual) (a := p.counterpartyNetKopecks)
    (by simp [PayView.entries, hc])
  exact ⟨e, he, LedgerRepo.isAccrualOf_iff.2 ⟨hp, hty⟩, ha⟩

/-- The lookup of the accrual says whether the payment is credited. -/
theorem findAccrual (h : db.Shows p v) :
    (v.credited = true ∧ ∃ a, LedgerRepo.findAccrualByPayment p.id db = .ok a ∧ a ∈ db.ledger.rows ∧
      LedgerRepo.isAccrualOf p.id a = true ∧ a.amountKopecks = p.counterpartyNetKopecks) ∨
    (v.credited = false ∧ LedgerRepo.findAccrualByPayment p.id db =
      .error (.status .notFound "accrual not found for payment")) := by
  cases hc : v.credited with
  | true =>
    obtain ⟨a, ha, hacc, hamt⟩ := h.credited hc
    exact .inl ⟨rfl, a, LedgerRepo.findAccrualByPayment_mem h.isUUID_id ha hacc, ha, hacc, hamt⟩
  | false =>
    refine .inr ⟨rfl, LedgerRepo.findAccrualByPayment_none h.isUUID_id (fun x hx => ?_)⟩
    by_contra hacc
    have := (h.accrual hx (by simpa using hacc)).1
    rw [hc] at this
    cases this

end PaymentDB.Shows

/-- Appending an entry of the payment appends to what the view shows. -/
theorem PaymentDB.entriesOf_insert {db : PaymentDB} {t : Table ledgerSchema} {e : LedgerEntry} {pid : String}
    (h : db.ledger.insert e = .ok t) (he : e.paymentID = pid) :
    ({ db with ledger := t } : PaymentDB).entriesOf pid = db.entriesOf pid ++ [(e.entryType, e.amountKopecks)] := by
  simp [PaymentDB.entriesOf, Table.select, Table.insert_rows h, LedgerEntry.ofPayment, he]

/-! ## Crediting and taking back -/

/-! ### The reversal of an accrual, in any database -/

/-- The payment is in the database. -/
def PaymentDB.Has (db : PaymentDB) (pid : String) : Prop := ∃ x ∈ db.payments.rows, x.id = pid

theorem PaymentDB.Has.isUUID {db : PaymentDB} {pid : String} (h : db.Has pid) : isUUID pid = true := by
  obtain ⟨x, hx, rfl⟩ := h
  exact (Payment.uuids hx).1

/-- A ledger row of a payment that is there, with nothing else to refer to than an entry that is there. -/
theorem PaymentDB.Has.refersTo {db : PaymentDB} {e : LedgerEntry} (h : db.Has e.paymentID) (ho : e.payoutID = "")
    (hr : e.reversesEntryID = 0 ∨ ∃ x ∈ db.ledger.rows, x.id = e.reversesEntryID) : db.refersTo e = true := by
  obtain ⟨q, hq, hid⟩ := h
  have hpay : db.payments.rows.any (·.id == e.paymentID) = true := List.any_eq_true.2 ⟨q, hq, by simp [hid]⟩
  rcases hr with hr | ⟨x, hx, hxe⟩
  · simp [PaymentDB.refersTo, hpay, ho, hr]
  · have hent : db.ledger.rows.any (·.id == e.reversesEntryID) = true :=
      List.any_eq_true.2 ⟨x, hx, by simp [hxe]⟩
    simp [PaymentDB.refersTo, hpay, ho, hent]

/-- **The reversal of an accrual is written, or one is there already.** -/
theorem appendReversal_written {db : PaymentDB} {q : Payment} (hq : db.Has q.id) {a : LedgerEntry}
    (ha : a ∈ db.ledger.rows) (hacc : LedgerRepo.isAccrualOf q.id a = true) (now : Time) :
    (∃ t, LedgerRepo.appendReversal now (reversalEntry q a) db = (.ok (), { db with ledger := t }) ∧
      db.ledger.insert ((reversalEntry q a).row now db) = .ok t) ∨
    (LedgerRepo.appendReversal now (reversalEntry q a) db =
        (.error (.status .alreadyExists "ledger entry already exists"), db) ∧
      ∃ x ∈ db.ledger.rows, x.paymentID = q.id ∧ x.entryType = .reversal) := by
  have hid := hq.isUUID
  have hne := ne_empty_of_isUUID hid
  obtain ⟨-, hty⟩ := LedgerRepo.isAccrualOf_iff.1 hacc
  -- the accrual passed the checks its reversal is put to
  have hc := db.ledger.checked a ha
  simp only [ledgerSchema, LedgerEntry.signOk, hty, Bool.and_eq_true, decide_eq_true_eq] at hc
  obtain ⟨⟨⟨⟨⟨⟨hpt, hpid⟩, -⟩, -⟩, hpos⟩, hamt⟩, -⟩ := hc
  have hneg : ¬ a.amountKopecks ≤ 0 := by omega
  have hne0 : a.id ≠ 0 := by omega
  have hcheck : ledgerSchema.check ((reversalEntry q a).row now db) = true := by
    simp [ledgerSchema, reversalEntry, LedgerEntry.row, LedgerEntry.signOk, LedgerEntry.refOk, hpt, hpid, hid, hne,
      hamt, Rel.nextSerial_pos, hne0]
  have happ : LedgerRepo.appendReversal now (reversalEntry q a) db = appendLedgerEntry now (reversalEntry q a) db := by
    simp [LedgerRepo.appendReversal, reversalEntry, hne, hneg, hne0]
  rw [happ, appendLedgerEntry]
  by_cases hx : ∀ x ∈ db.ledger.rows, ledgerSchema.clash x ((reversalEntry q a).row now db) = false
  · obtain ⟨t, ht⟩ := db.ledger.insert_ok hcheck hx
    have href : db.refersTo (reversalEntry q a) = true := PaymentDB.Has.refersTo hq rfl (.inr ⟨a, ha, rfl⟩)
    exact .inl ⟨t, by rw [ht]; simp [href], ht⟩
  · push Not at hx
    obtain ⟨x, hx, hcl⟩ := hx
    rw [db.ledger.insert_unique hcheck hx (by simpa using hcl)]
    obtain ⟨hty, hp⟩ := LedgerEntry.of_clash_row hx (by simpa using hcl)
    exact .inr ⟨rfl, x, hx, by simpa [hty, reversalEntry] using hp, hty⟩

namespace PaymentDB.Shows

variable {db : PaymentDB} {p q : Payment} {v : PayView}

/-- The payment of a view is in the database, under any reading of its row. -/
theorem has (h : db.Shows p v) (hs : p.sameAs q) : db.Has q.id := by
  obtain ⟨x, hx, hxs, -⟩ := h.row
  exact ⟨x, hx, by rw [hxs, hs]⟩

/-- The accrual of the payment passes the check of the ledger if the payment is creditable. -/
theorem check_accrual (h : db.Shows p v) (hs : p.sameAs q) (uc : PaymentUseCase) (now base : Time) :
    ledgerSchema.check ((uc.accrualEntry q base).row now db) = p.creditable := by
  have hid := h.isUUID_id
  have hne := ne_empty_of_isUUID hid
  rw [hs]
  simp [ledgerSchema, PaymentUseCase.accrualEntry, LedgerEntry.row, Payment.creditable, hid, hne, Rel.nextSerial_pos,
    LedgerEntry.signOk, LedgerEntry.refOk]

theorem appendAccrual_eq (h : db.Shows p v) (hs : p.sameAs q) (hnet : 0 < p.counterpartyNetKopecks)
    (uc : PaymentUseCase) (now base : Time) : LedgerRepo.appendAccrual now (uc.accrualEntry q base) db =
      appendLedgerEntry now (uc.accrualEntry q base) db := by
  have hne := ne_empty_of_isUUID h.isUUID_id
  have hamt : ¬ p.counterpartyNetKopecks ≤ 0 := by omega
  rw [hs]
  simp [LedgerRepo.appendAccrual, PaymentUseCase.accrualEntry, hne, hamt]

/-- **The first accrual credits the payment.** -/
theorem appendAccrual_new (h : db.Shows p v) (hs : p.sameAs q) (hcr : p.creditable = true) (hc : v.credited = false)
    (hr : v.reversed = false) (uc : PaymentUseCase) (now base : Time) :
    ∃ t, LedgerRepo.appendAccrual now (uc.accrualEntry q base) db = (.ok (), { db with ledger := t }) ∧
      PaymentDB.Shows { db with ledger := t } p { v with credited := true } ∧
      db.ledger.insert ((uc.accrualEntry q base).row now db) = .ok t := by
  have hnet : 0 < p.counterpartyNetKopecks := by
    simp only [Payment.creditable, Bool.and_eq_true, decide_eq_true_eq] at hcr
    exact hcr.2
  obtain ⟨t, ht⟩ := db.ledger.insert_ok (r := (uc.accrualEntry q base).row now db)
    ((h.check_accrual hs uc now base).trans hcr) (fun x hx => by
      by_contra hcl
      obtain ⟨hty, hcl⟩ := LedgerEntry.of_clash_row hx (by simpa using hcl)
      have hp : x.paymentID = p.id := by
        rw [hs] at hcl
        simpa [hty, PaymentUseCase.accrualEntry] using hcl
      have := (h.accrual hx (LedgerRepo.isAccrualOf_iff.2 ⟨hp, hty⟩)).1
      rw [hc] at this
      cases this)
  have hid : ((uc.accrualEntry q base).row now db).paymentID = p.id := by rw [hs]; rfl
  have href : db.refersTo (uc.accrualEntry q base) = true := PaymentDB.Has.refersTo (h.has hs) rfl (.inl rfl)
  refine ⟨t, ?_, ⟨h.row, ?_⟩, ht⟩
  · rw [h.appendAccrual_eq hs hnet, appendLedgerEntry, ht]
    simp [href]
  · rw [PaymentDB.entriesOf_insert ht hid, h.entries]
    rw [hs]
    simp [PayView.entries, hc, hr, LedgerEntry.row, PaymentUseCase.accrualEntry]

/-- **A second accrual is refused**, and the answer says why. -/
theorem appendAccrual_again (h : db.Shows p v) (hs : p.sameAs q) (hcr : p.creditable = true) (hc : v.credited = true)
    (uc : PaymentUseCase) (now base : Time) :
    LedgerRepo.appendAccrual now (uc.accrualEntry q base) db =
      (.error (.status .alreadyExists "ledger entry already exists"), db) := by
  have hnet : 0 < p.counterpartyNetKopecks := by
    simp only [Payment.creditable, Bool.and_eq_true, decide_eq_true_eq] at hcr
    exact hcr.2
  obtain ⟨a, ha, hacc, -⟩ := h.credited hc
  obtain ⟨hp, hty⟩ := LedgerRepo.isAccrualOf_iff.1 hacc
  have hid : ((uc.accrualEntry q base).row now db).paymentID = p.id := by rw [hs]; rfl
  rw [h.appendAccrual_eq hs hnet, appendLedgerEntry, db.ledger.insert_unique
    ((h.check_accrual hs uc now base).trans hcr) ha (LedgerEntry.clash_of_accrual hty rfl (hp.trans hid.symm))]

/-- **A partner the ledger does not know is never credited.** -/
theorem appendAccrual_check (h : db.Shows p v) (hs : p.sameAs q) (hcr : p.creditable = false)
    (hnet : 0 < p.counterpartyNetKopecks) (uc : PaymentUseCase) (now base : Time) :
    LedgerRepo.appendAccrual now (uc.accrualEntry q base) db =
      (.error ((violationErr .check).wrap "ledger insert"), db) := by
  rw [h.appendAccrual_eq hs hnet, appendLedgerEntry, db.ledger.insert_check
    ((h.check_accrual hs uc now base).trans hcr)]

/-- **The first reversal takes the credit back.** -/
theorem appendReversal_new (h : db.Shows p v) (hs : p.sameAs q) {a : LedgerEntry} (ha : a ∈ db.ledger.rows)
    (hacc : LedgerRepo.isAccrualOf p.id a = true) (hr : v.reversed = false) (now : Time) :
    ∃ t, LedgerRepo.appendReversal now (reversalEntry q a) db = (.ok (), { db with ledger := t }) ∧
      PaymentDB.Shows { db with ledger := t } p { v with reversed := true } := by
  have hid : q.id = p.id := by rw [hs]
  rcases appendReversal_written (h.has hs) ha (hid ▸ hacc) now with ⟨t, hw, ht⟩ | ⟨-, x, hx, hp, hty⟩
  · refine ⟨t, hw, h.row, ?_⟩
    rw [PaymentDB.entriesOf_insert ht hid, h.entries]
    obtain ⟨hc, hamt⟩ := h.accrual ha hacc
    simp [PayView.entries, hr, LedgerEntry.row, reversalEntry, hamt]
  · -- no reversal of the payment is there to clash with
    have hm := h.entry_mem hx (hp.trans hid)
    rw [hty] at hm
    simp [PayView.entries, hr] at hm

/-- **A second reversal is refused**, and the answer says why. -/
theorem appendReversal_again (h : db.Shows p v) (hs : p.sameAs q) {a : LedgerEntry} (ha : a ∈ db.ledger.rows)
    (hacc : LedgerRepo.isAccrualOf p.id a = true) (hr : v.reversed = true) (now : Time) :
    LedgerRepo.appendReversal now (reversalEntry q a) db =
      (.error (.status .alreadyExists "ledger entry already exists"), db) := by
  have hid : q.id = p.id := by rw [hs]
  obtain ⟨x, hx, hp, hty, -⟩ := h.mem_entries (t := .reversal) (a := -p.counterpartyNetKopecks)
    (by simp [PayView.entries, hr])
  rcases appendReversal_written (h.has hs) ha (hid ▸ hacc) now with ⟨t, -, ht⟩ | ⟨he, -⟩
  · have hcl := (Rel.Table.of_insert_ok ht).2 x hx
    rw [LedgerEntry.clash_of_reversal hty rfl (hp.trans hid.symm)] at hcl
    cases hcl
  · exact he

end PaymentDB.Shows

end Agregator
