import Agregator.PayStore
/-!
# PayFacts — what the payment repositories do

One lemma for each repository function says everything it can do; the modules above use these and do not unfold the
functions again.
-/
namespace Agregator

open Rel

/-! ## Keys of `payments` -/

theorem Payment.clash_of_id {a b : Payment} (h : a.id = b.id) : paymentSchema.clash a b = true := by
  simp [paymentSchema, h]

theorem Payment.clash_of_bookingID {a b : Payment} (h : a.bookingID = b.bookingID) :
    paymentSchema.clash a b = true := by
  simp [paymentSchema, h]

theorem Payment.clash_of_providerID {a b : Payment} (h : a.providerID = b.providerID) :
    paymentSchema.clash a b = true := by
  simp [paymentSchema, h]

theorem Payment.uuids {p : Payment} {t : Table paymentSchema} (h : p ∈ t.rows) :
    isUUID p.id = true ∧ isUUID p.bookingID = true := by
  have := t.checked p h
  simp only [paymentSchema, Bool.and_eq_true] at this
  exact ⟨this.1.1.1.1.1.1, this.1.1.1.1.1.2⟩

namespace PaymentRepo

theorem getByBookingID_mem {db : PaymentDB} {p : Payment} (h : p ∈ db.payments.rows) :
    getByBookingID p.bookingID db = .ok p := by
  have hget : db.payments.get (fun x => x.bookingID == p.bookingID) = some p :=
    db.payments.get_key h (by simp) (fun x hx => Payment.clash_of_bookingID (by simpa using hx))
  simp [getByBookingID, uuidParam_ok (Payment.uuids h).2, scanOne, hget]

theorem getByProviderID_mem {db : PaymentDB} {p : Payment} (h : p ∈ db.payments.rows) :
    getByProviderID p.providerID db = .ok p := by
  have hget : db.payments.get (fun x => x.providerID == p.providerID) = some p :=
    db.payments.get_key h (by simp) (fun x hx => Payment.clash_of_providerID (by simpa using hx))
  simp [getByProviderID, scanOne, hget]

theorem of_getByBookingID {db : PaymentDB} {p : Payment} {b : String} (h : getByBookingID b db = .ok p) :
    p ∈ db.payments.rows ∧ p.bookingID = b := by
  unfold getByBookingID scanOne at h
  rcases uuidParam_cases b with ⟨hb, -⟩ | ⟨e, hb, -⟩
  · simp only [hb] at h
    split at h
    · rename_i q hq
      cases h
      exact ⟨(Table.get_mem hq).1, by simpa using (Table.get_mem hq).2⟩
    · cases h
  · simp [hb] at h

theorem of_getByProviderID {db : PaymentDB} {p : Payment} {i : String} (h : getByProviderID i db = .ok p) :
    p ∈ db.payments.rows ∧ p.providerID = i := by
  unfold getByProviderID scanOne at h
  split at h
  · rename_i q hq
    cases h
    exact ⟨(Table.get_mem hq).1, by simpa using (Table.get_mem hq).2⟩
  · cases h

/-! ## The status update -/

theorem guarded_iff {id : String} {p : Payment} :
    guarded id p = true ↔ p.id = id ∧ p.status.isTerminal = false := by
  simp [guarded]

/-- **Everything `updateStatusWithOutbox` can do.**  It fails, finds no row its guard lets through, or moves one row and
appends one outbox row. -/
theorem updateStatusWithOutbox_cases (now : Time) (id : String) (st : PaymentStatus) (pid : String) (ev : OutboxEvent)
    (db : PaymentDB) :
    (∃ e : Err, updateStatusWithOutbox now id st pid ev db = (.error e, db) ∧ e.code = .unknown) ∨
    (updateStatusWithOutbox now id st pid ev db = (.ok false, db) ∧
      ∀ p ∈ db.payments.rows, p.id = id → p.status.isTerminal = true) ∨
    (∃ p l₁ l₂ db', db.payments.rows = l₁ ++ p :: l₂ ∧ p.id = id ∧ p.status.isTerminal = false ∧
      updateStatusWithOutbox now id st pid ev db = (.ok true, db') ∧
      db'.payments.rows = l₁ ++ { p with status := st, providerID := pid, updatedAt := now } :: l₂ ∧
      (∃ o : OutboxEvent, db'.outbox = db.outbox ++ [o] ∧ o.subject = ev.subject ∧ o.payload = ev.payload ∧
        o.paymentID = ev.paymentID ∧ o.sentAt = none) ∧
      db'.ledger = db.ledger ∧ db'.payouts = db.payouts ∧ db'.methods = db.methods) := by
  unfold updateStatusWithOutbox
  rcases uuidParam_cases id with ⟨hu, -⟩ | ⟨e, hu, he⟩
  swap
  · exact .inl ⟨e, by rw [hu], he⟩
  simp only [hu]
  split
  · rename_i hnone
    refine .inr (.inl ⟨rfl, fun p hp hid => ?_⟩)
    have := Table.get_eq_none.1 hnone p hp
    simpa [guarded, hid] using this
  rename_i p hget
  obtain ⟨hmem, hg⟩ := Table.get_mem hget
  obtain ⟨hid, hst⟩ := guarded_iff.1 hg
  have hkey : ∀ x, guarded id x = true → paymentSchema.clash x p = true := fun x hx =>
    Payment.clash_of_id ((guarded_iff.1 hx).1.trans hid.symm)
  obtain ⟨l₁, l₂, hrows, h1, h2⟩ := db.payments.split_key hmem hkey
  split
  · rename_i v _
    exact .inl ⟨_, rfl, violationErr_code v⟩
  rename_i payments hup
  rcases uuidParam_cases ev.paymentID with ⟨hv, -⟩ | ⟨e, hv, he⟩
  swap
  · exact .inl ⟨e, by rw [hv], he⟩
  simp only [hv]
  exact .inr (.inr ⟨p, l₁, l₂, _, hrows, hid, hst, rfl, Table.update_key hup hg hrows h1 h2,
    ⟨_, rfl, rfl, rfl, rfl, rfl⟩, rfl, rfl, rfl⟩)

/-- **A terminal payment is left alone**, and the answer says so. -/
theorem updateStatusWithOutbox_terminal {db : PaymentDB} {p : Payment} (hp : p ∈ db.payments.rows)
    (ht : p.status.isTerminal = true) (now : Time) (st : PaymentStatus) (pid : String) (ev : OutboxEvent) :
    updateStatusWithOutbox now p.id st pid ev db = (.ok false, db) := by
  have hnone : db.payments.get (guarded p.id) = none := Table.get_eq_none.2 (fun x hx => by
    by_contra hg
    obtain ⟨hid, hst⟩ := guarded_iff.1 (by simpa using hg)
    rw [db.payments.eq_of_clash hx hp (Payment.clash_of_id hid), ht] at hst
    cases hst)
  simp [updateStatusWithOutbox, uuidParam_ok (Payment.uuids hp).1, hnone]

/-- **A pending payment is moved**, when its provider id stays what it is. -/
theorem updateStatusWithOutbox_pending (now : Time) (st : PaymentStatus) (ev : OutboxEvent)
    {db : PaymentDB} {p : Payment} (hp : p ∈ db.payments.rows) (ht : p.status.isTerminal = false)
    (hev : ev.paymentID = p.id) : ∃ db', updateStatusWithOutbox now p.id st p.providerID ev db = (.ok true, db') := by
  have hid := (Payment.uuids hp).1
  have hget : db.payments.get (guarded p.id) = some p := db.payments.get_key hp (guarded_iff.2 ⟨rfl, ht⟩)
    (fun x hx => Payment.clash_of_id (guarded_iff.1 hx).1)
  have hone : ∀ x ∈ db.payments.rows, guarded p.id x = true → x = p := fun x hx hg =>
    db.payments.eq_of_clash hx hp (Payment.clash_of_id (guarded_iff.1 hg).1)
  -- the update keeps every key of the one row it touches
  obtain ⟨payments, hup⟩ := db.payments.update_ok (p := guarded p.id)
    (f := fun q => { q with status := st, providerID := p.providerID, updatedAt := now })
    (fun r hr hg => by
      have := db.payments.checked r hr
      rw [hone r hr hg] at this ⊢
      exact this)
    (fun a ha b hb hab => by
      have hkeep : ∀ x ∈ db.payments.rows, ∀ y : Payment, paymentSchema.clash
          (if guarded p.id x then { x with status := st, providerID := p.providerID, updatedAt := now } else x) y =
          paymentSchema.clash x y := by
        intro x hx y
        cases hg : guarded p.id x with
        | false => rfl
        | true =>
          rw [hone x hx hg]
          rfl
      rw [hkeep a ha, paymentSchema.clash_comm, hkeep b hb, paymentSchema.clash_comm]
      exact hab)
  simp only [updateStatusWithOutbox, hev, uuidParam_ok hid, hget, hup]
  exact ⟨_, rfl⟩

end PaymentRepo

/-! ## The ledger -/

theorem LedgerEntry.clash_of_accrual {a b : LedgerEntry} (ha : a.entryType = .accrual) (hb : b.entryType = .accrual)
    (h : a.paymentID = b.paymentID) : ledgerSchema.clash a b = true := by
  simp [ledgerSchema, ha, hb, h]

theorem LedgerEntry.clash_of_reversal {a b : LedgerEntry} (ha : a.entryType = .reversal) (hb : b.entryType = .reversal)
    (h : a.paymentID = b.paymentID) : ledgerSchema.clash a b = true := by
  simp [ledgerSchema, ha, hb, h]

/-- The index a new row can violate is that of its type: its id is new. -/
theorem LedgerEntry.of_clash_row {db : PaymentDB} {now : Time} {e x : LedgerEntry} (hx : x ∈ db.ledger.rows)
    (h : ledgerSchema.clash x (e.row now db) = true) :
    x.entryType = e.entryType ∧ (x.entryType = .accrual ∧ x.paymentID = e.paymentID ∨
      x.entryType = .reversal ∧ x.paymentID = e.paymentID ∨ x.entryType = .payout ∧ x.payoutID = e.payoutID) := by
  have hid : x.id ≠ nextSerial (db.ledger.rows.map (·.id)) :=
    Int.ne_of_lt (lt_nextSerial (List.mem_map.2 ⟨x, hx, rfl⟩))
  simp only [ledgerSchema, LedgerEntry.row, Bool.or_eq_true, Bool.and_eq_true, beq_iff_eq, hid, false_or] at h
  rcases h with (⟨⟨h1, h2⟩, h3⟩ | ⟨⟨h1, h2⟩, h3⟩) | ⟨⟨h1, h2⟩, h3⟩
  · exact ⟨h1.trans h2.symm, .inl ⟨h1, h3⟩⟩
  · exact ⟨h1.trans h2.symm, .inr (.inl ⟨h1, h3⟩)⟩
  · exact ⟨h1.trans h2.symm, .inr (.inr ⟨h1, h3⟩)⟩

/-- **Everything `appendLedgerEntry` can do.**  It fails without a status, finds the entry there already, or appends it. -/
theorem appendLedgerEntry_cases (now : Time) (e : LedgerEntry) (db : PaymentDB) :
    (∃ err : Err, appendLedgerEntry now e db = (.error err, db) ∧ err.code = .unknown) ∨
    (∃ err : Err, appendLedgerEntry now e db = (.error err, db) ∧ err.code = .alreadyExists ∧
      ledgerSchema.check (e.row now db) = true ∧ ∃ x ∈ db.ledger.rows, ledgerSchema.clash x (e.row now db) = true) ∨
    (∃ t, appendLedgerEntry now e db = (.ok (), { db with ledger := t }) ∧
      db.ledger.insert (e.row now db) = .ok t ∧ db.refersTo e = true) := by
  unfold appendLedgerEntry
  split
  · rename_i h
    obtain ⟨hc, x, hx, hcl⟩ := Table.of_insert_unique h
    exact .inr (.inl ⟨_, rfl, rfl, hc, x, hx, hcl⟩)
  · exact .inl ⟨_, rfl, rfl⟩
  · rename_i t h
    split
    · rename_i href
      exact .inr (.inr ⟨t, rfl, h, href⟩)
    · exact .inl ⟨_, rfl, rfl⟩

namespace LedgerRepo

theorem isAccrualOf_iff {pid : String} {e : LedgerEntry} :
    isAccrualOf pid e = true ↔ e.paymentID = pid ∧ e.entryType = .accrual := by
  simp [isAccrualOf]

/-- **Everything the ledger's two writes can do**: an error with nothing written, or the entry of that type appended. -/
theorem appendAccrual_cases (now : Time) (e : LedgerEntry) (db : PaymentDB) :
    (∃ err : Err, appendAccrual now e db = (.error err, db) ∧ (err.code = .unknown ∨ err.code = .invalidArgument)) ∨
    (∃ err : Err, appendAccrual now e db = (.error err, db) ∧ err.code = .alreadyExists ∧ e.entryType = .accrual ∧
      ∃ x ∈ db.ledger.rows, isAccrualOf e.paymentID x = true) ∨
    (∃ t, appendAccrual now e db = (.ok (), { db with ledger := t }) ∧ e.entryType = .accrual ∧
      db.ledger.insert (e.row now db) = .ok t ∧ db.refersTo e = true) := by
  unfold appendAccrual
  split
  · exact .inl ⟨_, rfl, .inr rfl⟩
  rename_i ht
  split
  · exact .inl ⟨_, rfl, .inr rfl⟩
  split
  · exact .inl ⟨_, rfl, .inr rfl⟩
  rcases appendLedgerEntry_cases now e db with ⟨err, h, hc⟩ | ⟨err, h, hc, -, x, hx, hcl⟩ | ⟨t, h, hi, hr⟩
  · exact .inl ⟨err, h, .inl hc⟩
  · obtain ⟨hty, hcl⟩ := LedgerEntry.of_clash_row hx hcl
    refine .inr (.inl ⟨err, h, hc, not_not.1 ht, x, hx, ?_⟩)
    rw [not_not.1 ht] at hty
    simpa [isAccrualOf, hty] using hcl
  · exact .inr (.inr ⟨t, h, not_not.1 ht, hi, hr⟩)

theorem appendReversal_cases (now : Time) (e : LedgerEntry) (db : PaymentDB) :
    (∃ err : Err, appendReversal now e db = (.error err, db) ∧ (err.code = .unknown ∨ err.code = .invalidArgument)) ∨
    (∃ err : Err, appendReversal now e db = (.error err, db) ∧ err.code = .alreadyExists ∧ e.entryType = .reversal ∧
      ∃ x ∈ db.ledger.rows, x.paymentID = e.paymentID ∧ x.entryType = .reversal) ∨
    (∃ t, appendReversal now e db = (.ok (), { db with ledger := t }) ∧ e.entryType = .reversal ∧
      db.ledger.insert (e.row now db) = .ok t ∧ db.refersTo e = true) := by
  unfold appendReversal
  split
  · exact .inl ⟨_, rfl, .inr rfl⟩
  rename_i ht
  split
  · exact .inl ⟨_, rfl, .inr rfl⟩
  split
  · exact .inl ⟨_, rfl, .inr rfl⟩
  rcases appendLedgerEntry_cases now e db with ⟨err, h, hc⟩ | ⟨err, h, hc, -, x, hx, hcl⟩ | ⟨t, h, hi, hr⟩
  · exact .inl ⟨err, h, .inl hc⟩
  · obtain ⟨hty, hcl⟩ := LedgerEntry.of_clash_row hx hcl
    refine .inr (.inl ⟨err, h, hc, not_not.1 ht, x, hx, ?_⟩)
    rw [not_not.1 ht] at hty
    simpa [hty] using hcl
  · exact .inr (.inr ⟨t, h, not_not.1 ht, hi, hr⟩)

theorem of_findAccrualByPayment {pid : String} {db : PaymentDB} {e : LedgerEntry}
    (h : findAccrualByPayment pid db = .ok e) : e ∈ db.ledger.rows ∧ isAccrualOf pid e = true := by
  unfold findAccrualByPayment at h
  rcases uuidParam_cases pid with ⟨hu, -⟩ | ⟨err, hu, -⟩
  · simp only [hu] at h
    split at h
    · rename_i x hx
      cases h
      exact Table.get_mem hx
    · cases h
  · simp [hu] at h

theorem findAccrualByPayment_mem {db : PaymentDB} {e : LedgerEntry} {pid : String} (hid : isUUID pid = true)
    (he : e ∈ db.ledger.rows) (hacc : isAccrualOf pid e = true) : findAccrualByPayment pid db = .ok e := by
  have hget : db.ledger.get (isAccrualOf pid) = some e := db.ledger.get_key he hacc (fun x hx =>
    LedgerEntry.clash_of_accrual (isAccrualOf_iff.1 hx).2 (isAccrualOf_iff.1 hacc).2
      ((isAccrualOf_iff.1 hx).1.trans (isAccrualOf_iff.1 hacc).1.symm))
  simp [findAccrualByPayment, uuidParam_ok hid, hget]

/-- `NotFound` means there is no accrual. -/
theorem findAccrualByPayment_none {db : PaymentDB} {pid : String} (hid : isUUID pid = true)
    (h : ∀ x ∈ db.ledger.rows, isAccrualOf pid x = false) :
    findAccrualByPayment pid db = .error (.status .notFound "accrual not found for payment") := by
  simp [findAccrualByPayment, uuidParam_ok hid, Table.get_eq_none.2 h]

end LedgerRepo

end Agregator
