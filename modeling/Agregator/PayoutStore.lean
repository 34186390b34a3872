import Agregator.PayFacts
/-!
# PayoutStore — payouts in the database

The payout repository, with the ledger entries it writes in the same transactions, the payout methods it refers to and
the balance it reads.  The advisory lock of a partner orders transactions that are atomic here already.
-/
namespace Agregator

open Rel

namespace LedgerRepo

def balance (now : Time) (ref : PartnerRef) (db : PaymentDB) : Except Err PartnerBalance :=
  match uuidParam ref.partnerID with
  | .error e => .error (e.wrap "ledger balance")
  | .ok _ =>
    let total := db.ledger.sum (LedgerEntry.isOf ref) (·.amountKopecks)
    let available := readAvailableBalance now ref db
    .ok {
      partnerType := ref.partnerType
      partnerID := ref.partnerID
      totalKopecks := total
      availableKopecks := available
      heldKopecks := total - available
      lastEntryAt := ((db.ledger.select (LedgerEntry.isOf ref)).map (·.createdAt)).max? }

end LedgerRepo

namespace PayoutMethodRepo

def scanOne (q : PayoutMethod → Bool) (db : PaymentDB) : Except Err PayoutMethod :=
  match db.methods.get q with
  | some m => .ok m
  | none => .error (.status .notFound "payout method not found")

def getActive (ref : PartnerRef) (db : PaymentDB) : Except Err PayoutMethod :=
  match uuidParam ref.partnerID with
  | .error e => .error e
  | .ok _ => scanOne (fun m => m.partnerType == ref.partnerType && m.partnerID == ref.partnerID && m.deactivatedAt.isNone) db

def getByID (id : String) (db : PaymentDB) : Except Err PayoutMethod :=
  match uuidParam id with
  | .error e => .error e
  | .ok id => scanOne (fun m => m.id == id) db

end PayoutMethodRepo

namespace PayoutRepo

/-- The row a payout becomes; `gen` is what `gen_random_uuid()` gives. -/
def row (now : Time) (id : String) (p : Payout) : Payout :=
  { p with
    id := id
    currency := if p.currency = "" then "RUB" else p.currency
    status := if p.status = .unset then .pending else p.status
    providerPayoutID := none
    failureReason := ""
    attemptCount := 0
    createdAt := now
    updatedAt := now
    completedAt := none }

/-- The negative entry of a payout. -/
def debit (p : Payout) : LedgerEntry where
  partnerType := p.partnerType
  partnerID := p.partnerID
  entryType := .payout
  amountKopecks := -p.amountKopecks
  payoutID := p.id

/-- The insert of the payout and of its debit. -/
def insertWithDebit (now : Time) (p : Payout) (db : PaymentDB) : Except Err Payout × PaymentDB :=
  match db.payouts.insert p with
  | .error .unique => (.error (.status .alreadyExists "payout for partner already exists or is in flight"), db)
  | .error .check => (.error ((violationErr .check).wrap "payout insert"), db)
  | .ok payouts =>
    if db.methods.rows.any (·.id == p.methodID) then
      match appendLedgerEntry now (debit p) { db with payouts := payouts } with
      | (.error e, _) => (.error (e.wrap "payout ledger debit"), db)
      | (.ok (), db') => (.ok p, db')
    else (.error (foreignKeyErr.wrap "payout insert"), db)

/-- The payout as it was inserted: its id is the caller's, or made up. -/
def createPendingWithLedger (now : Time) (gen : String) (p : Payout) (db : PaymentDB) : Except Err Payout × PaymentDB :=
  if p.partnerType.valid = false then
    (.error (.status .invalidArgument "invalid partner_type"), db)
  else if p.amountKopecks ≤ 0 then
    (.error (.status .invalidArgument "payout amount must be positive"), db)
  else if p.methodID = "" then
    (.error (.status .invalidArgument "payout requires method_id"), db)
  else if p.idempotencyKey = "" then
    (.error (.status .invalidArgument "payout requires idempotency_key"), db)
  else if p.providerName = "" then
    (.error (.status .invalidArgument "payout requires provider_name"), db)
  else
    match uuidParam p.partnerID with
    | .error e => (.error (e.wrap "payout balance recheck"), db)
    | .ok _ =>
      let available := readAvailableBalance now p.partner db
      if available < p.amountKopecks then
        (.error (.status .failedPrecondition ("payout precondition: available=" ++ toString available ++ " < requested=" ++
          toString p.amountKopecks)), db)
      else
        match uuidParam (if p.id = "" then gen else p.id), uuidParam p.methodID with
        | .ok id, .ok _ => insertWithDebit now (row now id p) db
        | .error e, _ | _, .error e => (.error (e.wrap "payout insert"), db)

/-- A payout other than a pending one is left as it is, and the call returns nil. -/
def markProcessing (now : Time) (id : String) (providerPayoutID : String) (db : PaymentDB) : Except Err Unit × PaymentDB :=
  match uuidParam id with
  | .error e => (.error (e.wrap "payout mark processing"), db)
  | .ok id =>
    match db.payouts.update (fun p => p.id == id && p.status == .pending)
      (fun p => { p with
        status := .processing, providerPayoutID := some providerPayoutID, attemptCount := p.attemptCount + 1,
        updatedAt := now }) with
    | .error v => (.error ((violationErr v).wrap "payout mark processing"), db)
    | .ok payouts => (.ok (), { db with payouts := payouts })

/-- The row an update of an open payout is after. -/
def guarded (id : String) (p : Payout) : Bool := p.id == id && !p.status.isTerminal

/-- Whether a row was updated. -/
def markSucceeded (now : Time) (id : String) (completedAt : Time) (db : PaymentDB) : Except Err Bool × PaymentDB :=
  match uuidParam id with
  | .error e => (.error (e.wrap "payout mark succeeded"), db)
  | .ok id =>
    match db.payouts.update (guarded id)
      (fun p => { p with status := .succeeded, completedAt := some completedAt, updatedAt := now }) with
    | .error v => (.error ((violationErr v).wrap "payout mark succeeded"), db)
    | .ok payouts => (.ok (db.payouts.rows.any (guarded id)), { db with payouts := payouts })

/-- The positive entry of a payout that failed. -/
def credit (p : Payout) (reason : String) : LedgerEntry where
  partnerType := p.partnerType
  partnerID := p.partnerID
  entryType := .adjustment
  amountKopecks := p.amountKopecks
  payoutID := p.id
  reason := "payout-failed-reversal: " ++ (if reason = "" then "payout failed" else reason)

/-- Whether the payout became failed; with it, the entry that gives its debit back. -/
def markFailedWithReversal (now : Time) (id : String) (reason : String) (completedAt : Time) (db : PaymentDB) :
    Except Err Bool × PaymentDB :=
  match uuidParam id with
  | .error e => (.error (e.wrap "payout fail lock"), db)
  | .ok id =>
    match db.payouts.get (fun p => p.id == id) with
    | none => (.error (.status .notFound "payout not found"), db)
    | some p =>
      if p.status.isTerminal then (.ok false, db)
      else
        match db.payouts.update (fun p => p.id == id)
          (fun p => { p with
            status := .failed, failureReason := reason, completedAt := some completedAt, updatedAt := now }) with
        | .error v => (.error ((violationErr v).wrap "payout fail update"), db)
        | .ok payouts =>
          match appendLedgerEntry now (credit p reason) { db with payouts := payouts } with
          | (.error e, _) => (.error (e.wrap "payout fail compensating ledger"), db)
          | (.ok (), db') => (.ok true, db')

def scanOne (q : Payout → Bool) (db : PaymentDB) : Except Err Payout :=
  match db.payouts.get q with
  | some p => .ok p
  | none => .error (.status .notFound "payout not found")

def getByProviderPayoutID (providerPayoutID : String) (db : PaymentDB) : Except Err Payout :=
  scanOne (fun p => p.providerPayoutID == some providerPayoutID) db

/-- The creation time of the partner's latest payout that has not failed. -/
def lastPayoutAt (ref : PartnerRef) (db : PaymentDB) : Except Err (Option Time) :=
  match uuidParam ref.partnerID with
  | .error e => .error (e.wrap "payout last-at query")
  | .ok _ => .ok ((db.payouts.select fun p => p.partner == ref && p.status != .failed).map (·.createdAt)).max?

end PayoutRepo

/-! ## What the payout repository does -/

theorem Payout.clash_of_id {a b : Payout} (h : a.id = b.id) : payoutSchema.clash a b = true := by
  simp [payoutSchema, h]

theorem Payout.clash_of_key {a b : Payout} (h : a.idempotencyKey = b.idempotencyKey) : payoutSchema.clash a b = true := by
  simp [payoutSchema, h]

theorem Payout.clash_of_open {a b : Payout} (ha : a.status.isOpen = true) (hb : b.status.isOpen = true)
    (h : a.partner = b.partner) : payoutSchema.clash a b = true := by
  simp [payoutSchema, ha, hb, h]

theorem Payout.isUUID_id {p : Payout} {t : Table payoutSchema} (h : p ∈ t.rows) : isUUID p.id = true := by
  have := t.checked p h
  simp only [payoutSchema, Bool.and_eq_true] at this
  exact this.1.1.1.1.1.1.1.1.1

theorem Payout.amount_pos {p : Payout} {t : Table payoutSchema} (h : p ∈ t.rows) : 0 < p.amountKopecks := by
  have := t.checked p h
  simp only [payoutSchema, Bool.and_eq_true, decide_eq_true_eq] at this
  exact this.1.1.1.1.1.1.2

namespace PayoutRepo

theorem guarded_iff {id : String} {p : Payout} : guarded id p = true ↔ p.id = id ∧ p.status.isTerminal = false := by
  simp [guarded]

/-- **Everything `createPendingWithLedger` can do**: nothing, or one payout and its debit, covered by what is available. -/
theorem createPendingWithLedger_cases (now : Time) (gen : String) (p : Payout) (db : PaymentDB) :
    (∃ e, createPendingWithLedger now gen p db = (.error e, db)) ∨
    (∃ id t l, createPendingWithLedger now gen p db = (.ok (row now id p), { db with payouts := t, ledger := l }) ∧
      (p.id = "" ∨ p.id = id) ∧
      p.amountKopecks ≤ readAvailableBalance now p.partner db ∧
      db.payouts.insert (row now id p) = .ok t ∧
      db.ledger.insert ((debit (row now id p)).row now db) = .ok l) := by
  unfold createPendingWithLedger
  split
  · exact .inl ⟨_, rfl⟩
  split
  · exact .inl ⟨_, rfl⟩
  split
  · exact .inl ⟨_, rfl⟩
  split
  · exact .inl ⟨_, rfl⟩
  split
  · exact .inl ⟨_, rfl⟩
  split
  · exact .inl ⟨_, rfl⟩
  dsimp only
  split
  · exact .inl ⟨_, rfl⟩
  rename_i hav
  split
  · rename_i id m hid hm
    have hpid : p.id = "" ∨ p.id = id := by
      by_cases h0 : p.id = ""
      · exact .inl h0
      · rw [if_neg h0] at hid
        obtain ⟨h, -⟩ | ⟨e, h, -⟩ := uuidParam_cases p.id
        · rw [h] at hid
          exact .inr (Except.ok.inj hid)
        · rw [h] at hid
          cases hid
    unfold insertWithDebit
    split
    · exact .inl ⟨_, rfl⟩
    · exact .inl ⟨_, rfl⟩
    rename_i t ht
    split
    swap
    · exact .inl ⟨_, rfl⟩
    obtain ⟨e, he, -⟩ | ⟨e, he, -⟩ | ⟨l, he, hl, -⟩ :=
      appendLedgerEntry_cases now (debit (row now id p)) { db with payouts := t }
    · rw [he]
      exact .inl ⟨_, rfl⟩
    · rw [he]
      exact .inl ⟨_, rfl⟩
    · rw [he]
      exact .inr ⟨id, t, l, rfl, hpid, by omega, ht, hl⟩
  · exact .inl ⟨_, rfl⟩
  · exact .inl ⟨_, rfl⟩

/-- **A payout the partner can be paid is made.** -/
theorem createPendingWithLedger_ok {now : Time} (p : Payout) (db : PaymentDB) (hid : isUUID p.id = true)
    (hm : ∃ m ∈ db.methods.rows, m.id = p.methodID) (hkey : p.idempotencyKey ≠ "") (hprov : p.providerName ≠ "")
    (hcheck : payoutSchema.check (row now p.id p) = true)
    (hav : p.amountKopecks ≤ readAvailableBalance now p.partner db)
    (hnew : ∀ q ∈ db.payouts.rows, payoutSchema.clash q (row now p.id p) = false)
    (hdebit : ∀ e ∈ db.ledger.rows, e.entryType = .payout → e.payoutID ≠ p.id) :
    ∃ (t : Table payoutSchema) (l : Table ledgerSchema),
      (∀ gen, createPendingWithLedger now gen p db = (.ok (row now p.id p), { db with payouts := t, ledger := l })) ∧
      db.payouts.insert (row now p.id p) = .ok t ∧ db.ledger.insert ((debit (row now p.id p)).row now db) = .ok l := by
  obtain ⟨m, hm, hmid⟩ := hm
  have hmu : isUUID p.methodID = true := by
    have := db.methods.checked m hm
    simp only [methodSchema, Bool.and_eq_true] at this
    rw [← hmid]
    exact this.1.1.1
  have hne := ne_empty_of_isUUID hid
  have hc := hcheck
  simp only [payoutSchema, row, Bool.and_eq_true, decide_eq_true_eq] at hc
  obtain ⟨⟨⟨⟨⟨⟨⟨⟨⟨-, hpt⟩, hpid⟩, hamt⟩, -⟩, -⟩, -⟩, -⟩, -⟩, -⟩ := hc
  obtain ⟨t, ht⟩ := db.payouts.insert_ok hcheck hnew
  have hlcheck : ledgerSchema.check ((debit (row now p.id p)).row now db) = true := by
    simp [ledgerSchema, debit, row, LedgerEntry.row, LedgerEntry.signOk, LedgerEntry.refOk, hpt, hpid, hid, hne, hamt,
      nextSerial_pos]
  obtain ⟨l, hl⟩ := db.ledger.insert_ok hlcheck (fun x hx => by
    by_contra hcl
    obtain ⟨hty, hcl⟩ := LedgerEntry.of_clash_row hx (by simpa using hcl)
    have hpay : x.entryType = .payout := hty
    simp only [hpay, reduceCtorEq, false_and, true_and, false_or] at hcl
    exact hdebit x hx hpay hcl)
  have href : PaymentDB.refersTo { db with payouts := t } (debit (row now p.id p)) = true := by
    have hin : (row now p.id p) ∈ t.rows := by rw [Table.insert_rows ht]; simp
    have : t.rows.any (·.id == p.id) = true := List.any_eq_true.2 ⟨_, hin, by simp [row]⟩
    simp [PaymentDB.refersTo, debit, row, this]
  have hmany : db.methods.rows.any (·.id == p.methodID) = true := List.any_eq_true.2 ⟨m, hm, by simp [hmid]⟩
  have happ : appendLedgerEntry now (debit (row now p.id p)) { db with payouts := t } =
      (.ok (), { db with payouts := t, ledger := l }) := by
    have hrow : (debit (row now p.id p)).row now { db with payouts := t } = (debit (row now p.id p)).row now db := rfl
    simp [appendLedgerEntry, hrow, hl, href]
  refine ⟨t, l, fun gen => ?_, ht, hl⟩
  have hneg : ¬ p.amountKopecks ≤ 0 := by omega
  have hnlt : ¬ readAvailableBalance now p.partner db < p.amountKopecks := by omega
  have hmrow : (row now p.id p).methodID = p.methodID := rfl
  unfold createPendingWithLedger
  rw [if_neg (by simp [hpt]), if_neg hneg, if_neg (ne_empty_of_isUUID hmu), if_neg hkey,
    if_neg hprov, uuidParam_ok hpid]
  dsimp only
  rw [if_neg hnlt, if_neg hne, uuidParam_ok hid, uuidParam_ok hmu]
  dsimp only
  unfold insertWithDebit
  rw [ht]
  dsimp only
  rw [hmrow, if_pos hmany]
  simp only [happ]

/-- **Everything `markProcessing` can do**: nothing, or one pending payout moves on. -/
theorem markProcessing_cases (now : Time) (id pid : String) (db : PaymentDB) :
    (∃ e, markProcessing now id pid db = (.error e, db)) ∨
    (markProcessing now id pid db = (.ok (), db) ∧ ∀ p ∈ db.payouts.rows, p.id = id → p.status ≠ .pending) ∨
    (∃ p l₁ l₂ t, db.payouts.rows = l₁ ++ p :: l₂ ∧ p.id = id ∧ p.status = .pending ∧
      markProcessing now id pid db = (.ok (), { db with payouts := t }) ∧
      t.rows = l₁ ++ { p with
        status := .processing, providerPayoutID := some pid, attemptCount := p.attemptCount + 1, updatedAt := now } :: l₂) := by
  unfold markProcessing
  rcases uuidParam_cases id with ⟨hu, -⟩ | ⟨e, hu, -⟩
  swap
  · exact .inl ⟨_, by rw [hu]⟩
  simp only [hu]
  split
  · exact .inl ⟨_, rfl⟩
  rename_i t ht
  by_cases hex : ∃ p ∈ db.payouts.rows, p.id = id ∧ p.status = .pending
  · obtain ⟨p, hp, hid, hst⟩ := hex
    obtain ⟨l₁, l₂, hrows, h1, h2⟩ := db.payouts.split_key hp (p := fun p => p.id == id && p.status == .pending)
      (fun x hx => Payout.clash_of_id (by simp at hx; rw [hx.1, hid]))
    exact .inr (.inr ⟨p, l₁, l₂, t, hrows, hid, hst, rfl, Table.update_key ht (by simp [hid, hst]) hrows h1 h2⟩)
  · push Not at hex
    have hnone := db.payouts.update_none (p := fun p => p.id == id && p.status == .pending)
      (f := fun p => { p with
        status := .processing, providerPayoutID := some pid, attemptCount := p.attemptCount + 1, updatedAt := now })
      (fun x hx => by simpa using fun h => hex x hx h)
    rw [hnone] at ht
    obtain rfl : db.payouts = t := by simpa using ht
    exact .inr (.inl ⟨rfl, hex⟩)

/-- **Everything `markSucceeded` can do**: nothing, or one open payout is final. -/
theorem markSucceeded_cases (now : Time) (id : String) (at' : Time) (db : PaymentDB) :
    (∃ r, markSucceeded now id at' db = (r, db)) ∨
    (∃ p l₁ l₂ t, db.payouts.rows = l₁ ++ p :: l₂ ∧ p.id = id ∧ p.status.isTerminal = false ∧
      markSucceeded now id at' db = (.ok true, { db with payouts := t }) ∧
      t.rows = l₁ ++ { p with status := .succeeded, completedAt := some at', updatedAt := now } :: l₂) := by
  unfold markSucceeded
  rcases uuidParam_cases id with ⟨hu, -⟩ | ⟨e, hu, -⟩
  swap
  · exact .inl ⟨_, by rw [hu]⟩
  simp only [hu]
  split
  · exact .inl ⟨_, rfl⟩
  rename_i t ht
  by_cases hex : ∃ p ∈ db.payouts.rows, guarded id p = true
  · obtain ⟨p, hp, hg⟩ := hex
    obtain ⟨hid, hst⟩ := guarded_iff.1 hg
    obtain ⟨l₁, l₂, hrows, h1, h2⟩ := db.payouts.split_key hp (p := guarded id)
      (fun x hx => Payout.clash_of_id ((guarded_iff.1 hx).1.trans hid.symm))
    have hany : db.payouts.rows.any (guarded id) = true := List.any_eq_true.2 ⟨p, hp, hg⟩
    exact .inr ⟨p, l₁, l₂, t, hrows, hid, hst, by rw [hany], Table.update_key ht hg hrows h1 h2⟩
  · push Not at hex
    rw [db.payouts.update_none (fun x hx => by simpa using hex x hx)] at ht
    obtain rfl : db.payouts = t := by simpa using ht
    exact .inl ⟨_, rfl⟩

/-- **Everything `markFailedWithReversal` can do**: nothing, or one open payout fails and its debit is given back. -/
theorem markFailedWithReversal_cases (now : Time) (id reason : String) (at' : Time) (db : PaymentDB) :
    (∃ r, markFailedWithReversal now id reason at' db = (r, db)) ∨
    (∃ p l₁ l₂ t l, db.payouts.rows = l₁ ++ p :: l₂ ∧ p.id = id ∧ p.status.isTerminal = false ∧
      markFailedWithReversal now id reason at' db = (.ok true, { db with payouts := t, ledger := l }) ∧
      t.rows = l₁ ++ { p with
        status := .failed, failureReason := reason, completedAt := some at', updatedAt := now } :: l₂ ∧
      db.ledger.insert ((credit p reason).row now db) = .ok l) := by
  unfold markFailedWithReversal
  rcases uuidParam_cases id with ⟨hu, -⟩ | ⟨e, hu, -⟩
  swap
  · exact .inl ⟨_, by rw [hu]⟩
  simp only [hu]
  split
  · exact .inl ⟨_, rfl⟩
  rename_i p hget
  obtain ⟨hp, hid⟩ := Table.get_mem hget
  rw [beq_iff_eq] at hid
  split
  · exact .inl ⟨_, rfl⟩
  rename_i hst
  split
  · exact .inl ⟨_, rfl⟩
  rename_i t ht
  obtain ⟨l₁, l₂, hrows, h1, h2⟩ := db.payouts.split_key hp (p := fun p => p.id == id)
    (fun x hx => Payout.clash_of_id ((beq_iff_eq.1 hx).trans hid.symm))
  obtain ⟨e, he, -⟩ | ⟨e, he, -⟩ | ⟨l, he, hl, -⟩ := appendLedgerEntry_cases now (credit p reason) { db with payouts := t }
  · rw [he]
    exact .inl ⟨_, rfl⟩
  · rw [he]
    exact .inl ⟨_, rfl⟩
  · rw [he]
    exact .inr ⟨p, l₁, l₂, t, l, hrows, hid, by simpa using hst, rfl,
      Table.update_key ht (by simp [hid]) hrows h1 h2, hl⟩

/-- **An open payout can be given up.** -/
theorem markFailedWithReversal_ok {db : PaymentDB} {p : Payout} (hp : p ∈ db.payouts.rows)
    (ht : p.status.isTerminal = false) (now : Time) (reason : String) (at' : Time) :
    ∃ db', markFailedWithReversal now p.id reason at' db = (.ok true, db') ∧ ∃ q ∈ db'.payouts.rows,
      q.id = p.id ∧ q.idempotencyKey = p.idempotencyKey ∧ q.status = .failed := by
  have hid := Payout.isUUID_id hp
  have hget : db.payouts.get (fun x => x.id == p.id) = some p :=
    db.payouts.get_key hp (by simp) (fun x hx => Payout.clash_of_id (by simpa using hx))
  have hc := db.payouts.checked p hp
  have hone : ∀ x ∈ db.payouts.rows, (x.id == p.id) = true → x = p := fun x hx h =>
    db.payouts.eq_of_clash hx hp (Payout.clash_of_id (by simpa using h))
  -- a failed payout passes the checks an open one does, and clashes with no more
  obtain ⟨t, hup⟩ := db.payouts.update_ok (p := fun x => x.id == p.id)
    (f := fun p => { p with status := .failed, failureReason := reason, completedAt := some at', updatedAt := now })
    (fun x hx h => by
      rw [hone x hx h]
      simp only [payoutSchema, Bool.and_eq_true] at hc ⊢
      obtain ⟨⟨⟨⟨⟨⟨⟨⟨⟨h1, h2⟩, h3⟩, h4⟩, h5⟩, h6⟩, -⟩, h8⟩, h9⟩, h10⟩ := hc
      exact ⟨⟨⟨⟨⟨⟨⟨⟨⟨h1, h2⟩, h3⟩, h4⟩, h5⟩, h6⟩, rfl⟩, h8⟩, h9⟩, h10⟩)
    (fun a ha b hb hab => by
      simp only [payoutSchema, Bool.or_eq_false_iff] at hab ⊢
      obtain ⟨⟨⟨h1, h2⟩, h3⟩, h4⟩ := hab
      cases a.id == p.id <;> cases b.id == p.id <;> refine ⟨⟨⟨h1, h2⟩, h3⟩, ?_⟩ <;>
        simp_all [PayoutStatus.isOpen])
  simp only [payoutSchema, Bool.and_eq_true, decide_eq_true_eq] at hc
  obtain ⟨⟨⟨⟨⟨⟨⟨⟨⟨-, hpt⟩, hpid⟩, hamt⟩, -⟩, -⟩, -⟩, -⟩, -⟩, -⟩ := hc
  have hne := ne_empty_of_isUUID hid
  have hreason : (credit p reason).reason ≠ "" := by
    intro h
    have := congrArg String.length h
    simp [credit] at this
  have hcheck : ledgerSchema.check ((credit p reason).row now db) = true := by
    have hr : ("payout-failed-reversal: " ++ if reason = "" then "payout failed" else reason) ≠ "" := hreason
    simp [ledgerSchema, credit, LedgerEntry.row, LedgerEntry.signOk, LedgerEntry.refOk, hpt, hpid, hid, nextSerial_pos,
      hr, Int.ne_of_gt hamt]
  obtain ⟨l, hl⟩ := db.ledger.insert_ok hcheck (fun x hx => by
    by_contra hcl
    obtain ⟨hty, hcl⟩ := LedgerEntry.of_clash_row hx (by simpa using hcl)
    have hadj : x.entryType = .adjustment := hty
    simp [hadj] at hcl)
  have hrows := Table.update_rows hup
  have hq : { p with status := .failed, failureReason := reason, completedAt := some at', updatedAt := now } ∈ t.rows := by
    rw [hrows]
    exact List.mem_map.2 ⟨p, hp, by simp⟩
  have href : PaymentDB.refersTo { db with payouts := t } (credit p reason) = true := by
    have hany : t.rows.any (·.id == p.id) = true := List.any_eq_true.2 ⟨_, hq, by simp⟩
    simp [PaymentDB.refersTo, credit, hany]
  have happ : appendLedgerEntry now (credit p reason) { db with payouts := t } =
      (.ok (), { db with payouts := t, ledger := l }) := by
    have hrow : (credit p reason).row now { db with payouts := t } = (credit p reason).row now db := rfl
    simp [appendLedgerEntry, hrow, hl, href]
  refine ⟨{ db with payouts := t, ledger := l }, ?_, _, hq, rfl, rfl, rfl⟩
  rw [markFailedWithReversal, uuidParam_ok hid]
  dsimp only
  rw [hget]
  dsimp only
  rw [if_neg (by simp [ht]), hup]
  dsimp only
  rw [happ]

end PayoutRepo

end Agregator
