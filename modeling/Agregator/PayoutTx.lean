import Agregator.PayoutUsecase
import Agregator.ConcTrace
/-!
# PayoutTx — the ledger transactions, statement by statement

`CreatePendingWithLedger`, `AppendReversal` and `MarkFailedWithReversal` begin a transaction, take the advisory lock of the
partner and write; an accrual is a single statement without a lock.  Sessions with their locks are part of the state, and a
statement sees what is committed when it runs.  Run alone, each call is the transaction of `PayoutStore`.
-/
namespace Agregator

open Rel Conc

/-! ## The statements -/

namespace PayoutRepo

/-- The insert of a payout with the id of the caller or a drawn one, and of its debit. -/
def insertPending (now : Time) (gen : String) (p : Payout) (db : PaymentDB) : Except Err Payout × PaymentDB :=
  match uuidParam (if p.id = "" then gen else p.id), uuidParam p.methodID with
  | .ok id, .ok _ => insertWithDebit now (row now id p) db
  | .error e, _ | _, .error e => (.error (e.wrap "payout insert"), db)

/-- The update of a payout that was read, and the entry that gives its debit back. -/
def failWithCredit (now : Time) (p : Payout) (reason : String) (completedAt : Time) (db : PaymentDB) :
    Except Err Unit × PaymentDB :=
  match db.payouts.update (fun x => x.id == p.id)
    (fun p => { p with
      status := .failed, failureReason := reason, completedAt := some completedAt, updatedAt := now }) with
  | .error v => (.error ((violationErr v).wrap "payout fail update"), db)
  | .ok payouts =>
    match appendLedgerEntry now (credit p reason) { db with payouts := payouts } with
    | (.error e, _) => (.error (e.wrap "payout fail compensating ledger"), db)
    | (.ok (), db') => (.ok (), db')

/-- **Everything `insertPending` can do**: nothing, or a payout and its debit. -/
theorem insertPending_cases (now : Time) (gen : String) (p : Payout) (db : PaymentDB) :
    (∃ e, insertPending now gen p db = (.error e, db)) ∨
    (∃ id t l, insertPending now gen p db = (.ok (row now id p), { db with payouts := t, ledger := l }) ∧
      db.ledger.insert ((debit (row now id p)).row now db) = .ok l) := by
  unfold insertPending
  split
  · rename_i id m hid hm
    unfold insertWithDebit
    split
    · exact .inl ⟨_, rfl⟩
    · exact .inl ⟨_, rfl⟩
    rename_i t ht
    split
    swap
    · exact .inl ⟨_, rfl⟩
    obtain ⟨e, he, -⟩ | ⟨e, he, -⟩ | ⟨l, he, hl, -⟩ :=
      appendLedgerEntry_cases now (debit (row now id p)) { db with payouts := t }
    · rw [he]
      exact .inl ⟨_, rfl⟩
    · rw [he]
      exact .inl ⟨_, rfl⟩
    · rw [he]
      exact .inr ⟨id, t, l, rfl, hl⟩
  · exact .inl ⟨_, rfl⟩
  · exact .inl ⟨_, rfl⟩

/-- A payout that is made has passed the checks before its insert. -/
theorem insertPending_of_created {now : Time} {gen : String} {p q : Payout} {db db' : PaymentDB}
    (h : createPendingWithLedger now gen p db = (.ok q, db')) : insertPending now gen p db = (.ok q, db') := by
  unfold createPendingWithLedger at h
  split at h
  · cases h
  split at h
  · cases h
  split at h
  · cases h
  split at h
  · cases h
  split at h
  · cases h
  split at h
  · cases h
  dsimp only at h
  split at h
  · cases h
  · exact h

/-- **Everything `failWithCredit` can do**: nothing, or a payout that fails and its credit. -/
theorem failWithCredit_cases (now : Time) (p : Payout) (reason : String) (at' : Time) (db : PaymentDB) :
    (∃ e, failWithCredit now p reason at' db = (.error e, db)) ∨
    (∃ t l, failWithCredit now p reason at' db = (.ok (), { db with payouts := t, ledger := l }) ∧
      db.ledger.insert ((credit p reason).row now db) = .ok l) := by
  unfold failWithCredit
  split
  · exact .inl ⟨_, rfl⟩
  rename_i t ht
  obtain ⟨e, he, -⟩ | ⟨e, he, -⟩ | ⟨l, he, hl, -⟩ := appendLedgerEntry_cases now (credit p reason) { db with payouts := t }
  · rw [he]
    exact .inl ⟨_, rfl⟩
  · rw [he]
    exact .inl ⟨_, rfl⟩
  · rw [he]
    exact .inr ⟨t, l, rfl, hl⟩

/-- An open payout is failed by the two statements that follow its read. -/
theorem markFailedWithReversal_open {now : Time} {id reason : String} {at' : Time} {p : Payout} {db : PaymentDB}
    (hu : uuidParam id = .ok id) (hget : db.payouts.get (fun p => p.id == id) = some p)
    (hst : ¬ p.status.isTerminal = true) : markFailedWithReversal now id reason at' db =
      ((failWithCredit now p reason at' db).1.map fun _ => true, (failWithCredit now p reason at' db).2) := by
  have hpid : p.id = id := by simpa using (Table.get_mem hget).2
  unfold markFailedWithReversal failWithCredit
  rw [hu]
  dsimp only
  rw [hget]
  dsimp only
  rw [if_neg hst, hpid]
  generalize db.payouts.update (fun p => p.id == id) (fun p => { p with
    status := .failed, failureReason := reason, completedAt := some at', updatedAt := now }) = updated
  cases updated with
  | error v => rfl
  | ok t =>
    dsimp only
    obtain ⟨e, he, -⟩ | ⟨e, he, -⟩ | ⟨l, he, -⟩ := appendLedgerEntry_cases now (credit p reason) { db with payouts := t }
    · rw [he]
      rfl
    · rw [he]
      rfl
    · rw [he]
      rfl

end PayoutRepo

/-! ## Sessions -/

/-- A session of the database in a transaction: when it began, which is what `now()` is in it, the advisory locks it holds and
the payouts whose rows it has locked. -/
structure TxSession where
  id : ℕ
  began : Time
  locks : List ℤ
  rows : List String
deriving DecidableEq, Repr

/-- `opened` counts the sessions so far. -/
structure TxWorld where
  db : PaymentDB
  clock : Time
  sessions : List TxSession
  opened : ℕ

/-- The text `acquirePartnerLock` hashes. -/
def partnerLockKey (ref : PartnerRef) : String := "partner:" ++ (ref.partnerType.string ++ (":" ++ ref.partnerID))

namespace TxWorld

def session (w : TxWorld) (tx : ℕ) : Option TxSession := w.sessions.find? (·.id == tx)

/-- The end of a transaction, which gives its locks back. -/
def close (w : TxWorld) (tx : ℕ) : TxWorld := { w with sessions := w.sessions.filter (·.id != tx) }

/-- Whether another session holds the lock. -/
def lockedOut (w : TxWorld) (tx : ℕ) (lock : ℤ) : Bool := w.sessions.any fun s => s.id != tx && s.locks.contains lock

/-- Whether another session has locked the row of the payout. -/
def rowLockedOut (w : TxWorld) (tx : ℕ) (id : String) : Bool := w.sessions.any fun s => s.id != tx && s.rows.contains id

def grant (w : TxWorld) (tx : ℕ) (lock : ℤ) : TxWorld :=
  { w with sessions := w.sessions.map fun s => if s.id = tx then { s with locks := lock :: s.locks } else s }

def lockRow (w : TxWorld) (tx : ℕ) (id : String) : TxWorld :=
  { w with sessions := w.sessions.map fun s => if s.id = tx then { s with rows := id :: s.rows } else s }

end TxWorld

/-! ## The calls -/

/-- `insertWithDebit`, `failWithCredit` and `appendReversal` are the last statements of their transactions with the commit
after them: no other session sees what they have written, or can write against it, before the commit. -/
inductive TxOp where
  | begin
  | lock (tx : ℕ) (ref : PartnerRef)
  | readAvailableBalance (tx : ℕ) (ref : PartnerRef)
  | insertWithDebit (tx : ℕ) (p : Payout)
  | readForUpdate (tx : ℕ) (id : String)
  | failWithCredit (tx : ℕ) (p : Payout) (reason : String) (completedAt : Time)
  | appendReversal (tx : ℕ) (e : LedgerEntry)
  | appendAccrual (e : LedgerEntry)
  | rollback (tx : ℕ)
deriving DecidableEq

namespace TxOp

@[reducible] def Ans : TxOp → Type
  | begin => ℕ
  | readAvailableBalance _ _ => ℤ
  | insertWithDebit _ _ | readForUpdate _ _ => Payout
  | lock _ _ | failWithCredit _ _ _ _ | appendReversal _ _ | appendAccrual _ | rollback _ => Unit

@[reducible] def Res (o : TxOp) : Type := Except Err o.Ans

end TxOp

abbrev TxProg := Prog TxOp TxOp.Res

abbrev TxOp.call (o : TxOp) : TxProg o.Res := Prog.perform o

open TxOp (call)

namespace Locked

/-- The error a statement ends the transaction with: the deferred rollback comes first. -/
def rollingBack {α : Type} (tx : ℕ) (err : Err) : TxProg (Except Err α) := do
  let _ ← call (.rollback tx)
  return .error err

def createPendingWithLedger (p : Payout) : TxProg (Except Err Payout) := do
  if p.partnerType.valid = false then return .error (.status .invalidArgument "invalid partner_type")
  else if p.amountKopecks ≤ 0 then return .error (.status .invalidArgument "payout amount must be positive")
  else if p.methodID = "" then return .error (.status .invalidArgument "payout requires method_id")
  else if p.idempotencyKey = "" then return .error (.status .invalidArgument "payout requires idempotency_key")
  else if p.providerName = "" then return .error (.status .invalidArgument "payout requires provider_name")
  else
    match ← call .begin with
    | .error err => return .error (err.wrap "payout create begin")
    | .ok tx =>
      match ← call (.lock tx p.partner) with
      | .error err => rollingBack tx (err.wrap "payout partner lock")
      | .ok () =>
        match ← call (.readAvailableBalance tx p.partner) with
        | .error err => rollingBack tx (err.wrap "payout balance recheck")
        | .ok available =>
          if available < p.amountKopecks then
            rollingBack tx (.status .failedPrecondition ("payout precondition: available=" ++ toString available ++
              " < requested=" ++ toString p.amountKopecks))
          else
            match ← call (.insertWithDebit tx p) with
            | .error err => rollingBack tx err
            | .ok payout => return .ok payout

def appendReversal (e : LedgerEntry) : TxProg (Except Err Unit) := do
  if e.entryType ≠ .reversal then
    return .error (.status .invalidArgument "AppendReversal requires entry_type=reversal")
  else if e.amountKopecks ≥ 0 then
    return .error (.status .invalidArgument "reversal amount must be negative")
  else if e.paymentID = "" ∨ e.reversesEntryID = 0 then
    return .error (.status .invalidArgument "reversal requires payment_id and reverses_entry_id")
  else
    match ← call .begin with
    | .error err => return .error (err.wrap "reversal begin")
    | .ok tx =>
      match ← call (.lock tx e.partner) with
      | .error err => rollingBack tx (err.wrap "reversal partner lock")
      | .ok () =>
        match ← call (.appendReversal tx e) with
        | .error err => rollingBack tx err
        | .ok () => return .ok ()

def markFailedWithReversal (id reason : String) (completedAt : Time) : TxProg (Except Err Bool) := do
  match ← call .begin with
  | .error err => return .error (err.wrap "payout fail begin")
  | .ok tx =>
    match ← call (.readForUpdate tx id) with
    | .error err => rollingBack tx err
    | .ok p =>
      if p.status.isTerminal then
        let _ ← call (.rollback tx)
        return .ok false
      else
        match ← call (.lock tx p.partner) with
        | .error err => rollingBack tx (err.wrap "payout fail partner lock")
        | .ok () =>
          match ← call (.failWithCredit tx p reason completedAt) with
          | .error err => rollingBack tx err
          | .ok () => return .ok true

end Locked

/-! ## What the calls do -/

/-- What the environment has in store for a call: the UUID the database draws, and which calls fail. -/
structure TxEnv where
  uuid : String
  fault : TxOp → Fault Err

/-- A statement in a session, which fails when the session is lost. -/
def TxWorld.within {α : Type} (tx : ℕ) (f : TxSession → TxWorld → Except Err α × TxWorld) (w : TxWorld) :
    Except Err α × TxWorld :=
  match w.session tx with
  | some s => f s w
  | none => (.error (.plain "conn closed"), w)

/-- The last statement of a transaction and the commit; with an error nothing is committed. -/
def TxWorld.committing {α : Type} (tx : ℕ) (r : Except Err α × PaymentDB) (w : TxWorld) : Except Err α × TxWorld :=
  match r with
  | (.ok a, db) => (.ok a, { w with db := db }.close tx)
  | (.error e, _) => (.error e, w)

/-- A wait for a lock that was given up. -/
def lockWaitErr : Err := .plain "ERROR: canceling statement due to lock timeout (SQLSTATE 55P03)"

namespace TxOp

/-- The operation without a failure from outside.  `hashtext` is the database's own function.  A call that waits for a lock
has not performed the operation yet; one that performs it while another session holds the lock has given up. -/
def attempt (hashtext : String → ℤ) (uuid : String) : (o : TxOp) → TxWorld → o.Res × TxWorld
  | begin, w => (.ok w.opened, { w with sessions := w.sessions ++ [⟨w.opened, w.clock, [], []⟩], opened := w.opened + 1 })
  | lock tx ref, w => w.within tx fun _ w =>
    if w.lockedOut tx (hashtext (partnerLockKey ref)) then (.error lockWaitErr, w)
    else (.ok (), w.grant tx (hashtext (partnerLockKey ref)))
  | readAvailableBalance tx ref, w => w.within tx fun s w =>
    match uuidParam ref.partnerID with
    | .error e => (.error e, w)
    | .ok _ => (.ok (Agregator.readAvailableBalance s.began ref w.db), w)
  | insertWithDebit tx p, w => w.within tx fun s w => w.committing tx (PayoutRepo.insertPending s.began uuid p w.db)
  | readForUpdate tx id, w => w.within tx fun _ w =>
    match uuidParam id with
    | .error e => (.error (e.wrap "payout fail lock"), w)
    | .ok id =>
      match w.db.payouts.get (fun p => p.id == id) with
      | none => (.error (.status .notFound "payout not found"), w)
      | some p => if w.rowLockedOut tx id then (.error lockWaitErr, w) else (.ok p, w.lockRow tx id)
  | failWithCredit tx p reason at', w => w.within tx fun s w =>
    w.committing tx (PayoutRepo.failWithCredit s.began p reason at' w.db)
  | appendReversal tx e, w => w.within tx fun s w => w.committing tx (appendLedgerEntry s.began e w.db)
  | appendAccrual e, w => ((LedgerRepo.appendAccrual w.clock e w.db).1, { w with db := (LedgerRepo.appendAccrual w.clock e w.db).2 })
  | rollback tx, w => (.ok (), w.close tx)

def run (hashtext : String → ℤ) (env : TxEnv) (o : TxOp) (w : TxWorld) : o.Res × TxWorld :=
  (env.fault o).apply id (o.attempt hashtext env.uuid) w

/-- A call in an environment that may be any at every call. -/
def Exec (hashtext : String → ℤ) (o : TxOp) (w : TxWorld) (r : o.Res) (w' : TxWorld) : Prop :=
  ∃ env, o.run hashtext env w = (r, w')

end TxOp

inductive LedgerCall where
  | createPendingWithLedger (p : Payout)
  | appendAccrual (e : LedgerEntry)
  | appendReversal (e : LedgerEntry)
  | markFailedWithReversal (id reason : String) (completedAt : Time)

/-- The error a call returns. -/
def errorOf {α : Type} : Except Err α → Option Err
  | .error e => some e
  | .ok _ => none

def LedgerCall.prog : LedgerCall → TxProg (Option Err)
  | .createPendingWithLedger p => do return errorOf (← Locked.createPendingWithLedger p)
  | .appendAccrual e => do return errorOf (← call (.appendAccrual e))
  | .appendReversal e => do return errorOf (← Locked.appendReversal e)
  | .markFailedWithReversal id reason at' => do return errorOf (← Locked.markFailedWithReversal id reason at')

/-- Time goes on, a session is lost, and the rest of the database is written by others. -/
inductive TxWorld.Moves : TxWorld → TxWorld → Prop where
  | tick (w : TxWorld) (t : Time) : w.clock ≤ t → Moves w { w with clock := t }
  | lose (w : TxWorld) (tx : ℕ) : Moves w (w.close tx)
  | other (w : TxWorld) (db : PaymentDB) : db.ledger = w.db.ledger → Moves w { w with db := db }

/-- Any number of calls at once, for any partners. -/
def ledgerSys (hashtext : String → ℤ) : Sys TxWorld LedgerCall TxOp TxOp.Res (Option Err) where
  prog := LedgerCall.prog
  ready _ _ := True
  exec := TxOp.Exec hashtext
  env := TxWorld.Moves

/-! ## A call alone -/

section Alone

variable {hashtext : String → ℤ} {uuid : String} {w : TxWorld}

/-- The session a call alone has begun. -/
def TxWorld.beganAlone (w : TxWorld) (locks : List ℤ) (rows : List String) : TxWorld :=
  { w with sessions := [⟨w.opened, w.clock, locks, rows⟩], opened := w.opened + 1 }

@[simp] theorem begin_alone (h : w.sessions = []) :
    TxOp.attempt hashtext uuid .begin w = (.ok w.opened, w.beganAlone [] []) := by
  simp [TxOp.attempt, TxWorld.beganAlone, h]

@[simp] theorem session_alone (locks : List ℤ) (rows : List String) :
    (w.beganAlone locks rows).session w.opened = some ⟨w.opened, w.clock, locks, rows⟩ := by
  simp [TxWorld.session, TxWorld.beganAlone]

@[simp] theorem db_alone (locks : List ℤ) (rows : List String) : (w.beganAlone locks rows).db = w.db := rfl

@[simp] theorem lock_alone (ref : PartnerRef) (rows : List String) :
    TxOp.attempt hashtext uuid (.lock w.opened ref) (w.beganAlone [] rows) =
      (.ok (), w.beganAlone [hashtext (partnerLockKey ref)] rows) := by
  simp [TxOp.attempt, TxWorld.within, TxWorld.lockedOut, TxWorld.grant]
  simp [TxWorld.beganAlone]

@[simp] theorem rollback_alone (locks : List ℤ) (rows : List String) :
    TxOp.attempt hashtext uuid (.rollback w.opened) (w.beganAlone locks rows) = (.ok (), { w with sessions := [], opened := w.opened + 1 }) := by
  simp [TxOp.attempt, TxWorld.close, TxWorld.beganAlone]

/-- **A payout that is made alone is made as in one transaction.** -/
theorem createPendingWithLedger_alone (h : w.sessions = []) (p : Payout) :
    ((Locked.createPendingWithLedger p).eval (TxOp.attempt hashtext uuid) w).1 =
        (PayoutRepo.createPendingWithLedger w.clock uuid p w.db).1 ∧
      ((Locked.createPendingWithLedger p).eval (TxOp.attempt hashtext uuid) w).2.db =
        (PayoutRepo.createPendingWithLedger w.clock uuid p w.db).2 := by
  unfold Locked.createPendingWithLedger PayoutRepo.createPendingWithLedger
  split
  · exact ⟨rfl, rfl⟩
  split
  · exact ⟨rfl, rfl⟩
  split
  · exact ⟨rfl, rfl⟩
  split
  · exact ⟨rfl, rfl⟩
  split
  · exact ⟨rfl, rfl⟩
  have hid : p.partner.partnerID = p.partnerID := rfl
  have hread : TxOp.attempt hashtext uuid (.readAvailableBalance w.opened p.partner)
      (w.beganAlone [hashtext (partnerLockKey p.partner)] []) = (match uuidParam p.partnerID with
        | .error e => .error e
        | .ok _ => .ok (readAvailableBalance w.clock p.partner w.db),
        w.beganAlone [hashtext (partnerLockKey p.partner)] []) := by
    simp only [TxOp.attempt, TxWorld.within, session_alone, hid]
    split <;> rfl
  have hins : TxOp.attempt hashtext uuid (.insertWithDebit w.opened p)
      (w.beganAlone [hashtext (partnerLockKey p.partner)] []) =
      (w.beganAlone [hashtext (partnerLockKey p.partner)] []).committing w.opened
        (PayoutRepo.insertPending w.clock uuid p w.db) := by
    simp only [TxOp.attempt, TxWorld.within, session_alone, db_alone]
  simp only [Prog.bind_eq, Prog.perform_bind, Prog.eval_call, begin_alone h, lock_alone, hread]
  cases uuidParam p.partnerID with
  | error e => simp [Locked.rollingBack]
  | ok _ =>
    dsimp only
    by_cases hav : readAvailableBalance w.clock p.partner w.db < p.amountKopecks
    · rw [if_pos hav, if_pos hav]
      simp [Locked.rollingBack]
    · rw [if_neg hav, if_neg hav]
      change _ = (PayoutRepo.insertPending w.clock uuid p w.db).1 ∧ _ = (PayoutRepo.insertPending w.clock uuid p w.db).2
      rw [Prog.eval_call, hins]
      rcases PayoutRepo.insertPending_cases w.clock uuid p w.db with ⟨e, he⟩ | ⟨id, t, l, he, -⟩
      · simp [he, TxWorld.committing, Locked.rollingBack]
      · simp [he, TxWorld.committing, TxWorld.close, TxWorld.beganAlone]

theorem appendReversal_alone (h : w.sessions = []) (e : LedgerEntry) :
    ((Locked.appendReversal e).eval (TxOp.attempt hashtext uuid) w).1 = (LedgerRepo.appendReversal w.clock e w.db).1 ∧
      ((Locked.appendReversal e).eval (TxOp.attempt hashtext uuid) w).2.db =
        (LedgerRepo.appendReversal w.clock e w.db).2 := by
  unfold Locked.appendReversal LedgerRepo.appendReversal
  split
  · exact ⟨rfl, rfl⟩
  split
  · exact ⟨rfl, rfl⟩
  split
  · exact ⟨rfl, rfl⟩
  have hins : TxOp.attempt hashtext uuid (.appendReversal w.opened e) (w.beganAlone [hashtext (partnerLockKey e.partner)] []) =
      (w.beganAlone [hashtext (partnerLockKey e.partner)] []).committing w.opened (appendLedgerEntry w.clock e w.db) := by
    simp only [TxOp.attempt, TxWorld.within, session_alone, db_alone]
  simp only [Prog.bind_eq, Prog.perform_bind, Prog.eval_call, begin_alone h, lock_alone, hins]
  rcases appendLedgerEntry_cases w.clock e w.db with ⟨x, he, -⟩ | ⟨x, he, -⟩ | ⟨l, he, -⟩
  · simp [he, TxWorld.committing, Locked.rollingBack]
  · simp [he, TxWorld.committing, Locked.rollingBack]
  · simp [he, TxWorld.committing, TxWorld.close, TxWorld.beganAlone]

theorem markFailedWithReversal_alone (h : w.sessions = []) (id reason : String) (at' : Time) :
    ((Locked.markFailedWithReversal id reason at').eval (TxOp.attempt hashtext uuid) w).1 =
        (PayoutRepo.markFailedWithReversal w.clock id reason at' w.db).1 ∧
      ((Locked.markFailedWithReversal id reason at').eval (TxOp.attempt hashtext uuid) w).2.db =
        (PayoutRepo.markFailedWithReversal w.clock id reason at' w.db).2 := by
  unfold Locked.markFailedWithReversal
  have hread : TxOp.attempt hashtext uuid (.readForUpdate w.opened id) (w.beganAlone [] []) =
      (match uuidParam id with
        | .error e => (.error (e.wrap "payout fail lock"), w.beganAlone [] [])
        | .ok id =>
          match w.db.payouts.get (fun p => p.id == id) with
          | none => (.error (.status .notFound "payout not found"), w.beganAlone [] [])
          | some p => (.ok p, w.beganAlone [] [id])) := by
    simp only [TxOp.attempt, TxWorld.within, session_alone, db_alone]
    split
    · rfl
    split
    · rfl
    · simp [TxWorld.rowLockedOut, TxWorld.lockRow, TxWorld.beganAlone]
  simp only [Prog.bind_eq, Prog.perform_bind, Prog.eval_call, begin_alone h, hread]
  rcases uuidParam_cases id with ⟨hu, -⟩ | ⟨e, hu, -⟩
  swap
  · simp [PayoutRepo.markFailedWithReversal, hu, Locked.rollingBack]
  rw [hu]
  dsimp only
  cases hget : w.db.payouts.get (fun p => p.id == id) with
  | none => simp [PayoutRepo.markFailedWithReversal, hu, hget, Locked.rollingBack]
  | some p =>
  dsimp only
  by_cases hst : p.status.isTerminal = true
  · rw [if_pos hst]
    simp [PayoutRepo.markFailedWithReversal, hu, hget, hst]
  · rw [if_neg hst, PayoutRepo.markFailedWithReversal_open hu hget hst]
    have hfail : TxOp.attempt hashtext uuid (.failWithCredit w.opened p reason at')
        (w.beganAlone [hashtext (partnerLockKey p.partner)] [id]) =
        (w.beganAlone [hashtext (partnerLockKey p.partner)] [id]).committing w.opened
          (PayoutRepo.failWithCredit w.clock p reason at' w.db) := by
      simp only [TxOp.attempt, TxWorld.within, session_alone, db_alone]
    simp only [Prog.eval_call, lock_alone, hfail]
    rcases PayoutRepo.failWithCredit_cases w.clock p reason at' w.db with ⟨e, he⟩ | ⟨t, l, he, -⟩
    · simp [he, TxWorld.committing, Locked.rollingBack, Except.map]
    · simp [he, TxWorld.committing, TxWorld.close, TxWorld.beganAlone, Except.map]

end Alone

end Agregator
