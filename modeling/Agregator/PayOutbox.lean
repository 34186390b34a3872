import Agregator.PayFacts
import Agregator.ConcTrace
import Mathlib.Data.List.Sort
/-!
# PayOutbox — the relay of the payment outbox

A tick of the worker is one transaction of `RelayBatch`: it locks the oldest rows that are pending, publishes them one by
one, writes for each whether it was sent, and commits.  What a transaction has written is in no row before it commits, an
error of a statement aborts it, and the transaction of a worker that crashed is rolled back when its connection is closed.
-/
namespace Agregator

open Rel Conc

/-! ## The rows -/

namespace OutboxRepo

def outboxMaxAttempts : ℤ := 10

def maxLastErrorBytes : ℕ := 500

/-- The characters that fit into a number of bytes. -/
def takeBytes : ℕ → List Char → List Char
  | _, [] => []
  | n, c :: cs => if c.utf8Size ≤ n then c :: takeBytes (n - c.utf8Size) cs else []

def truncateUTF8 (s : String) (maxBytes : ℕ) : String :=
  if s.utf8ByteSize ≤ maxBytes then s else String.ofList (takeBytes maxBytes s.toList)

/-- `sent_at IS NULL AND failed_at IS NULL`. -/
def pending (e : OutboxEvent) : Bool := e.sentAt.isNone && e.failedAt.isNone

/-- `… ORDER BY id LIMIT $1 FOR UPDATE SKIP LOCKED`. -/
def selectPending (limit : ℕ) (locked : List ℤ) (outbox : List OutboxEvent) : List OutboxEvent :=
  ((outbox.filter fun e => pending e && !locked.contains e.id).mergeSort fun a b => decide (a.id ≤ b.id)).take limit

def failedRow (now : Time) (errMsg : String) (e : OutboxEvent) : OutboxEvent :=
  { e with
    attemptCount := e.attemptCount + 1, lastError := errMsg
    failedAt := if outboxMaxAttempts ≤ e.attemptCount + 1 then some now else none }

def sentRow (now : Time) (e : OutboxEvent) : OutboxEvent := { e with sentAt := some now }

end OutboxRepo

/-- What `RelayBatch` writes of a row. -/
inductive OutboxMark where
  | sent
  | failed (errMsg : String)
deriving DecidableEq, Repr

def OutboxMark.row (now : Time) : OutboxMark → OutboxEvent → OutboxEvent
  | sent => OutboxRepo.sentRow now
  | failed errMsg => OutboxRepo.failedRow now errMsg

/-- An open transaction of `RelayBatch`: when it began, the rows it has locked, what it has written, and whether a statement
of it has failed. -/
structure RelayTx where
  session : ℕ
  now : Time
  locked : List ℤ := []
  marks : List (ℤ × OutboxMark) := []
  aborted : Bool := false

/-- A row after what the transaction has written. -/
def RelayTx.row (tx : RelayTx) (e : OutboxEvent) : OutboxEvent :=
  tx.marks.foldl (fun e m => if e.id = m.1 then m.2.row tx.now e else e) e

/-- The committed rows, the open transactions, how many there have been, the publications and those that failed. -/
structure RelayWorld where
  outbox : List OutboxEvent
  txs : List RelayTx
  sessions : ℕ
  published : List OutboxEvent
  failures : List OutboxEvent

namespace RelayWorld

variable (w : RelayWorld)

def tx (s : ℕ) : Option RelayTx := w.txs.find? (·.session == s)

def updateTx (s : ℕ) (f : RelayTx → RelayTx) : RelayWorld :=
  { w with txs := w.txs.map fun tx => if tx.session = s then f tx else tx }

def closeTx (s : ℕ) : RelayWorld := { w with txs := w.txs.filter (·.session != s) }

end RelayWorld

/-! ## The calls -/

inductive RelayOp where
  | begin
  | selectPending (tx : ℕ) (limit : ℕ)
  | publishMsg (e : OutboxEvent)
  | exec (tx : ℕ) (id : ℤ) (mark : OutboxMark)
  | commit (tx : ℕ)
  | rollback (tx : ℕ)

/-- The context of the worker is done, or NATS has not acknowledged the message. -/
inductive PublishErr where
  | stopped (err : Err)
  | refused (err : Err)

def connClosed : Err := .plain "conn closed"

namespace RelayOp

@[reducible] def Res : RelayOp → Type
  | begin => Except Err ℕ
  | selectPending _ _ => Except Err (List OutboxEvent)
  | publishMsg _ => Except PublishErr Unit
  | exec _ _ _ | commit _ | rollback _ => Except Err Unit

def beginTx (now : Time) (w : RelayWorld) : Except Err ℕ × RelayWorld :=
  (.ok w.sessions, { w with txs := w.txs ++ [{ session := w.sessions, now := now }], sessions := w.sessions + 1 })

def select (s limit : ℕ) (w : RelayWorld) : Except Err (List OutboxEvent) × RelayWorld :=
  match w.tx s with
  | none => (.error connClosed, w)
  | some _ =>
    let batch := OutboxRepo.selectPending limit (w.txs.flatMap (·.locked)) w.outbox
    (.ok batch, w.updateTx s fun tx => { tx with locked := tx.locked ++ batch.map (·.id) })

def publish (fault : Fault String) (e : OutboxEvent) (w : RelayWorld) : Except PublishErr Unit × RelayWorld :=
  match fault with
  | .none => (.ok (), { w with published := w.published ++ [e] })
  | .before d => (.error (.stopped (.plain d)), { w with failures := w.failures ++ [e] })
  | .after d => (.error (.refused (.plain d)), { w with failures := w.failures ++ [e] })

/-- A statement that fails aborts its transaction. -/
def execMark (fault : Fault String) (s : ℕ) (id : ℤ) (mark : OutboxMark) (w : RelayWorld) : Except Err Unit × RelayWorld :=
  match w.tx s with
  | none => (.error connClosed, w)
  | some tx =>
    if tx.aborted then (.error (.plain "ERROR: current transaction is aborted (SQLSTATE 25P02)"), w)
    else
      match fault with
      | .none => (.ok (), w.updateTx s fun tx => { tx with marks := tx.marks ++ [(id, mark)] })
      | .before d | .after d => (.error (.plain d), w.updateTx s fun tx => { tx with aborted := true })

def commitTx (s : ℕ) (w : RelayWorld) : Except Err Unit × RelayWorld :=
  match w.tx s with
  | none => (.error connClosed, w)
  | some tx =>
    if tx.aborted then (.error (.plain "commit unexpectedly resulted in rollback"), w.closeTx s)
    else (.ok (), { w.closeTx s with outbox := w.outbox.map tx.row })

def run (now : Time) (fault : Fault String) : (o : RelayOp) → RelayWorld → o.Res × RelayWorld
  | begin, w => fault.apply Err.plain (beginTx now) w
  | selectPending s limit, w => fault.apply Err.plain (select s limit) w
  | publishMsg e, w => publish fault e w
  | exec s id mark, w => execMark fault s id mark w
  | commit s, w => fault.apply Err.plain (commitTx s) w
  | rollback s, w => fault.apply Err.plain (fun w => (.ok (), w.closeTx s)) w

def Exec (o : RelayOp) (w : RelayWorld) (r : o.Res) (w' : RelayWorld) : Prop := ∃ now fault, o.run now fault w = (r, w')

end RelayOp

abbrev RelayProg := Prog RelayOp RelayOp.Res

abbrev RelayOp.call (o : RelayOp) : RelayProg o.Res := Prog.perform o

open RelayOp (call)

/-! ## The worker -/

/-- What `relay` passes to `RelayBatch`: `publishOne`, unless the worker is being stopped. -/
def publishOne (e : OutboxEvent) : RelayProg (Except Err Unit) := do
  match ← call (.publishMsg e) with
  | .error (.stopped err) => return .error err
  | .error (.refused err) => return .error (err.wrap ("attempt " ++ toString (e.attemptCount + 1)))
  | .ok () => return .ok ()

/-- The loop of `RelayBatch`; it does not stop for an error of a statement. -/
def publishBatch (tx : ℕ) : List OutboxEvent → RelayProg Unit
  | [] => return ()
  | e :: batch => do
    match ← publishOne e with
    | .error publishErr =>
      let _ ← call (.exec tx e.id (.failed (OutboxRepo.truncateUTF8 publishErr.text OutboxRepo.maxLastErrorBytes)))
      publishBatch tx batch
    | .ok () =>
      let _ ← call (.exec tx e.id .sent)
      publishBatch tx batch

/-- `RelayBatch` in its transaction. -/
def relayTx (limit tx : ℕ) : RelayProg (Except Err ℕ) := do
  match ← call (.selectPending tx limit) with
  | .error err => return .error (err.wrap "outbox RelayBatch: select")
  | .ok batch =>
    publishBatch tx batch
    match ← call (.commit tx) with
    | .error err => return .error (err.wrap "outbox RelayBatch: commit")
    | .ok () => return .ok batch.length

/-- How many rows were processed. -/
def relayBatch (limit : ℕ) : RelayProg (Except Err ℕ) := do
  match ← call .begin with
  | .error err => return .error (err.wrap "outbox RelayBatch: begin tx")
  | .ok tx =>
    let n ← relayTx limit tx
    let _ ← call (.rollback tx)
    return n

def fetchBatchSize : ℕ := 50

/-- One tick of the worker. -/
def relay : RelayProg (Except Err ℕ) := relayBatch fetchBatchSize

/-! ## The system -/

/-- A row as it is written with its payment. -/
structure OutboxEvent.Staged (e : OutboxEvent) : Prop where
  id : 0 < e.id
  sentAt : e.sentAt = none
  attemptCount : e.attemptCount = 0
  failedAt : e.failedAt = none

namespace RelayWorld

/-- A payment is written together with its event. -/
inductive Inserts : RelayWorld → RelayWorld → Prop where
  | insert (w : RelayWorld) (e : OutboxEvent) : e.Staged → e.id ∉ w.outbox.map (·.id) →
      Inserts w { w with outbox := w.outbox ++ [e] }

/-- What goes on besides: payments are written, and connections are closed. -/
inductive Moves : RelayWorld → RelayWorld → Prop where
  | insert {w w' : RelayWorld} : Inserts w w' → Moves w w'
  | close (w : RelayWorld) (s : ℕ) : Moves w (w.closeTx s)

def empty : RelayWorld := ⟨[], [], 0, [], []⟩

end RelayWorld

/-- Ticks of any number of workers. -/
def relaySys : Sys RelayWorld Unit RelayOp RelayOp.Res (Except Err ℕ) where
  prog _ := relay
  ready _ _ := True
  exec := RelayOp.Exec
  env := RelayWorld.Moves

/-- **`UpdateStatusWithOutbox` writes the outbox so.** -/
theorem PaymentRepo.updateStatusWithOutbox_inserts (now : Time) (id : String) (st : PaymentStatus) (pid : String)
    (ev : OutboxEvent) (db : PaymentDB) {w : RelayWorld} (hw : w.outbox = db.outbox) :
    (updateStatusWithOutbox now id st pid ev db).2.outbox = db.outbox ∨
      w.Inserts { w with outbox := (updateStatusWithOutbox now id st pid ev db).2.outbox } := by
  unfold updateStatusWithOutbox
  split
  · exact .inl rfl
  · split
    · exact .inl rfl
    · split
      · exact .inl rfl
      · split
        · exact .inl rfl
        · right
          dsimp only
          rw [← hw]
          refine .insert w _ ⟨nextSerial_pos _, rfl, rfl, rfl⟩ fun hold => ?_
          exact absurd (lt_nextSerial hold) (Int.lt_irrefl _)

end Agregator
