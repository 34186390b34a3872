import Mathlib.Data.List.Sort
import Agregator.ConcLocks
import Agregator.ConcTrace
import Agregator.RelTable
import Agregator.SvcErr
/-!
# MasterPhotos — the photos of the masters

`AddMasterPhoto` and `DeleteMasterPhoto` are transactions, `SetMasterCoverPhoto` is one statement.  A statement sees what is
committed when it runs, and what its own transaction has written; it runs once the locks it needs are free.
-/
namespace Agregator

open Rel Conc

structure MasterPhoto where
  id : String
  masterID : String
  url : String
  sortOrder : ℤ
  isCover : Bool
deriving DecidableEq, Repr

def maxMasterPhotos : ℕ := 12

/-- The primary key and `uq_master_photos_one_cover`. -/
def photoSchema : Schema MasterPhoto where
  check _ := true
  clash a b := a.id == b.id || (a.masterID == b.masterID && a.isCover && b.isCover)
  clash_comm a b := by
    rw [Bool.eq_iff_iff]
    simp only [Bool.or_eq_true, Bool.and_eq_true, beq_iff_eq]
    exact ⟨fun h => h.imp Eq.symm fun h => ⟨⟨h.1.1.symm, h.2⟩, h.1.2⟩, fun h => h.imp Eq.symm fun h => ⟨⟨h.1.1.symm, h.2⟩, h.1.2⟩⟩

/-- A row of `masters`, a row of `master_photos`, or the entry of a master in the index of the covers. -/
inductive PhotoLock where
  | master (id : String)
  | photo (id : String)
  | cover (masterID : String)
deriving DecidableEq

inductive PhotoWrite where
  | insert (photo : MasterPhoto)
  | delete (id : String)
  | cover (id : String)
deriving DecidableEq

/-- A transaction with what it has written. -/
structure PhotoTx where
  id : ℕ
  writes : List PhotoWrite
deriving DecidableEq

/-- `issued` are the identifiers drawn, with the master each was drawn for. -/
structure PhotoWorld where
  masters : List String
  photos : Table photoSchema
  locks : Locks PhotoLock
  issued : String → Option String

/-! ## The statements -/

namespace PhotoWrite

def apply (t : Table photoSchema) : PhotoWrite → Except Violation (Table photoSchema)
  | insert photo => t.insert photo
  | delete id => .ok (t.delete (·.id == id))
  | cover id => t.update (·.id == id) fun x => { x with isCover := true }

def applyAll : List PhotoWrite → Table photoSchema → Except Violation (Table photoSchema)
  | [], t => .ok t
  | x :: xs, t =>
    match x.apply t with
    | .error v => .error v
    | .ok t => applyAll xs t

end PhotoWrite

namespace PhotoRepo

def ErrNotFound : Err := .plain "not found"

def ErrPhotoLimitReached : Err := .plain "photo limit reached"

def ErrNoRows : Err := .plain "no rows in result set"

def connClosed : Err := .plain "conn closed"

def ofViolation : Violation → Err
  | .unique => .plain "ERROR: duplicate key value violates unique constraint (SQLSTATE 23505)"
  | .check => .plain "ERROR: new row violates check constraint (SQLSTATE 23514)"

/-- The rows a transaction sees. -/
def seen (tx : PhotoTx) (w : PhotoWorld) : Except Err (Table photoSchema) :=
  (PhotoWrite.applyAll tx.writes w.photos).mapError ofViolation

/-- A statement of a transaction that writes. -/
def write (tx : PhotoTx) (x : PhotoWrite) (w : PhotoWorld) : Except Err PhotoTx := do
  let _ ← seen { tx with writes := tx.writes ++ [x] } w
  return { tx with writes := tx.writes ++ [x] }

/-- `SELECT COUNT(*)`. -/
def countPhotos (tx : PhotoTx) (masterID : String) (w : PhotoWorld) : Except Err ℕ := do
  return ((← seen tx w).select (·.masterID == masterID)).length

/-- `SELECT COALESCE(MAX(sort_order), -1)`. -/
def maxSortOrder (tx : PhotoTx) (masterID : String) (w : PhotoWorld) : Except Err ℤ := do
  return (((← seen tx w).select (·.masterID == masterID)).map (·.sortOrder)).max?.getD (-1)

/-- The foreign key is checked when the row is there. -/
def insertPhoto (tx : PhotoTx) (photo : MasterPhoto) (w : PhotoWorld) : Except Err (MasterPhoto × PhotoTx) := do
  let tx ← write tx (.insert photo) w
  if photo.masterID ∈ w.masters then return (photo, tx)
  else .error (.plain "ERROR: insert or update on table violates foreign key constraint (SQLSTATE 23503)")

/-- The row `DELETE … WHERE id = $1 AND master_id = $2` is about. -/
def doomed (tx : PhotoTx) (photoID masterID : String) (w : PhotoWorld) : Except Err (Option MasterPhoto) := do
  return (← seen tx w).get fun x => x.id == photoID && x.masterID == masterID

def deletePhoto (tx : PhotoTx) (photoID masterID : String) (w : PhotoWorld) : Except Err ((String × Bool) × PhotoTx) := do
  match ← doomed tx photoID masterID w with
  | none => .error ErrNoRows
  | some x => return ((x.url, x.isCover), ← write tx (.delete x.id) w)

/-- `ORDER BY sort_order ASC, id ASC`. -/
def sorts (a b : MasterPhoto) : Bool :=
  if a.sortOrder = b.sortOrder then decide (a.id ≤ b.id) else decide (a.sortOrder < b.sortOrder)

def nextPhoto (tx : PhotoTx) (masterID : String) (w : PhotoWorld) : Except Err String := do
  match (((← seen tx w).select (·.masterID == masterID)).insertionSort fun a b => sorts a b = true).head? with
  | none => .error ErrNoRows
  | some x => return x.id

/-- `UPDATE … SET is_cover = true WHERE id = $1`; there may be no such row. -/
def coverPhoto (tx : PhotoTx) (photoID : String) (w : PhotoWorld) : Except Err PhotoTx := do
  if (← seen tx w).rows.any (·.id == photoID) then write tx (.cover photoID) w else return tx

/-- `UPDATE … SET is_cover = (id = $2)`, row by row; the unique index is looked at with every row. -/
def setCovers (photoID : String) : List MasterPhoto → Table photoSchema → Except Violation (Table photoSchema)
  | [], t => .ok t
  | r :: rows, t =>
    match t.update (·.id == r.id) fun x => { x with isCover := x.id == photoID } with
    | .error v => .error v
    | .ok t => setCovers photoID rows t

/-- `SetMasterCoverPhoto`, over rows stored in an order.  It waits for every row, and for the index where it enters a row. -/
def setMasterCoverPhoto (order : List MasterPhoto) (masterID photoID : String) (w : PhotoWorld) :
    Option (Except Err Unit × PhotoWorld) :=
  let rows := order.filter (·.masterID == masterID)
  let locks := rows.map (.photo ·.id) ++ if rows.any (·.id == photoID) then [.cover masterID] else []
  if locks.all w.locks.unheld then
    match setCovers photoID rows w.photos with
    | .error v => some (.error (ofViolation v), w)
    | .ok photos => some (if rows.isEmpty then .error ErrNotFound else .ok (), { w with photos := photos })
  else none

end PhotoRepo

/-! ## The operations -/

inductive PhotoOp where
  | beginTx
  | lockMaster (tx : PhotoTx) (masterID : String)
  | countPhotos (tx : PhotoTx) (masterID : String)
  | maxSortOrder (tx : PhotoTx) (masterID : String)
  | insertPhoto (tx : PhotoTx) (masterID url : String) (sortOrder : ℤ) (isCover : Bool)
  | deletePhoto (tx : PhotoTx) (photoID masterID : String)
  | nextPhoto (tx : PhotoTx) (masterID : String)
  | coverPhoto (tx : PhotoTx) (photoID : String)
  | commit (tx : PhotoTx)
  | rollback (tx : PhotoTx)
  | setMasterCoverPhoto (masterID photoID : String)
deriving DecidableEq

/-- The identifier that is drawn, and the order the rows are stored in. -/
structure PhotoEnv where
  newID : String
  order : List MasterPhoto

namespace PhotoWorld

/-- A statement of a transaction, with the locks it takes. -/
def within {α : Type} (w : PhotoWorld) (tx : PhotoTx) (locks : List PhotoLock) (r : Except Err α) : Option (Except Err α × PhotoWorld) :=
  if w.locks.live tx.id = false then some (.error PhotoRepo.connClosed, w)
  else if locks.all (w.locks.free tx.id) then some (r, { w with locks := w.locks.take tx.id locks })
  else none

def commit (w : PhotoWorld) (tx : PhotoTx) : Except Err Unit × PhotoWorld :=
  if w.locks.live tx.id = false then (.error PhotoRepo.connClosed, w)
  else
    match PhotoRepo.seen tx w with
    | .error err => (.error err, { w with locks := w.locks.close tx.id })
    | .ok photos => (.ok (), { w with photos := photos, locks := w.locks.close tx.id })

end PhotoWorld

namespace PhotoOp

@[reducible] def Res : PhotoOp → Type
  | beginTx | coverPhoto _ _ => Except Err PhotoTx
  | countPhotos _ _ => Except Err ℕ
  | maxSortOrder _ _ => Except Err ℤ
  | insertPhoto _ _ _ _ _ => Except Err (MasterPhoto × PhotoTx)
  | deletePhoto _ _ _ => Except Err ((String × Bool) × PhotoTx)
  | nextPhoto _ _ => Except Err String
  | lockMaster _ _ | commit _ | rollback _ | setMasterCoverPhoto _ _ => Except Err Unit

/-- `none` is a statement that has to wait. -/
def run (env : PhotoEnv) : (o : PhotoOp) → PhotoWorld → Option (o.Res × PhotoWorld)
  | beginTx, w => some (.ok ⟨w.locks.opened, []⟩, { w with locks := w.locks.begin })
  | lockMaster tx masterID, w => w.within tx (if masterID ∈ w.masters then [.master masterID] else []) (.ok ())
  | countPhotos tx masterID, w => w.within tx [] (PhotoRepo.countPhotos tx masterID w)
  | maxSortOrder tx masterID, w => w.within tx [] (PhotoRepo.maxSortOrder tx masterID w)
  | insertPhoto tx masterID url sortOrder isCover, w =>
    { w with issued := Function.update w.issued env.newID (some masterID) }.within tx
      (.master masterID :: if isCover then [.cover masterID] else [])
      (PhotoRepo.insertPhoto tx ⟨env.newID, masterID, url, sortOrder, isCover⟩ w)
  | deletePhoto tx photoID masterID, w =>
    w.within tx
      (match PhotoRepo.doomed tx photoID masterID w with
        | .ok (some x) => .photo x.id :: if x.isCover then [.cover x.masterID] else []
        | _ => [])
      (PhotoRepo.deletePhoto tx photoID masterID w)
  | nextPhoto tx masterID, w => w.within tx [] (PhotoRepo.nextPhoto tx masterID w)
  | coverPhoto tx photoID, w =>
    w.within tx
      (match w.photos.get (·.id == photoID) with
        | some x => [.photo x.id, .cover x.masterID]
        | none => [])
      (PhotoRepo.coverPhoto tx photoID w)
  | commit tx, w => some (w.commit tx)
  | rollback tx, w => some (.ok (), { w with locks := w.locks.close tx.id })
  | setMasterCoverPhoto masterID photoID, w => PhotoRepo.setMasterCoverPhoto env.order masterID photoID w

def Exec (o : PhotoOp) (w : PhotoWorld) (r : o.Res) (w' : PhotoWorld) : Prop :=
  ∃ env : PhotoEnv, w.issued env.newID = none ∧ env.order.Perm w.photos.rows ∧ o.run env w = some (r, w')

end PhotoOp

abbrev PhotoProg := Prog PhotoOp PhotoOp.Res

abbrev PhotoOp.call (o : PhotoOp) : PhotoProg o.Res := Prog.perform o

/-! ## The repository -/

namespace MasterRepo

open PhotoOp

/-- `int32(x)`. -/
def int32 (x : ℤ) : ℤ := Int.bmod x (2 ^ 32)

/-- What is deferred. -/
def giveUp {α : Type} (tx : PhotoTx) (err : Err) : PhotoProg (Except Err α) := do
  let _ ← call (.rollback tx)
  return .error err

def addMasterPhoto (masterID url : String) : PhotoProg (Except Err MasterPhoto) := do
  match ← call .beginTx with
  | .error err => return .error err
  | .ok tx =>
  match ← call (.lockMaster tx masterID) with
  | .error err => giveUp tx err
  | .ok () =>
  match ← call (.countPhotos tx masterID) with
  | .error err => giveUp tx err
  | .ok cnt =>
  if maxMasterPhotos ≤ cnt then giveUp tx PhotoRepo.ErrPhotoLimitReached else
  match ← call (.maxSortOrder tx masterID) with
  | .error err => giveUp tx err
  | .ok maxSO =>
  match ← call (.insertPhoto tx masterID url (int32 (maxSO + 1)) (cnt == 0)) with
  | .error err => giveUp tx err
  | .ok (photo, tx) =>
  match ← call (.commit tx) with
  | .error err => giveUp tx err
  | .ok () => return .ok photo

/-- The end of `DeleteMasterPhoto`. -/
def finishDelete (url : String) (tx : PhotoTx) : PhotoProg (Except Err String) := do
  match ← call (.commit tx) with
  | .error err => giveUp tx err
  | .ok () => return .ok url

def deleteMasterPhoto (masterID photoID : String) : PhotoProg (Except Err String) := do
  match ← call .beginTx with
  | .error err => return .error err
  | .ok tx =>
  match ← call (.deletePhoto tx photoID masterID) with
  | .error err => giveUp tx (if err = PhotoRepo.ErrNoRows then PhotoRepo.ErrNotFound else err)
  | .ok ((url, wasCover), tx) =>
  if wasCover then
    match ← call (.nextPhoto tx masterID) with
    | .ok nextID =>
      match ← call (.coverPhoto tx nextID) with
      | .error err => giveUp tx err
      | .ok tx => finishDelete url tx
    | .error err => if err = PhotoRepo.ErrNoRows then finishDelete url tx else giveUp tx err
  else finishDelete url tx

end MasterRepo

/-! ## The system -/

inductive PhotoCall where
  | addMasterPhoto (masterID url : String)
  | deleteMasterPhoto (masterID photoID : String)
  | setMasterCoverPhoto (masterID photoID : String)
deriving DecidableEq

inductive PhotoAnswer where
  | added (res : Except Err MasterPhoto)
  | deleted (res : Except Err String)
  | covered (res : Except Err Unit)

def PhotoCall.prog : PhotoCall → PhotoProg PhotoAnswer
  | addMasterPhoto masterID url => return .added (← MasterRepo.addMasterPhoto masterID url)
  | deleteMasterPhoto masterID photoID => return .deleted (← MasterRepo.deleteMasterPhoto masterID photoID)
  | setMasterCoverPhoto masterID photoID => return .covered (← PhotoOp.call (.setMasterCoverPhoto masterID photoID))

/-- A connection is lost. -/
def PhotoWorld.Loses (w w' : PhotoWorld) : Prop := ∃ tx, w' = { w with locks := w.locks.close tx }

def photoSys : Sys PhotoWorld PhotoCall PhotoOp PhotoOp.Res PhotoAnswer where
  prog := PhotoCall.prog
  ready _ _ := True
  exec := PhotoOp.Exec
  env := PhotoWorld.Loses

abbrev PhotoMoment := Moment PhotoWorld PhotoCall PhotoOp PhotoOp.Res PhotoAnswer

abbrev PhotoConfig := Config PhotoWorld PhotoCall PhotoOp PhotoOp.Res PhotoAnswer

end Agregator
