import Agregator.ConcProg
import Agregator.GoBase
import Mathlib.Logic.Function.Basic
/-!
# Migrations — the migrators, and the database they bring up to date

`dbmigrate.Up` as the Helm job runs it (`pkg/dbmigrate`, `services/migrator`) and as every replica of the CRM service does when it
starts (`crm-service/internal/dbmigrate`): the second takes an advisory lock and records a file in the transaction that runs it.
What the text of a file does to a schema is a parameter.
-/
namespace Agregator

open Conc

/-! ## The files -/

structure DirEntry where
  name  : String
  isDir : Bool
  body  : String
deriving DecidableEq

/-- A directory of an image: its path as `%q` writes it, and what is in it. -/
structure MigrationDir where
  quoted  : String
  entries : List DirEntry
deriving DecidableEq

def hasSuffix (s suffix : String) : Bool := suffix.toList.isSuffixOf s.toList

/-- `migrationSeq`: the number a file's name begins with; a file without one comes last. -/
def migrationSeq (filename : String) : ℤ :=
  let head := filename.toList.takeWhile (· != '_')
  if head.length = filename.toList.length ∨ head = [] then 1073741824
  else (atoi (String.ofList head)).getD 1073741824

/-- The names of the files that bring a schema up. -/
def upFiles (entries : List DirEntry) : List String :=
  (entries.filter fun e => !e.isDir && hasSuffix e.name ".up.sql").map (·.name)

/-- `os.ReadFile` of a file there is. -/
def MigrationDir.body (dir : MigrationDir) (name : String) : Option String :=
  (dir.entries.find? (·.name == name)).map (·.body)

/-! ## The database -/

/-- A connection: whether it holds the migration lock, and what its open transaction sees. -/
structure MigrateSession (σ : Type) where
  locked : Bool := false
  tx     : Option (σ × List String) := none

/-- `versions` are the rows of `schema_migrations` in the order they came, `others` the tables of other services, and the
sessions below `opened` have been opened. -/
structure MigrateDB (σ : Type) where
  schema   : σ
  versions : List String
  others   : List String
  opened   : ℕ
  sessions : ℕ → Option (MigrateSession σ)

variable {σ : Type}

/-- A database that nothing has been migrated in. -/
def MigrateDB.fresh (schema₀ : σ) (others : List String) : MigrateDB σ := ⟨schema₀, [], others, 0, fun _ => none⟩

/-- What the text of a file does to a schema. -/
abbrev RunSql (σ : Type) := String → σ → Except String σ

/-- What a statement of session `s` sees. -/
def MigrateSession.view (x : MigrateSession σ) (w : MigrateDB σ) : σ × List String := x.tx.getD (w.schema, w.versions)

def MigrateDB.setSession (w : MigrateDB σ) (s : ℕ) (x : Option (MigrateSession σ)) : MigrateDB σ :=
  { w with sessions := Function.update w.sessions s x }

/-- A statement writes into its transaction, or at once. -/
def MigrateSession.write (x : MigrateSession σ) (s : ℕ) (new : σ × List String) (w : MigrateDB σ) : MigrateDB σ :=
  match x.tx with
  | some _ => w.setSession s (some { x with tx := some new })
  | none => { w with schema := new.1, versions := new.2 }

inductive MigrateOp where
  | stat (dir : MigrationDir)
  | connect
  | createTable (s : ℕ)
  | tableExists (s : ℕ) (table : String)
  | sleep
  | lock (s : ℕ)
  | unlock (s : ℕ)
  | readDir (dir : MigrationDir)
  | sort (names : List String)
  | isApplied (s : ℕ) (name : String)
  | readFile (dir : MigrationDir) (name : String)
  | begin (s : ℕ)
  | exec (s : ℕ) (sql : String)
  | record (s : ℕ) (name : String)
  | commit (s : ℕ)
  | rollback (s : ℕ)
  | close (s : ℕ)
deriving DecidableEq

namespace MigrateOp

@[reducible] def Res : MigrateOp → Type
  | .stat _ | .tableExists _ _ | .isApplied _ _ => Except String Bool
  | .connect => Except String ℕ
  | .readDir _ => Except String (List DirEntry)
  | .readFile _ _ => Except String String
  | .sort _ => List String
  | .sleep => Bool
  | .close _ => Unit
  | .createTable _ | .lock _ | .unlock _ | .begin _ | .exec _ _ | .record _ _ | .commit _ | .rollback _ => Except String Unit

/-- The session whose statement it is. -/
def session : MigrateOp → Option ℕ
  | .createTable s | .tableExists s _ | .lock s | .unlock s | .isApplied s _ | .begin s | .exec s _ | .record s _ | .commit s
  | .rollback s | .close s => some s
  | _ => none

end MigrateOp

section Statements

variable (sql : RunSql σ) (s : ℕ) (x : MigrateSession σ) (w : MigrateDB σ)

/-- Each file is recorded once: `version` is the primary key. -/
def recordName (name : String) : Except String Unit × MigrateDB σ :=
  if name ∈ (x.view w).2 then (.error "duplicate key value violates unique constraint", w)
  else (.ok (), x.write s ((x.view w).1, (x.view w).2 ++ [name]) w)

def execSql (body : String) : Except String Unit × MigrateDB σ :=
  match sql body (x.view w).1 with
  | .error e => (.error e, w)
  | .ok schema => (.ok (), x.write s (schema, (x.view w).2) w)

def commitTx : Except String Unit × MigrateDB σ :=
  match x.tx with
  | none => (.error "there is no transaction in progress", w)
  | some (schema, versions) => (.ok (), { w.setSession s (some { x with tx := none }) with schema := schema, versions := versions })

end Statements

/-- A statement of a session: without the session it fails, else it may fail before or after it has been carried out. -/
def MigrateDB.Statement {α : Type} (s : ℕ) (run : MigrateSession σ → MigrateDB σ → Except String α × MigrateDB σ) (w : MigrateDB σ)
    (r : Except String α) (w' : MigrateDB σ) : Prop :=
  (w.sessions s = none ∧ (∃ e, r = .error e) ∧ w' = w) ∨
    ∃ x, w.sessions s = some x ∧ ∃ f : Fault String, f.apply id (run x) w = (r, w')

/-- Nobody else holds the migration lock. -/
def MigrateDB.LockFree (w : MigrateDB σ) (s : ℕ) : Prop :=
  ∀ s' < w.opened, s' ≠ s → ∀ x ∈ w.sessions s', x.locked = false

instance (w : MigrateDB σ) (s : ℕ) : Decidable (w.LockFree s) :=
  inferInstanceAs (Decidable (∀ s' < w.opened, s' ≠ s → ∀ x ∈ w.sessions s', x.locked = false))

namespace MigrateDB

variable {w w' : MigrateDB σ} {s s' : ℕ} {x : Option (MigrateSession σ)}

@[simp] theorem setSession_self : (w.setSession s x).sessions s = x := Function.update_self _ _ _

theorem setSession_other (h : s' ≠ s) : (w.setSession s x).sessions s' = w.sessions s' := Function.update_of_ne h _ _

/-- A statement does nothing and fails, or is carried out on its session, whether or not that is told. -/
theorem Statement.cases {α : Type} {run : MigrateSession σ → MigrateDB σ → Except String α × MigrateDB σ} {r : Except String α}
    (h : w.Statement s run r w') (hrun : ∀ x e, (run x w).1 = .error e → (run x w).2 = w) :
    (w' = w ∧ ∃ e, r = .error e) ∨
      ∃ x a, w.sessions s = some x ∧ run x w = (.ok a, w') ∧ (r = .ok a ∨ ∃ e, r = .error e) := by
  obtain ⟨-, he, rfl⟩ | ⟨x, hx, f, hf⟩ := h
  · exact .inl ⟨rfl, he⟩
  have hstate : ∀ r', (r' = (run x w).1 ∨ ∃ e, r' = .error e) → r = r' → w' = (run x w).2 → (w' = w ∧ ∃ e, r = .error e) ∨
      ∃ x a, w.sessions s = some x ∧ run x w = (.ok a, w') ∧ (r = .ok a ∨ ∃ e, r = .error e) := by
    rintro r' hr' rfl rfl
    cases hres : (run x w).1 with
    | error e =>
      refine .inl ⟨hrun x e hres, ?_⟩
      rcases hr' with hr' | he
      · exact ⟨e, hr'.trans hres⟩
      · exact he
    | ok a =>
      refine .inr ⟨x, a, hx, by rw [← hres], ?_⟩
      rcases hr' with hr' | he
      · exact .inl (hr'.trans hres)
      · exact .inr he
  cases f with
  | none => exact hstate _ (.inl rfl) (Prod.mk.inj hf).1.symm (Prod.mk.inj hf).2.symm
  | before d => exact .inl ⟨(Prod.mk.inj hf).2.symm, d, (Prod.mk.inj hf).1.symm⟩
  | after d => exact hstate _ (.inr ⟨d, rfl⟩) (Prod.mk.inj hf).1.symm (Prod.mk.inj hf).2.symm

/-- A statement that only looks. -/
theorem Statement.look {α : Type} {r : Except String α} (look : MigrateSession σ → MigrateDB σ → α)
    (he : w.Statement s (fun x w => (.ok (look x w), w)) r w') :
    w' = w ∧ ((∃ e, r = .error e) ∨ ∃ x, w.sessions s = some x ∧ r = .ok (look x w)) := by
  obtain ⟨rfl, herr⟩ | ⟨x, a, hx, hrun, hr⟩ := he.cases fun _ _ he => by cases he
  · exact ⟨rfl, .inl herr⟩
  · obtain ⟨ha, rfl⟩ := Prod.mk.inj hrun
    obtain rfl := Except.ok.inj ha
    refine ⟨rfl, hr.symm.imp id fun hr => ⟨x, hx, hr⟩⟩

/-- A statement that changes its session and nothing else, and never fails by itself. -/
theorem Statement.session {next : MigrateSession σ → MigrateDB σ → MigrateSession σ} {r : Except String Unit}
    (he : w.Statement s (fun x w => (.ok (), w.setSession s (some (next x w)))) r w') :
    (w' = w ∧ ∃ e, r = .error e) ∨
      ∃ x, w.sessions s = some x ∧ w' = w.setSession s (some (next x w)) ∧ (r = .ok () ∨ ∃ e, r = .error e) := by
  obtain hnone | ⟨x, a, hx, hrun, hr⟩ := he.cases fun _ _ he => by cases he
  · exact .inl hnone
  · exact .inr ⟨x, hx, (Prod.mk.inj hrun).2.symm, hr⟩

/-- A statement in a transaction writes there. -/
theorem write_tx {x : MigrateSession σ} {seen new : σ × List String} (htx : x.tx = some seen) :
    x.write s new w = w.setSession s (some { x with tx := some new }) := by
  rw [MigrateSession.write, htx]

theorem execSql_error {body : String} (x : MigrateSession σ) (e : String) (he : (execSql sql s x w body).1 = .error e) :
    (execSql sql s x w body).2 = w := by
  unfold execSql at he ⊢
  cases hsql : sql body (x.view w).1 with
  | error e => rfl
  | ok schema =>
    rw [hsql] at he
    cases he

theorem recordName_error {name : String} (x : MigrateSession σ) (e : String) (he : (recordName s x w name).1 = .error e) :
    (recordName s x w name).2 = w := by
  unfold recordName at he ⊢
  by_cases hname : name ∈ (x.view w).2
  · rw [if_pos hname]
  · rw [if_neg hname] at he
    cases he

theorem commitTx_error (x : MigrateSession σ) (e : String) (he : (commitTx s x w).1 = .error e) : (commitTx s x w).2 = w := by
  unfold commitTx at he ⊢
  cases htx : x.tx with
  | none => rfl
  | some seen =>
    rw [htx] at he
    cases he

end MigrateDB

namespace MigrateOp

def Exec (sql : RunSql σ) : (o : MigrateOp) → MigrateDB σ → o.Res → MigrateDB σ → Prop
  | .stat _, w, _, w' => w' = w
  | .sleep, w, _, w' => w' = w
  | .connect, w, r, w' => ∃ f : Fault String, f.apply id
      (fun w => (.ok w.opened, { w.setSession w.opened (some {}) with opened := w.opened + 1 })) w = (r, w')
  | .createTable s, w, r, w' => w.Statement s (fun _ w => (.ok (), w)) r w'
  | .tableExists s table, w, r, w' => w.Statement s (fun _ w => (.ok (decide (table ∈ w.others)), w)) r w'
  -- `pg_advisory_lock` waits; a statement that gives up has taken nothing
  | .lock s, w, r, w' => w.Statement s (fun x w => (.ok (), w.setSession s (some { x with locked := true }))) r w' ∧
      (w' = w ∨ w.LockFree s)
  | .unlock s, w, r, w' => w.Statement s (fun x w => (.ok (), w.setSession s (some { x with locked := false }))) r w'
  | .readDir dir, w, r, w' => (r = .ok dir.entries ∨ ∃ e, r = .error e) ∧ w' = w
  -- `sort.Slice` is not stable
  | .sort names, w, r, w' => r.Perm names ∧ r.Pairwise (fun a b => migrationSeq a ≤ migrationSeq b) ∧ w' = w
  | .isApplied s name, w, r, w' => w.Statement s (fun x w => (.ok (decide (name ∈ (x.view w).2)), w)) r w'
  | .readFile dir name, w, r, w' => ((∃ b, dir.body name = some b ∧ r = .ok b) ∨ ∃ e, r = .error e) ∧ w' = w
  | .begin s, w, r, w' => w.Statement s (fun x w => (.ok (), w.setSession s (some { x with tx := some (w.schema, w.versions) }))) r w'
  | .exec s body, w, r, w' => w.Statement s (fun x w => execSql sql s x w body) r w'
  | .record s name, w, r, w' => w.Statement s (fun x w => recordName s x w name) r w'
  | .commit s, w, r, w' => w.Statement s (fun x w => commitTx s x w) r w'
  | .rollback s, w, r, w' => w.Statement s (fun x w => (.ok (), w.setSession s (some { x with tx := none }))) r w'
  | .close s, w, _, w' => w' = w.setSession s none

end MigrateOp

/-- An operation that can be computed: no other session is in the way of a lock, and files keep the order they are listed in. -/
def MigrateOp.turn (sql : RunSql σ) (f : Fault String) : (o : MigrateOp) → MigrateDB σ → Option (o.Res × MigrateDB σ)
  | .stat _, w => some (.ok true, w)
  | .sleep, w => some (true, w)
  | .connect, w => some (f.apply id
      (fun w => (.ok w.opened, { w.setSession w.opened (some {}) with opened := w.opened + 1 })) w)
  | .createTable s, w => (w.sessions s).map fun _ => f.apply id (fun w => (.ok (), w)) w
  | .tableExists s table, w => (w.sessions s).map fun _ => f.apply id (fun w => (.ok (decide (table ∈ w.others)), w)) w
  | .lock s, w => if w.LockFree s then
      (w.sessions s).map fun x => f.apply id (fun w => (.ok (), w.setSession s (some { x with locked := true }))) w else none
  | .unlock s, w => (w.sessions s).map fun x => f.apply id (fun w => (.ok (), w.setSession s (some { x with locked := false }))) w
  | .readDir dir, w => some (.ok dir.entries, w)
  | .sort names, w => if names.Pairwise (fun a b => migrationSeq a ≤ migrationSeq b) then some (names, w) else none
  | .isApplied s name, w => (w.sessions s).map fun x => f.apply id (fun w => (.ok (decide (name ∈ (x.view w).2)), w)) w
  | .readFile dir name, w => (dir.body name).map fun body => (.ok body, w)
  | .begin s, w => (w.sessions s).map fun x =>
      f.apply id (fun w => (.ok (), w.setSession s (some { x with tx := some (w.schema, w.versions) }))) w
  | .exec s body, w => (w.sessions s).map fun x => f.apply id (fun w => execSql sql s x w body) w
  | .record s name, w => (w.sessions s).map fun x => f.apply id (fun w => recordName s x w name) w
  | .commit s, w => (w.sessions s).map fun x => f.apply id (fun w => commitTx s x w) w
  | .rollback s, w => (w.sessions s).map fun x => f.apply id (fun w => (.ok (), w.setSession s (some { x with tx := none }))) w
  | .close s, w => some ((), w.setSession s none)

theorem MigrateOp.exec_of_turn {sql : RunSql σ} (f : Fault String) (o : MigrateOp) (w : MigrateDB σ) (r : o.Res) (w' : MigrateDB σ)
    (h : o.turn sql f w = some (r, w')) : MigrateOp.Exec sql o w r w' := by
  have hstatement : ∀ {α : Type} {s : ℕ} {run : MigrateSession σ → MigrateDB σ → Except String α × MigrateDB σ} {r : Except String α},
      ((w.sessions s).map fun x => f.apply id (run x) w) = some (r, w') → w.Statement s run r w' := by
    intro α s run r h
    obtain ⟨x, hx, hf⟩ := Option.map_eq_some_iff.1 h
    exact .inr ⟨x, hx, f, hf⟩
  cases o with
  | stat | sleep => exact (Prod.mk.inj (Option.some.inj h)).2.symm
  | connect => exact ⟨f, Option.some.inj h⟩
  | createTable | tableExists | unlock | isApplied | begin | exec | record | commit | rollback => exact hstatement h
  | lock s =>
    simp only [turn] at h
    by_cases hfree : w.LockFree s
    · rw [if_pos hfree] at h
      exact ⟨hstatement h, .inr hfree⟩
    · rw [if_neg hfree] at h
      cases h
  | readDir dir =>
    obtain ⟨rfl, rfl⟩ := Prod.mk.inj (Option.some.inj h)
    exact ⟨.inl rfl, rfl⟩
  | sort names =>
    simp only [turn] at h
    by_cases hsorted : names.Pairwise fun a b => migrationSeq a ≤ migrationSeq b
    · rw [if_pos hsorted] at h
      obtain ⟨rfl, rfl⟩ := Prod.mk.inj (Option.some.inj h)
      exact ⟨.rfl, hsorted, rfl⟩
    · rw [if_neg hsorted] at h
      cases h
  | readFile dir name =>
    obtain ⟨body, hbody, hr⟩ := Option.map_eq_some_iff.1 h
    obtain ⟨rfl, rfl⟩ := Prod.mk.inj hr
    exact ⟨.inl ⟨body, hbody, rfl⟩, rfl⟩
  | close s => exact (Prod.mk.inj (Option.some.inj h)).2.symm

/-- Other services make and drop tables of their own, and a connection is lost: its transaction and its lock with it. -/
def MigrateDB.Moves (w w' : MigrateDB σ) : Prop :=
  (∃ others, w' = { w with others := others }) ∨ ∃ s, w' = w.setSession s none

/-! ## The migrators -/

abbrev MigrateProg (α : Type) := Prog MigrateOp MigrateOp.Res α

@[reducible] def MigrateOp.call (o : MigrateOp) : MigrateProg o.Res := Prog.perform o

open MigrateOp (call)

/-- The loop over the files of a directory; `apply` runs one and records it. -/
def applyAll (apply : String → String → MigrateProg (Except String Unit)) (s : ℕ) (dir : MigrationDir) :
    List String → MigrateProg (Except String Unit)
  | [] => .ret (.ok ())
  | name :: rest => do
    match ← call (.isApplied s name) with
    | .error e => return .error ("check migration " ++ name ++ ": " ++ e)
    | .ok true => applyAll apply s dir rest
    | .ok false =>
      match ← call (.readFile dir name) with
      | .error e => return .error ("read migration " ++ name ++ ": " ++ e)
      | .ok body =>
        if trimSpace body = "" then applyAll apply s dir rest
        else
          match ← apply name (trimSpace body) with
          | .error e => return .error e
          | .ok _ => applyAll apply s dir rest

/-- Reading the directory, and its files in the order of their numbers. -/
def readAndApply (apply : String → String → MigrateProg (Except String Unit)) (s : ℕ) (dir : MigrationDir) :
    MigrateProg (Except String Unit) := do
  match ← call (.readDir dir) with
  | .error e => return .error ("read migrations dir: " ++ e)
  | .ok entries =>
    let files ← call (.sort (upFiles entries))
    applyAll apply s dir files

/-- What both `Up`s begin and end with: the directory is there, and a connection is open for `run` and the table of versions. -/
def withConnection (dir : MigrationDir) (run : ℕ → MigrateProg (Except String Unit)) : MigrateProg (Except String Unit) := do
  match ← call (.stat dir) with
  | .error e => return .error ("migrations dir " ++ dir.quoted ++ ": " ++ e)
  | .ok false => return .error ("migrations dir " ++ dir.quoted ++ ": %!w(<nil>)")
  | .ok true =>
    match ← call .connect with
    | .error e => return .error ("connect for migrate: " ++ e)
    | .ok s =>
      match ← call (.createTable s) with
      | .error e =>
        let _ ← call (.close s)
        return .error ("schema_migrations: " ++ e)
      | .ok _ =>
        let res ← run s
        let _ ← call (.close s)
        return res

/-! ### `pkg/dbmigrate` -/

namespace Dbmigrate

def apply (s : ℕ) (name sql : String) : MigrateProg (Except String Unit) := do
  match ← call (.exec s sql) with
  | .error e => return .error ("apply migration " ++ name ++ ": " ++ e)
  | .ok _ =>
    match ← call (.record s name) with
    | .error e => return .error ("record migration " ++ name ++ ": " ++ e)
    | .ok _ => return .ok ()

def up (dir : MigrationDir) : MigrateProg (Except String Unit) :=
  withConnection dir fun s => readAndApply (apply s) s dir

/-- The part of the migrator's plan that is about one database: its directories one after the other, up to one that fails. -/
def migrate : List MigrationDir → MigrateProg (Except String Unit)
  | [] => .ret (.ok ())
  | dir :: dirs => do
    match ← up dir with
    | .error e => return .error e
    | .ok _ => migrate dirs

end Dbmigrate

/-! ### `crm-service/internal/dbmigrate` -/

namespace CrmMigrate

/-- The tables of the venue service that must be there first. -/
def dependencyTables : List String := ["venues"]

/-- One look for a table; `again` is what happens when it is not there. -/
def pollTable (s : ℕ) (table : String) (polls : ℕ) (again : MigrateProg (Except String ℕ)) : MigrateProg (Except String ℕ) := do
  match ← call (.tableExists s table) with
  | .error e => return .error ("check dependency table \"" ++ table ++ "\": " ++ e)
  | .ok true => return .ok polls
  | .ok false => again

/-- The wait for one table; `polls` more looks fit in before the deadline, and the answer is how many are left. -/
def waitForTable (s : ℕ) (table : String) : ℕ → MigrateProg (Except String ℕ)
  | 0 => pollTable s table 0 (.ret (.error ("dependency table \"" ++ table ++
      "\" not present after 1m0s: ensure venue-service migrates venue_db first")))
  | polls + 1 => pollTable s table (polls + 1) do
      if ← call .sleep then waitForTable s table polls else return .error "context canceled"

def waitForTables (s : ℕ) : List String → ℕ → MigrateProg (Except String Unit)
  | [], _ => .ret (.ok ())
  | table :: tables, polls => do
    match ← waitForTable s table polls with
    | .error e => return .error e
    | .ok polls => waitForTables s tables polls

/-- A file and its record in one transaction. -/
def apply (s : ℕ) (name sql : String) : MigrateProg (Except String Unit) := do
  match ← call (.begin s) with
  | .error e => return .error ("begin migration " ++ name ++ ": " ++ e)
  | .ok _ =>
    match ← call (.exec s sql) with
    | .error e =>
      let _ ← call (.rollback s)
      return .error ("apply migration " ++ name ++ ": " ++ e)
    | .ok _ =>
      match ← call (.record s name) with
      | .error e =>
        let _ ← call (.rollback s)
        return .error ("record migration " ++ name ++ ": " ++ e)
      | .ok _ =>
        match ← call (.commit s) with
        | .error e => return .error ("commit migration " ++ name ++ ": " ++ e)
        | .ok _ => return .ok ()

def up (dir : MigrationDir) (polls : ℕ) : MigrateProg (Except String Unit) :=
  withConnection dir fun s => do
    match ← waitForTables s dependencyTables polls with
    | .error e => return .error e
    | .ok _ =>
      match ← call (.lock s) with
      | .error e => return .error ("acquire migration lock: " ++ e)
      | .ok _ =>
        let res ← readAndApply (apply s) s dir
        let _ ← call (.unlock s)
        return res

end CrmMigrate

/-- The schema a list of files makes of another one, in their order. -/
def replay (sql : RunSql σ) (text : String → String) : List String → σ → Except String σ
  | [], schema => .ok schema
  | name :: names, schema =>
    match sql (text name) schema with
    | .error e => .error e
    | .ok schema => replay sql text names schema

theorem replay_append_one {sql : RunSql σ} {text : String → String} {name : String} {last new : σ}
    (hlast : sql (text name) last = .ok new) :
    ∀ {names : List String} {schema : σ}, replay sql text names schema = .ok last → replay sql text (names ++ [name]) schema = .ok new
  | [], schema, h => by
    obtain rfl := Except.ok.inj h
    simp only [List.nil_append, replay, hlast]
  | n :: names, schema, h => by
    simp only [List.cons_append, replay] at h ⊢
    cases hn : sql (text n) schema with
    | error e =>
      rw [hn] at h
      cases h
    | ok schema₁ =>
      rw [hn] at h
      exact replay_append_one hlast h

end Agregator
