import Agregator.ConcLift
import Agregator.ConcSql
import Agregator.Migrations
import Mathlib.Data.Set.Insert
import Mathlib.Logic.Relation
/-!
# MigrateJob — the job that migrates before a release

The Helm job runs one migrator at a time and tries again when it fails.  It records a file after running it and in another statement,
so an attempt that is cut off in between runs the file once more; the files are written for that.
-/
namespace Agregator

open Conc

variable {σ : Type}

namespace Dbmigrate

/-! ## What the files are for -/

/-- The schemas a set of files stands for.  Where what a file needs is in and nothing that needs it, its text adds the file if it runs
at all, also when it has been run already. -/
structure Stages (sql : RunSql σ) (text : String → String) where
  needs : String → String → Prop
  state : Set String → σ
  run : ∀ (A : Set String) (name : String), text name ≠ "" → (∀ b, needs name b → b ∈ A) → (∀ a ∈ A, ¬ needs a name) →
    ∀ schema, sql (text name) (state A) = .ok schema → schema = state (insert name A)

/-- The files of an image. -/
def filesOf (text : String → String) (dirs : List MigrationDir) : Set String :=
  {name | ∃ d ∈ dirs, name ∈ upFiles d.entries ∧ text name ≠ ""}

/-- What a file of an image needs has been applied when its turn comes: it is in an earlier directory, or has a smaller number. -/
def SelfContained {sql : RunSql σ} {text : String → String} (St : Stages sql text) (dirs : List MigrationDir) : Prop :=
  ∀ ds₁ d ds₂, dirs = ds₁ ++ d :: ds₂ → ∀ name ∈ upFiles d.entries, text name ≠ "" → ∀ b, St.needs name b →
    text b ≠ "" ∧ ((∃ d' ∈ ds₁, b ∈ upFiles d'.entries) ∨ (b ∈ upFiles d.entries ∧ migrationSeq b < migrationSeq name))

/-! ## Attempts -/

/-- An operation, after whatever others have done since the last one. -/
def Amid (sql : RunSql σ) (o : MigrateOp) (w : MigrateDB σ) (r : o.Res) (w' : MigrateDB σ) : Prop :=
  ∃ w₁, Relation.ReflTransGen MigrateDB.Moves w w₁ ∧ MigrateOp.Exec sql o w₁ r w'

/-- Attempts at images, one after the other; each may be cut off after any of its operations. -/
inductive Attempts (sql : RunSql σ) (images : List MigrationDir → Prop) (w₀ : MigrateDB σ) :
    List (List MigrationDir × Option (Except String Unit)) → MigrateDB σ → Prop where
  | start : Attempts sql images w₀ [] w₀
  | next {l : List (List MigrationDir × Option (Except String Unit))} {w w' : MigrateDB σ} {res : Option (Except String Unit)}
      (dirs : List MigrationDir) (n : ℕ) : Attempts sql images w₀ l w → images dirs →
      ((migrate dirs).cut n).Runs (Amid sql) w res w' → Attempts sql images w₀ (l ++ [(dirs, res)]) w'

section Stages

variable {sql : RunSql σ} {text : String → String} {St : Stages sql text} {seen A : Set String} {w w' : MigrateDB σ}

/-- The database between two statements of the job: the schema is that of some of the files, the recorded ones are among them, and
what any of them needs is recorded. -/
structure Steady (St : Stages sql text) (seen A : Set String) (w : MigrateDB σ) : Prop where
  seen : A ⊆ seen
  schema : w.schema = St.state A
  recorded : ∀ name ∈ w.versions, name ∈ A
  closed : ∀ a ∈ A, ∀ b, St.needs a b → b ∈ w.versions
  noTx : ∀ s x, w.sessions s = some x → x.tx = none

/-- What changes no file and no transaction. -/
theorem Steady.same (hw : Steady St seen A w) (hversions : w'.versions = w.versions) (hschema : w'.schema = w.schema)
    (htx : ∀ s x, w'.sessions s = some x → x.tx = none ∨ w.sessions s = some x) : Steady St seen A w' where
  seen := hw.seen
  schema := hschema.trans hw.schema
  recorded name hname := hw.recorded name (hversions ▸ hname)
  closed a ha b hb := by
    rw [hversions]
    exact hw.closed a ha b hb
  noTx s x hx := (htx s x hx).elim id (hw.noTx s x)

/-- A session that is dropped, or opened anew. -/
theorem Steady.setSession (hw : Steady St seen A w) {s : ℕ} {x : Option (MigrateSession σ)} (hx : ∀ y, x = some y → y.tx = none) :
    Steady St seen A (w.setSession s x) := by
  refine hw.same rfl rfl fun s' y hy => ?_
  by_cases hs : s' = s
  · rw [hs, MigrateDB.setSession_self] at hy
    exact .inl (hx y hy)
  · rw [MigrateDB.setSession_other hs] at hy
    exact .inr hy

theorem Steady.moved (hw : Steady St seen A w) (h : Relation.ReflTransGen MigrateDB.Moves w w') :
    Steady St seen A w' ∧ w'.versions = w.versions := by
  induction h with
  | refl => exact ⟨hw, rfl⟩
  | tail _ hm ih =>
    obtain ⟨others, rfl⟩ | ⟨s, rfl⟩ := hm
    · exact ⟨ih.1.same rfl rfl fun _ _ hx => .inr hx, ih.2⟩
    · exact ⟨ih.1.setSession (fun _ he => by cases he), ih.2⟩

/-! ## The operations -/

/-- Operations that neither run a file nor record one. -/
def Idle : MigrateOp → Prop
  | .stat _ | .connect | .createTable _ | .readDir _ | .sort _ | .isApplied _ _ | .readFile _ _ | .close _ => True
  | _ => False

theorem Steady.idle (hw : Steady St seen A w) {o : MigrateOp} {r : o.Res} (ho : Idle o) (he : Amid sql o w r w') :
    Steady St seen A w' ∧ w'.versions = w.versions := by
  obtain ⟨w₁, hm, he⟩ := he
  obtain ⟨hw₁, hv₁⟩ := hw.moved hm
  rw [← hv₁]
  cases o with
  | stat =>
    obtain rfl : w' = w₁ := he
    exact ⟨hw₁, rfl⟩
  | connect =>
    obtain ⟨f, hf⟩ := he
    have hstate := f.apply_state id (fun w : MigrateDB σ =>
      (.ok w.opened, { w.setSession w.opened (some {}) with opened := w.opened + 1 })) w₁
    rw [hf] at hstate
    obtain rfl | rfl := hstate
    · exact ⟨hw₁, rfl⟩
    · have hopen : Steady St seen A (w₁.setSession w₁.opened (some {})) :=
        hw₁.setSession fun y hy => by rw [← Option.some.inj hy]
      exact ⟨hopen.same rfl rfl fun _ _ hx => .inr hx, rfl⟩
  | createTable =>
    obtain ⟨rfl, -⟩ := MigrateDB.Statement.look (fun _ _ => ()) he
    exact ⟨hw₁, rfl⟩
  | readDir | readFile =>
    obtain ⟨-, rfl⟩ := he
    exact ⟨hw₁, rfl⟩
  | sort =>
    obtain ⟨-, -, rfl⟩ := he
    exact ⟨hw₁, rfl⟩
  | isApplied s name =>
    obtain ⟨rfl, -⟩ := MigrateDB.Statement.look (fun x w => decide (name ∈ (x.view w).2)) he
    exact ⟨hw₁, rfl⟩
  | close s =>
    obtain rfl : w' = w₁.setSession s none := he
    exact ⟨hw₁.setSession (fun _ he => by cases he), rfl⟩
  | tableExists | sleep | lock | unlock | begin | exec | record | commit | rollback => exact ho.elim

theorem Steady.view (hw : Steady St seen A w) {s : ℕ} {x : MigrateSession σ} (hx : w.sessions s = some x) :
    x.tx = none ∧ x.view w = (w.schema, w.versions) := by
  have htx := hw.noTx s x hx
  refine ⟨htx, ?_⟩
  rw [MigrateSession.view, htx]
  rfl

/-- What is told of a file is so. -/
theorem Steady.isApplied (hw : Steady St seen A w) {s : ℕ} {name : String} {b : Bool}
    (he : Amid sql (.isApplied s name) w (.ok b) w') :
    b = true ↔ name ∈ w'.versions := by
  obtain ⟨w₁, hm, he⟩ := he
  obtain ⟨hw₁, -⟩ := hw.moved hm
  obtain ⟨rfl, ⟨e, he⟩ | ⟨x, hx, hr⟩⟩ := MigrateDB.Statement.look (fun x w => decide (name ∈ (x.view w).2)) he
  · cases he
  · rw [Except.ok.inj hr, (hw₁.view hx).2]
    exact decide_eq_true_iff

/-- A file is run where what it needs is recorded and it is not. -/
theorem Steady.exec (hw : Steady St seen A w) {s : ℕ} {name : String} {r : Except String Unit} (htext : text name ≠ "")
    (hneeds : ∀ b, St.needs name b → b ∈ w.versions) (hnew : name ∉ w.versions) (hseen : name ∈ seen)
    (he : Amid sql (.exec s (text name)) w r w') :
    w'.versions = w.versions ∧ (Steady St seen A w' ∨ Steady St seen (insert name A) w') ∧
      (r = .ok () → Steady St seen (insert name A) w') := by
  obtain ⟨w₁, hm, he⟩ := he
  obtain ⟨hw₁, hv₁⟩ := hw.moved hm
  obtain ⟨rfl, e, rfl⟩ | ⟨x, a, hx, hrun, -⟩ := he.cases MigrateDB.execSql_error
  · exact ⟨hv₁, .inl hw₁, fun he => by cases he⟩
  obtain ⟨htx, hview⟩ := hw₁.view hx
  simp only [execSql, hview, MigrateSession.write, htx] at hrun
  cases hsql : sql (text name) w₁.schema with
  | error e =>
    rw [hsql] at hrun
    cases (Prod.mk.inj hrun).1
  | ok schema =>
    rw [hsql] at hrun
    obtain ⟨-, rfl⟩ := Prod.mk.inj hrun
    rw [hw₁.schema] at hsql
    have hafter : Steady St seen (insert name A) { w₁ with schema := schema, versions := w₁.versions } := by
      refine ⟨Set.insert_subset hseen hw₁.seen, ?_, fun n hn => .inr (hw₁.recorded n hn), ?_, hw₁.noTx⟩
      · refine St.run A name htext (fun b hb => hw.recorded b (hneeds b hb)) (fun a ha hb => hnew ?_) schema hsql
        exact hw.closed a ha name hb
      · rintro a (rfl | ha) b hb
        · exact hv₁ ▸ hneeds b hb
        · exact hw₁.closed a ha b hb
    exact ⟨hv₁, .inr hafter, fun _ => hafter⟩

theorem Steady.record (hw : Steady St seen A w) {s : ℕ} {name : String} {r : Except String Unit} (hname : name ∈ A)
    (he : Amid sql (.record s name) w r w') :
    Steady St seen A w' ∧ (∀ n ∈ w.versions, n ∈ w'.versions) ∧ (r = .ok () → name ∈ w'.versions) := by
  obtain ⟨w₁, hm, he⟩ := he
  obtain ⟨hw₁, hv₁⟩ := hw.moved hm
  obtain ⟨rfl, e, rfl⟩ | ⟨x, a, hx, hrun, -⟩ := he.cases MigrateDB.recordName_error
  · exact ⟨hw₁, fun n hn => hv₁ ▸ hn, fun he => by cases he⟩
  obtain ⟨htx, hview⟩ := hw₁.view hx
  simp only [recordName, hview, MigrateSession.write, htx] at hrun
  by_cases hin : name ∈ w₁.versions
  · rw [if_pos hin] at hrun
    cases (Prod.mk.inj hrun).1
  · rw [if_neg hin] at hrun
    obtain ⟨-, rfl⟩ := Prod.mk.inj hrun
    have hold : ∀ n ∈ w₁.versions, n ∈ w₁.versions ++ [name] := fun n hn => List.mem_append_left _ hn
    refine ⟨⟨hw₁.seen, hw₁.schema, fun n hn => ?_, fun a ha b hb => hold b (hw₁.closed a ha b hb), hw₁.noTx⟩,
      fun n hn => hold n (hv₁ ▸ hn),
      fun _ => List.mem_append_right _ List.mem_cons_self⟩
    rcases List.mem_append.1 hn with hn | hn
    · exact hw₁.recorded n hn
    · rwa [List.mem_singleton.1 hn]

/-! ## The programs -/

/-- The database in the course of a run before which `old` were recorded. -/
def Fine (St : Stages sql text) (seen : Set String) (old : List String) (w : MigrateDB σ) : Prop :=
  (∃ A, Steady St seen A w) ∧ ∀ name ∈ old, name ∈ w.versions

def Ended (St : Stages sql text) (seen : Set String) (old : List String) (Q : MigrateDB σ → Prop) (res : Except String Unit)
    (w : MigrateDB σ) : Prop :=
  Fine St seen old w ∧ (res = .ok () → Q w)

section Programs

variable {old : List String}

theorem Ended.error {Q : MigrateDB σ → Prop} (hw : Fine St seen old w) (e : String) : Ended St seen old Q (.error e) w :=
  ⟨hw, fun he => by cases he⟩

theorem Fine.mono {old' : List String} (hw : Fine St seen old w) (h : ∀ name ∈ old', name ∈ old) : Fine St seen old' w :=
  ⟨hw.1, fun name hname => hw.2 name (h name hname)⟩

/-- A file that is recorded, or has nothing to run. -/
def Behind (text : String → String) (w : MigrateDB σ) (name : String) : Prop := text name = "" ∨ name ∈ w.versions

theorem Behind.mono {name : String} (h : Behind text w name) (hold : ∀ name ∈ w.versions, name ∈ w'.versions) : Behind text w' name :=
  h.imp_right (hold name)

/-- What an operation keeps that neither runs a file nor records one. -/
theorem Fine.idle (hw : Steady St seen A w) (hold : ∀ name ∈ old, name ∈ w.versions) {o : MigrateOp} {r : o.Res} (ho : Idle o)
    (he : Amid sql o w r w') :
    Fine St seen old w' ∧ Steady St seen A w' ∧ (∀ name ∈ w.versions, name ∈ w'.versions) ∧ ∀ name ∈ old, name ∈ w'.versions := by
  obtain ⟨hw', hv⟩ := hw.idle ho he
  rw [← hv] at hold
  refine ⟨⟨⟨A, hw'⟩, hold⟩, hw', fun name hname => ?_, hold⟩
  rwa [hv]

theorem apply_keeps (hw : Steady St seen A w) (hold : ∀ name ∈ old, name ∈ w.versions) {s : ℕ} {name : String}
    (htext : text name ≠ "") (hneeds : ∀ b, St.needs name b → b ∈ w.versions) (hnew : name ∉ w.versions) (hseen : name ∈ seen) :
    (apply s name (text name)).Keeps (Amid sql) (Fine St seen old) (Ended St seen old fun w => name ∈ w.versions) w := by
  simp only [apply, Prog.bind_eq, MigrateOp.call, Prog.perform_bind, Prog.pure_eq]
  intro r w₁ he₁
  obtain ⟨hv₁, hw₁, happlied⟩ := hw.exec htext hneeds hnew hseen he₁
  rw [← hv₁] at hold
  have hfine : Fine St seen old w₁ := ⟨hw₁.elim (fun h => ⟨_, h⟩) fun h => ⟨_, h⟩, hold⟩
  refine ⟨hfine, ?_⟩
  cases r with
  | error e => exact .error hfine _
  | ok u =>
    intro r w₂ he₂
    obtain ⟨hw₂, hmono, hrecorded⟩ := (happlied rfl).record (Set.mem_insert name A) he₂
    have hfine₂ : Fine St seen old w₂ := ⟨⟨_, hw₂⟩, fun n hn => hmono n (hold n hn)⟩
    refine ⟨hfine₂, ?_⟩
    cases r with
    | error e => exact .error hfine₂ _
    | ok u => exact ⟨hfine₂, fun _ => hrecorded rfl⟩

/-- **The loop over the files**, each of which finds what it needs recorded. -/
theorem applyAll_keeps {dir : MigrationDir} (hbody : ∀ name body, dir.body name = some body → trimSpace body = text name) (s : ℕ) :
    ∀ (names : List String) {old : List String} {w : MigrateDB σ} {A : Set String}, Steady St seen A w →
      (∀ name ∈ old, name ∈ w.versions) → (∀ name ∈ names, text name ≠ "" → name ∈ seen) →
      (∀ l₁ name l₂, names = l₁ ++ name :: l₂ → text name ≠ "" → ∀ b, St.needs name b → text b ≠ "" ∧ (b ∈ l₁ ∨ Behind text w b)) →
      (applyAll (apply s) s dir names).Keeps (Amid sql) (Fine St seen old)
        (Ended St seen old fun w => ∀ name ∈ names, Behind text w name) w
  | [], old, w, A, hw, hold, _, _ => ⟨⟨⟨A, hw⟩, hold⟩, fun _ _ hn => absurd hn List.not_mem_nil⟩
  | name :: rest, old, w, A, hw, hold, hseen, hneeds => by
    -- what is left to do once this file is behind
    have hrest : ∀ {w' : MigrateDB σ} {A' : Set String}, Steady St seen A' w' → (∀ n ∈ w.versions, n ∈ w'.versions) →
      Behind text w' name →
        (applyAll (apply s) s dir rest).Keeps (Amid sql) (Fine St seen old)
          (Ended St seen old fun w => ∀ n ∈ name :: rest, Behind text w n) w' := by
      intro w' A' hw' hmono hname
      have hold' : ∀ n ∈ old, n ∈ w'.versions := fun n hn => hmono n (hold n hn)
      have hkeeps := applyAll_keeps hbody s rest hw' (fun _ hn => hn) (fun n hn => hseen n (List.mem_cons_of_mem _ hn))
        (fun l₁ n l₂ hsplit htext b hb => ?_)
      · refine hkeeps.mono (fun _ h => h.mono hold') fun res w'' hended => ⟨hended.1.mono hold', fun hok n hn => ?_⟩
        rcases List.mem_cons.1 hn with rfl | hn
        · exact hname.mono hended.1.2
        · exact hended.2 hok n hn
      · obtain ⟨htext', hb⟩ := hneeds (name :: l₁) n l₂ (by rw [hsplit]; rfl) htext b hb
        refine ⟨htext', ?_⟩
        rcases hb with hb | hb
        · rcases List.mem_cons.1 hb with rfl | hb
          · exact .inr hname
          · exact .inl hb
        · exact .inr (hb.mono hmono)
    simp only [applyAll, Prog.bind_eq, MigrateOp.call, Prog.perform_bind, Prog.pure_eq]
    intro r w₁ he₁
    obtain ⟨hfine₁, hw₁, hmono₁, hold₁⟩ := Fine.idle hw hold (by trivial) he₁
    refine ⟨hfine₁, ?_⟩
    cases r with
    | error e => exact .error hfine₁ _
    | ok b =>
      have hin := hw.isApplied he₁
      cases b with
      | true => exact hrest hw₁ hmono₁ (.inr (hin.1 rfl))
      | false =>
        intro r w₂ he₂
        obtain ⟨hw₂, hv₂⟩ := hw₁.idle (by trivial) he₂
        have hmono₂ : ∀ n ∈ w.versions, n ∈ w₂.versions := fun n hn => hv₂ ▸ hmono₁ n hn
        have hfine₂ : Fine St seen old w₂ := ⟨⟨A, hw₂⟩, fun n hn => hmono₂ n (hold n hn)⟩
        refine ⟨hfine₂, ?_⟩
        cases r with
        | error e => exact .error hfine₂ _
        | ok body =>
          have htext : trimSpace body = text name := by
            obtain ⟨w₃, -, ⟨b, hb, hr⟩ | ⟨e, he⟩, -⟩ := he₂
            · rw [Except.ok.inj hr]
              exact hbody name b hb
            · cases he
          dsimp only
          rw [htext]
          by_cases hblank : text name = ""
          · rw [if_pos hblank]
            exact hrest hw₂ hmono₂ (.inl hblank)
          · rw [if_neg hblank]
            have hnew : name ∉ w₂.versions := by
              rw [hv₂]
              exact fun hn => Bool.false_ne_true (hin.2 hn)
            have hready : ∀ b, St.needs name b → b ∈ w₂.versions := by
              intro b hb
              obtain ⟨htext', hb⟩ := hneeds [] name rest rfl hblank b hb
              rcases hb with hb | hb
              · cases hb
              · exact (hb.mono hmono₂).resolve_left htext'
            have hold' : ∀ n ∈ old, n ∈ w.versions := hold
            refine Prog.Keeps.bind ((apply_keeps hw₂ hmono₂ hblank hready hnew (hseen name List.mem_cons_self hblank)).mono
              (fun _ h => h.mono hold') fun res w₃ hended => ?_)
            obtain ⟨⟨⟨A₃, hw₃⟩, hmono₃⟩, hdone⟩ := hended
            cases res with
            | error e => exact .error ⟨⟨A₃, hw₃⟩, fun n hn => hmono₃ n (hold n hn)⟩ _
            | ok u => exact hrest hw₃ hmono₃ (.inr (hdone rfl))

/-- A directory is brought up where all its files need is behind, or in it under a smaller number. -/
theorem readAndApply_keeps {dir : MigrationDir} (hbody : ∀ name body, dir.body name = some body → trimSpace body = text name) (s : ℕ)
    (hw : Steady St seen A w) (hold : ∀ name ∈ old, name ∈ w.versions)
    (hseen : ∀ name ∈ upFiles dir.entries, text name ≠ "" → name ∈ seen)
    (hneeds : ∀ name ∈ upFiles dir.entries, text name ≠ "" → ∀ b, St.needs name b →
      text b ≠ "" ∧ (Behind text w b ∨ (b ∈ upFiles dir.entries ∧ migrationSeq b < migrationSeq name))) :
    (readAndApply (apply s) s dir).Keeps (Amid sql) (Fine St seen old)
      (Ended St seen old fun w => ∀ name ∈ upFiles dir.entries, Behind text w name) w := by
  simp only [readAndApply, Prog.bind_eq, MigrateOp.call, Prog.perform_bind, Prog.pure_eq]
  intro r w₁ he₁
  obtain ⟨hfine₁, hw₁, hmono₁, hold₁⟩ := Fine.idle hw hold (by trivial) he₁
  refine ⟨hfine₁, ?_⟩
  cases r with
  | error e => exact .error hfine₁ _
  | ok entries =>
    have hentries : entries = dir.entries := by
      obtain ⟨w₃, -, hr | ⟨e, he⟩, -⟩ := he₁
      · exact Except.ok.inj hr
      · cases he
    subst hentries
    intro files w₂ he₂
    obtain ⟨hfine₂, hw₂, hmono₂, hold₂⟩ := Fine.idle hw₁ hold₁ (by trivial) he₂
    obtain ⟨w₃, -, hperm, hsorted, -⟩ := he₂
    refine ⟨hfine₂, ?_⟩
    refine (applyAll_keeps hbody s files hw₂ hold₂ (fun n hn => hseen n (hperm.subset hn)) ?_).mono (fun _ h => h)
      fun res w' hended => ⟨hended.1, fun hok n hn => hended.2 hok n (hperm.symm.subset hn)⟩
    rintro l₁ name l₂ rfl htext b hb
    obtain ⟨htext', hb⟩ := hneeds name (hperm.subset (by simp)) htext b hb
    refine ⟨htext', ?_⟩
    rcases hb with hb | ⟨hb, hless⟩
    · exact .inr ((hb.mono hmono₁).mono hmono₂)
    · rcases List.mem_append.1 (hperm.symm.subset hb) with hb | hb
      · exact .inl hb
      · rcases List.mem_cons.1 hb with rfl | hb
        · omega
        · have hle := List.rel_of_pairwise_cons (List.pairwise_append.1 hsorted).2.1 hb
          omega

/-- The end of a connection. -/
theorem close_keeps {Q : MigrateDB σ → Prop} (hQ : ∀ w w', (∀ n ∈ w.versions, n ∈ w'.versions) → Q w → Q w')
    {s : ℕ} {res : Except String Unit} (hended : Ended St seen old Q res w) :
    (Prog.call (.close s) fun _ => .ret res : MigrateProg (Except String Unit)).Keeps (Amid sql) (Fine St seen old)
      (Ended St seen old Q) w := by
  obtain ⟨⟨⟨A, hw⟩, hold⟩, hok⟩ := hended
  intro r w' he
  obtain ⟨hfine, -, hmono, -⟩ := Fine.idle hw hold (by trivial) he
  exact ⟨hfine, hfine, fun h => hQ w w' hmono (hok h)⟩

theorem up_keeps {dir : MigrationDir} (hbody : ∀ name body, dir.body name = some body → trimSpace body = text name)
    (hw : Steady St seen A w) (hold : ∀ name ∈ old, name ∈ w.versions)
    (hseen : ∀ name ∈ upFiles dir.entries, text name ≠ "" → name ∈ seen)
    (hneeds : ∀ name ∈ upFiles dir.entries, text name ≠ "" → ∀ b, St.needs name b →
      text b ≠ "" ∧ (Behind text w b ∨ (b ∈ upFiles dir.entries ∧ migrationSeq b < migrationSeq name))) :
    (up dir).Keeps (Amid sql) (Fine St seen old) (Ended St seen old fun w => ∀ name ∈ upFiles dir.entries, Behind text w name) w := by
  have hstable : ∀ w w' : MigrateDB σ, (∀ n ∈ w.versions, n ∈ w'.versions) → (∀ name ∈ upFiles dir.entries, Behind text w name) →
      ∀ name ∈ upFiles dir.entries, Behind text w' name := fun _ _ hmono h name hname => (h name hname).mono hmono
  simp only [up, withConnection, Prog.bind_eq, MigrateOp.call, Prog.perform_bind, Prog.pure_eq]
  intro r w₁ he₁
  obtain ⟨hfine₁, hw₁, hmono₁, hold₁⟩ := Fine.idle hw hold (by trivial) he₁
  refine ⟨hfine₁, ?_⟩
  cases r with
  | error e => exact .error hfine₁ _
  | ok there =>
    cases there with
    | false => exact .error hfine₁ _
    | true =>
      intro r w₂ he₂
      obtain ⟨hfine₂, hw₂, hmono₂, hold₂⟩ := Fine.idle hw₁ hold₁ (by trivial) he₂
      refine ⟨hfine₂, ?_⟩
      cases r with
      | error e => exact .error hfine₂ _
      | ok s =>
        intro r w₃ he₃
        obtain ⟨hfine₃, hw₃, hmono₃, hold₃⟩ := Fine.idle hw₂ hold₂ (by trivial) he₃
        refine ⟨hfine₃, ?_⟩
        cases r with
        | error e => exact close_keeps hstable (.error hfine₃ _)
        | ok u =>
          refine Prog.Keeps.bind ((readAndApply_keeps hbody s hw₃ hold₃ hseen fun name hname htext b hb => ?_).mono (fun _ h => h)
            fun res w' hended => close_keeps hstable hended)
          obtain ⟨htext', hb⟩ := hneeds name hname htext b hb
          exact ⟨htext', hb.imp_left fun hb => ((hb.mono hmono₁).mono hmono₂).mono hmono₃⟩

/-- **The plan for a database**: directories one after the other. -/
theorem migrate_keeps {dirs : List MigrationDir} (hbody : ∀ d ∈ dirs, ∀ name body, d.body name = some body →
    trimSpace body = text name)
    (hseen : filesOf text dirs ⊆ seen) (hself : SelfContained St dirs) : ∀ (ds₁ ds : List MigrationDir), dirs = ds₁ ++ ds →
    ∀ {w : MigrateDB σ} {A : Set String}, Steady St seen A w → (∀ name ∈ old, name ∈ w.versions) →
      (∀ d ∈ ds₁, ∀ name ∈ upFiles d.entries, Behind text w name) →
      (migrate ds).Keeps (Amid sql) (Fine St seen old)
        (Ended St seen old fun w => ∀ d ∈ dirs, ∀ name ∈ upFiles d.entries, Behind text w name) w
  | ds₁, [], hds, w, A, hw, hold, hdone => by
    rw [List.append_nil] at hds
    rw [hds]
    exact ⟨⟨⟨A, hw⟩, hold⟩, fun _ => hdone⟩
  | ds₁, d :: ds, hds, w, A, hw, hold, hdone => by
    have hd : d ∈ dirs := by
      rw [hds]
      exact List.mem_append_right _ List.mem_cons_self
    have hup := up_keeps (hbody d hd) hw (fun _ hn => hn) (fun name hname htext => hseen ⟨d, hd, hname, htext⟩)
      fun name hname htext b hb => ?_
    · refine Prog.Keeps.bind (hup.mono (fun _ h => h.mono hold) fun res w' hended => ?_)
      obtain ⟨⟨⟨A', hw'⟩, hmono⟩, hfiles⟩ := hended
      have hold' : ∀ n ∈ old, n ∈ w'.versions := fun n hn => hmono n (hold n hn)
      cases res with
      | error e => exact .error ⟨⟨A', hw'⟩, hold'⟩ e
      | ok u =>
        refine migrate_keeps hbody hseen hself (ds₁ ++ [d]) ds (by rw [hds]; simp) hw' hold' fun d' hd' name hname => ?_
        rcases List.mem_append.1 hd' with hd' | hd'
        · exact (hdone d' hd' name hname).mono hmono
        · rw [List.mem_singleton.1 hd'] at hname
          exact hfiles rfl name hname
    · obtain ⟨htext', hb⟩ := hself ds₁ d ds hds name hname htext b hb
      refine ⟨htext', ?_⟩
      rcases hb with ⟨d', hd', hb⟩ | hb
      · exact .inl (hdone d' hd' b hb)
      · exact .inr hb

end Programs

/-! ## Every sequence of attempts -/

/-- The files of the images that have been attempted. -/
def attempted (text : String → String) (l : List (List MigrationDir × Option (Except String Unit))) : Set String :=
  {name | ∃ a ∈ l, name ∈ filesOf text a.1}

/-- What an attempt that has succeeded has recorded. -/
def Succeeded (text : String → String) (l : List (List MigrationDir × Option (Except String Unit))) (w : MigrateDB σ) : Prop :=
  ∀ dirs, (dirs, some (.ok ())) ∈ l → ∀ name ∈ filesOf text dirs, name ∈ w.versions

theorem attempts_steady {images : List MigrationDir → Prop} {w₀ : MigrateDB σ}
    (hbody : ∀ dirs, images dirs → ∀ d ∈ dirs, ∀ name body, d.body name = some body → trimSpace body = text name)
    (hself : ∀ dirs, images dirs → SelfContained St dirs) (h₀ : Steady St ∅ ∅ w₀)
    {l : List (List MigrationDir × Option (Except String Unit))} (h : Attempts sql images w₀ l w) :
    (∃ A, Steady St (attempted text l) A w) ∧ Succeeded text l w := by
  induction h with
  | start => exact ⟨⟨∅, Set.empty_subset _, h₀.schema, h₀.recorded, h₀.closed, h₀.noTx⟩, fun dirs ha => absurd ha List.not_mem_nil⟩
  | @next l w w' res dirs n _ himage hruns ih =>
    obtain ⟨⟨A, hw⟩, hok⟩ := ih
    have hsub : attempted text l ⊆ attempted text (l ++ [(dirs, res)]) := by
      rintro name ⟨a, ha, hname⟩
      exact ⟨a, List.mem_append_left _ ha, hname⟩
    have hseen : filesOf text dirs ⊆ attempted text (l ++ [(dirs, res)]) :=
      fun name hname => ⟨(dirs, res), List.mem_append_right _ List.mem_cons_self, hname⟩
    have hw₁ : Steady St (attempted text (l ++ [(dirs, res)])) A w := ⟨hw.seen.trans hsub, hw.schema, hw.recorded, hw.closed, hw.noTx⟩
    obtain ⟨⟨hsteady, hold⟩, hended⟩ := (migrate_keeps (hbody dirs himage) hseen (hself dirs himage) [] dirs rfl hw₁ (fun _ hn => hn)
      fun d hd => absurd hd List.not_mem_nil).cut n ⟨⟨A, hw₁⟩, fun _ hn => hn⟩ hruns
    refine ⟨hsteady, fun dirs' ha name hname => ?_⟩
    rcases List.mem_append.1 ha with ha | ha
    · exact hold name (hok dirs' ha name hname)
    · obtain ⟨rfl, hres⟩ := Prod.mk.inj (List.mem_singleton.1 ha)
      obtain ⟨d, hd, hup, htext⟩ := hname
      exact ((hended _ hres.symm).2 rfl d hd name hup).resolve_left htext

end Stages

/-- **However often the job fails, crashes or loses its connection, and wherever, the schema is one the files stand for**: that of the
recorded ones and of others that have been run and not recorded, and all that any of them needs is recorded.  An attempt that succeeds
has recorded every file of its image, and the schema is then that of the image, as on a database that was empty before. -/
theorem job_brings_up {sql : RunSql σ} {text : String → String} (St : Stages sql text) {images : List MigrationDir → Prop}
    (hbody : ∀ dirs, images dirs → ∀ d ∈ dirs, ∀ name body, d.body name = some body → trimSpace body = text name)
    (hself : ∀ dirs, images dirs → SelfContained St dirs) (others : List String)
    {l : List (List MigrationDir × Option (Except String Unit))} {w : MigrateDB σ}
    (h : Attempts sql images (.fresh (St.state ∅) others) l w) :
    (∃ A ⊆ attempted text l, w.schema = St.state A ∧ (∀ name ∈ w.versions, name ∈ A) ∧ ∀ a ∈ A, ∀ b, St.needs a b → b ∈ w.versions) ∧
      Succeeded text l w ∧
      ∀ dirs, (dirs, some (.ok ())) ∈ l → attempted text l ⊆ filesOf text dirs → w.schema = St.state (filesOf text dirs) := by
  have h₀ : Steady St ∅ ∅ (.fresh (St.state ∅) others) := by
    refine ⟨Set.Subset.rfl, rfl, fun _ hn => absurd hn List.not_mem_nil, fun a ha => ha.elim, fun s x hx => ?_⟩
    cases hx
  obtain ⟨⟨A, hw⟩, hok⟩ := attempts_steady hbody hself h₀ h
  refine ⟨⟨A, hw.seen, hw.schema, hw.recorded, hw.closed⟩, hok, fun dirs ha hall => ?_⟩
  have hA : A = filesOf text dirs :=
    Set.Subset.antisymm (hw.seen.trans hall) fun name hname => hw.recorded name (hok dirs ha name hname)
  rw [hw.schema, hA]

/-! ### A crash between running a file and recording it -/

def venueFile : DirEntry := ⟨"001_init.up.sql", false, "CREATE TABLE IF NOT EXISTS venues ();\n"⟩

def staffFile : DirEntry := ⟨"001_venue_staff.up.sql", false, "CREATE TABLE IF NOT EXISTS venue_staff ();\n"⟩

/-- The plan for `venue_db`. -/
def venuePlan : List MigrationDir := [⟨"\"/migrations/venue-service\"", [venueFile]⟩, ⟨"\"/migrations/crm-service\"", [staffFile]⟩]

/-- Texts that can be run again. -/
def runAgain : RunSql (List String) := fun body tables => .ok (if body ∈ tables then tables else tables ++ [body])

def planText (name : String) : String :=
  if name = venueFile.name then trimSpace venueFile.body else if name = staffFile.name then trimSpace staffFile.body else ""

open Classical in
/-- The staff's table refers to the venues'. -/
noncomputable def venueStages : Stages runAgain planText where
  needs a b := a = staffFile.name ∧ b = venueFile.name
  state A := (if venueFile.name ∈ A then [planText venueFile.name] else [])
    ++ if staffFile.name ∈ A then [planText staffFile.name] else []
  run A name htext hneeds hfree schema hsql := by
    have hne : venueFile.name ≠ staffFile.name := by decide
    have htexts : planText venueFile.name ≠ planText staffFile.name := by decide +kernel
    have hname : name = venueFile.name ∨ name = staffFile.name := by
      by_contra hno
      rw [not_or] at hno
      exact htext (by rw [planText, if_neg hno.1, if_neg hno.2])
    have hsql := (Except.ok.inj hsql).symm
    rcases hname with rfl | rfl
    · have hno : staffFile.name ∉ A := fun hin => hfree _ hin ⟨rfl, rfl⟩
      by_cases hin : venueFile.name ∈ A <;> simp [hsql, hin, hno, hne.symm]
    · have hin : venueFile.name ∈ A := hneeds _ ⟨rfl, rfl⟩
      by_cases hstaff : staffFile.name ∈ A <;> simp [hsql, hin, hstaff, htexts.symm]

/-- One attempt at the plan, cut off after `n` operations, none of which fails. -/
def attempt (n : ℕ) (w : MigrateDB (List String)) : Option (Option (Except String Unit) × MigrateDB (List String)) :=
  ((migrate venuePlan).cut n).tryRun (MigrateOp.turn runAgain .none) w

theorem amid_of_turn (o : MigrateOp) (w : MigrateDB (List String)) (r : o.Res) (w' : MigrateDB (List String))
    (h : o.turn runAgain .none w = some (r, w')) : Amid runAgain o w r w' := ⟨w, .refl, MigrateOp.exec_of_turn .none o w r w' h⟩

theorem planText_body : ∀ d ∈ venuePlan, ∀ name body, d.body name = some body → trimSpace body = planText name := by
  have hall : ∀ d ∈ venuePlan, ∀ e ∈ d.entries, trimSpace e.body = planText e.name := by decide +kernel
  intro d hd name body hbody
  obtain ⟨e, he, rfl⟩ := Option.map_eq_some_iff.1 hbody
  have hname := List.find?_some he
  rw [hall d hd e (List.mem_of_find?_eq_some he), beq_iff_eq.1 hname]

theorem venuePlan_selfContained : SelfContained venueStages venuePlan := by
  rintro ds₁ d ds₂ hsplit name hname - b ⟨rfl, rfl⟩
  have htext : planText venueFile.name ≠ "" := by decide +kernel
  refine ⟨htext, .inl ?_⟩
  have hnot : staffFile.name ∉ upFiles [venueFile] := by decide +kernel
  cases ds₁ with
  | nil =>
    obtain ⟨rfl, -⟩ := List.cons.inj hsplit
    exact absurd hname hnot
  | cons d₁ ds₁ =>
    obtain ⟨rfl, -⟩ := List.cons.inj hsplit
    exact ⟨_, List.mem_cons_self, by decide +kernel⟩

theorem job_brings_up_venues : ∃ l w, Attempts runAgain (· = venuePlan) (.fresh [] []) l w ∧ l.map (·.2.isSome) = [false, true] ∧
    w.schema = [planText venueFile.name, planText staffFile.name] ∧ w.schema = venueStages.state (filesOf planText venuePlan) := by
  -- the first attempt has run the first file when it is cut off
  have hplay : ((attempt 8 (.fresh [] [])).bind fun x => (attempt 40 x.2).map fun y => (x.1.isNone && x.2.schema.length == 1 &&
      x.2.versions.length == 0 && y.1.any Except.toBool &&
      y.2.schema == [planText venueFile.name, planText staffFile.name])) = some true := by decide +kernel
  obtain ⟨⟨res₁, w₁⟩, h₁, hplay⟩ := Option.bind_eq_some_iff.1 hplay
  obtain ⟨⟨res₂, w₂⟩, h₂, hplay⟩ := Option.map_eq_some_iff.1 hplay
  simp only [Bool.and_eq_true, beq_iff_eq] at hplay
  obtain ⟨⟨⟨⟨hcut, -⟩, -⟩, hres₂⟩, hschema⟩ := hplay
  obtain rfl := Option.isNone_iff_eq_none.1 hcut
  obtain ⟨res, rfl, hres⟩ := (Option.any_eq_true _ _).1 hres₂
  cases res with
  | error e => cases hres
  | ok u =>
    have hfirst : Attempts runAgain (· = venuePlan) (.fresh [] []) ([] ++ [(venuePlan, none)]) w₁ :=
      .next venuePlan 8 .start rfl (Prog.runs_of_tryRun amid_of_turn h₁)
    have hboth := hfirst.next venuePlan 40 rfl (Prog.runs_of_tryRun amid_of_turn h₂)
    have hempty : venueStages.state ∅ = [] := by simp [venueStages]
    rw [← hempty] at hboth
    have hbody : ∀ dirs, dirs = venuePlan → ∀ d ∈ dirs, ∀ name body, d.body name = some body → trimSpace body = planText name := by
      rintro dirs rfl
      exact planText_body
    have hself : ∀ dirs, dirs = venuePlan → SelfContained venueStages dirs := by
      rintro dirs rfl
      exact venuePlan_selfContained
    have hall := job_brings_up venueStages hbody hself _ hboth
    rw [hempty] at hboth
    refine ⟨_, w₂, hboth, rfl, hschema, hall.2.2 venuePlan (List.mem_append_right _ List.mem_cons_self) ?_⟩
    rintro name ⟨a, ha, hname⟩
    rcases List.mem_append.1 ha with ha | ha
    · rw [List.mem_singleton.1 ha] at hname
      exact hname
    · rw [List.mem_singleton.1 ha] at hname
      exact hname

end Dbmigrate

end Agregator
