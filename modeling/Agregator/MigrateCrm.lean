import Agregator.ConcOwn
import Agregator.ConcPlay
import Agregator.MigrateSteps
/-!
# MigrateCrm — replicas that bring their schema up at once

Every replica of the CRM service migrates when it starts.  What one knows of the database follows from how far it has come and from
the lock it holds (`Knows`), and the others do not disturb it.
-/
namespace Agregator

open Conc

variable {σ : Type}

namespace CrmMigrate

structure UpCall where
  dir   : MigrationDir
  polls : ℕ

/-- Any number of replicas, of the images that have been `shipped`. -/
def sys (sql : RunSql σ) (shipped : MigrationDir → Prop) : Sys (MigrateDB σ) UpCall MigrateOp MigrateOp.Res (Except String Unit) where
  prog c := up c.dir c.polls
  ready c _ := shipped c.dir
  exec := MigrateOp.Exec sql
  env := MigrateDB.Moves

/-- A file is not edited once it has been shipped: it has one text. -/
def Unedited (shipped : MigrationDir → Prop) (text : String → String) : Prop :=
  ∀ dir, shipped dir → ∀ name body, dir.body name = some body → trimSpace body = text name

/-- Each release has the files of the last one and others with greater numbers. -/
structure Released (shipped : MigrationDir → Prop) (text : String → String) (all : List String) : Prop where
  numbered : all.Pairwise fun a b => migrationSeq a < migrationSeq b
  release : ∀ dir, shipped dir → ∃ k, ∀ name, (name ∈ upFiles dir.entries ∧ text name ≠ "") ↔ name ∈ all.take k

/-- The schema is that of the recorded files, and one session at most holds the lock. -/
structure Sound (sql : RunSql σ) (shipped : MigrationDir → Prop) (text : String → String) (schema₀ : σ) (w : MigrateDB σ) : Prop where
  excl : ∀ s x s' x', w.sessions s = some x → w.sessions s' = some x' → x.locked = true → x'.locked = true → s = s'
  opened : ∀ s x, w.sessions s = some x → s < w.opened
  nodup : w.versions.Nodup
  schema : replay sql text w.versions schema₀ = .ok w.schema
  ordered : ∀ all, Released shipped text all → ∃ k, w.versions = all.take k

/-- What a replica at a file knows while it holds the lock. -/
def AtFile (sql : RunSql σ) (text : String → String) (w : MigrateDB σ) (x : MigrateSession σ) : Phase → Prop
  | .idle | .stuck => True
  | .checked name => name ∉ w.versions ∧ x.tx = none
  | .read name body => name ∉ w.versions ∧ body = text name ∧ body ≠ ""
  | .begun name body => name ∉ w.versions ∧ body = text name ∧ body ≠ "" ∧ x.tx = some (w.schema, w.versions)
  | .ran name body => name ∉ w.versions ∧ body = text name ∧ body ≠ "" ∧
      ∃ schema, sql body w.schema = .ok schema ∧ x.tx = some (schema, w.versions)
  | .noted name body => name ∉ w.versions ∧ body = text name ∧ body ≠ "" ∧
      ∃ schema, sql body w.schema = .ok schema ∧ x.tx = some (schema, w.versions ++ [name])

/-- What it knows of its session. -/
def Owns (sql : RunSql σ) (text : String → String) (w : MigrateDB σ) (g : Progress) (x : MigrateSession σ) : Prop :=
  (g.phase = .idle → x.tx = none) ∧ (g.locked = true → x.locked = true ∧ AtFile sql text w x g.phase)

structure Knows (sql : RunSql σ) (text : String → String) (dir : MigrationDir) (w : MigrateDB σ) (g : Progress) : Prop where
  files : ∀ files, g.files = some files → files.Perm (upFiles dir.entries) ∧ files.Pairwise fun a b => migrationSeq a ≤ migrationSeq b
  done : ∀ name ∈ g.done, name ∈ w.versions
  blank : ∀ name ∈ g.blank, text name = ""
  opened : ∀ s, g.session = some s → s < w.opened
  own : ∀ s, g.session = some s → ∀ x, w.sessions s = some x → Owns sql text w g x

section Steps

variable {sql : RunSql σ} {shipped : MigrationDir → Prop} {text : String → String} {schema₀ : σ} {dir : MigrationDir}
  {w w' : MigrateDB σ} {g g' : Progress} {s : ℕ}

/-- A change of the database that leaves a replica's session alone, and the table of versions. -/
theorem Knows.frame (hk : Knows sql text dir w g) (hversions : w'.versions = w.versions) (hschema : w'.schema = w.schema)
    (hopened : w.opened ≤ w'.opened) (hsession : ∀ s x, g.session = some s → w'.sessions s = some x → w.sessions s = some x) :
    Knows sql text dir w' g where
  files := hk.files
  done name hname := by
    rw [hversions]
    exact hk.done name hname
  blank := hk.blank
  opened s hs := Nat.lt_of_lt_of_le (hk.opened s hs) hopened
  own s hs x hx := by
    obtain ⟨hidle, hlocked⟩ := hk.own s hs x (hsession s x hs hx)
    refine ⟨hidle, fun hl => ⟨(hlocked hl).1, ?_⟩⟩
    have hat := (hlocked hl).2
    revert hat
    cases g.phase <;> simp only [AtFile, hversions, hschema] <;> exact fun hat => hat

/-- A commit of another session, while no other than that one holds the lock. -/
theorem Knows.committed (hk : Knows sql text dir w g) (hversions : ∀ name ∈ w.versions, name ∈ w'.versions)
    (hopened : w'.opened = w.opened)
    (hsession : ∀ s x, g.session = some s → w'.sessions s = some x → w.sessions s = some x ∧ x.locked = false) :
    Knows sql text dir w' g where
  files := hk.files
  done name hname := hversions name (hk.done name hname)
  blank := hk.blank
  opened s hs := by
    rw [hopened]
    exact hk.opened s hs
  own s hs x hx := by
    obtain ⟨hx, hfree⟩ := hsession s x hs hx
    obtain ⟨hidle, hlocked⟩ := hk.own s hs x hx
    refine ⟨hidle, fun hl => ?_⟩
    rw [(hlocked hl).1] at hfree
    cases hfree

/-- A step of the replica itself that finds nothing new about the files. -/
theorem Knows.step (hk : Knows sql text dir w g) (hfiles : g'.files = g.files) (hdone : ∀ name ∈ g'.done, name ∈ w'.versions)
    (hblank : g'.blank = g.blank) (hsession : g'.session = g.session) (hopened : w'.opened = w.opened)
    (hown : ∀ s, g.session = some s → ∀ x', w'.sessions s = some x' → Owns sql text w' g' x') : Knows sql text dir w' g' where
  files := by
    rw [hfiles]
    exact hk.files
  done := hdone
  blank := by
    rw [hblank]
    exact hk.blank
  opened := by
    rw [hsession, hopened]
    exact hk.opened
  own := by
    rw [hsession]
    exact hown

/-- A replica that goes no further. -/
theorem Knows.stuck (hk : Knows sql text dir w g) : Knows sql text dir w { g with phase := .stuck } :=
  hk.step rfl hk.done rfl rfl rfl fun s hs x hx => ⟨(by intro he; cases he), fun hl => ⟨((hk.own s hs x hx).2 hl).1, trivial⟩⟩

/-! ### The invariant -/

theorem Sound.setSession (hw : Sound sql shipped text schema₀ w) {x x' : MigrateSession σ} (hx : w.sessions s = some x)
    (hlock : x'.locked = true → x.locked = true ∨ w.LockFree s) : Sound sql shipped text schema₀ (w.setSession s (some x')) where
  excl := by
    -- whoever else holds the lock did before, and then this one did not
    have hother : ∀ s₂ x₂, s₂ ≠ s → w.sessions s₂ = some x₂ → x₂.locked = true → x'.locked = true → False := by
      intro s₂ x₂ hne hx₂ hl₂ hl
      rcases hlock hl with hl | hfree
      · exact hne (hw.excl s₂ x₂ s x hx₂ hx hl₂ hl)
      · rw [hfree s₂ (hw.opened s₂ x₂ hx₂) hne x₂ hx₂] at hl₂
        cases hl₂
    intro s₁ x₁ s₂ x₂ h₁ h₂ hl₁ hl₂
    by_cases hs₁ : s₁ = s
    · by_cases hs₂ : s₂ = s
      · rw [hs₁, hs₂]
      · rw [hs₁, MigrateDB.setSession_self] at h₁
        rw [MigrateDB.setSession_other hs₂] at h₂
        rw [← Option.some.inj h₁] at hl₁
        exact (hother s₂ x₂ hs₂ h₂ hl₂ hl₁).elim
    · rw [MigrateDB.setSession_other hs₁] at h₁
      by_cases hs₂ : s₂ = s
      · rw [hs₂, MigrateDB.setSession_self] at h₂
        rw [← Option.some.inj h₂] at hl₂
        exact (hother s₁ x₁ hs₁ h₁ hl₁ hl₂).elim
      · rw [MigrateDB.setSession_other hs₂] at h₂
        exact hw.excl s₁ x₁ s₂ x₂ h₁ h₂ hl₁ hl₂
  opened s' x'' h' := by
    by_cases hs' : s' = s
    · rw [hs']
      exact hw.opened s x hx
    · rw [MigrateDB.setSession_other hs'] at h'
      exact hw.opened s' x'' h'
  nodup := hw.nodup
  schema := hw.schema
  ordered := hw.ordered

theorem Sound.drop (hw : Sound sql shipped text schema₀ w) (s : ℕ) : Sound sql shipped text schema₀ (w.setSession s none) := by
  have hold : ∀ s' x, (w.setSession s none).sessions s' = some x → w.sessions s' = some x := by
    intro s' x hx
    by_cases hs' : s' = s
    · rw [hs', MigrateDB.setSession_self] at hx
      cases hx
    · rwa [MigrateDB.setSession_other hs'] at hx
  exact ⟨fun s₁ x₁ s₂ x₂ h₁ h₂ => hw.excl s₁ x₁ s₂ x₂ (hold _ _ h₁) (hold _ _ h₂), fun s' x hx => hw.opened s' x (hold _ _ hx),
    hw.nodup, hw.schema, hw.ordered⟩

/-- What the others know does not rest on this session. -/
theorem Knows.other (hk : Knows sql text dir w g) (hne : g.session ≠ some s) (x : Option (MigrateSession σ)) :
    Knows sql text dir (w.setSession s x) g := by
  refine hk.frame rfl rfl (Nat.le_refl _) fun s' x' hs' hx' => ?_
  have hne' : s' ≠ s := by
    rintro rfl
    exact hne hs'
  rwa [MigrateDB.setSession_other hne'] at hx'

/-- What a step makes of the invariant, of what its replica knows, and of what the others know. -/
structure Stepped (sql : RunSql σ) (shipped : MigrationDir → Prop) (text : String → String) (schema₀ : σ) (dir : MigrationDir)
    (w : MigrateDB σ) (g : Progress) (w' : MigrateDB σ) (g' : Progress) : Prop where
  sound : Sound sql shipped text schema₀ w'
  own : Knows sql text dir w' g'
  others : ∀ dir' g₂, (∀ s, g.session = some s → g₂.session ≠ some s) → Knows sql text dir' w g₂ → Knows sql text dir' w' g₂

theorem stepped_quiet (hw : Sound sql shipped text schema₀ w) (hk : Knows sql text dir w g') :
    Stepped sql shipped text schema₀ dir w g w g' :=
  ⟨hw, hk, fun _ _ _ hk => hk⟩

/-- A statement that changes its own session only. -/
theorem stepped_session (hw : Sound sql shipped text schema₀ w) (hk : Knows sql text dir w g) (hs : g.session = some s)
    {x x' : MigrateSession σ} (hx : w.sessions s = some x) (hlock : x'.locked = true → x.locked = true ∨ w.LockFree s)
    (hfiles : g'.files = g.files) (hdone : g'.done = g.done) (hblank : g'.blank = g.blank) (hsession : g'.session = g.session)
    (hown : Owns sql text w g x → Owns sql text (w.setSession s (some x')) g' x') :
    Stepped sql shipped text schema₀ dir w g (w.setSession s (some x')) g' where
  sound := hw.setSession hx hlock
  own := by
    refine hk.step hfiles (by rw [hdone]; exact hk.done) hblank hsession rfl fun s' hs' x'' hx'' => ?_
    obtain rfl := Option.some.inj (hs.symm.trans hs')
    rw [MigrateDB.setSession_self] at hx''
    obtain rfl := Option.some.inj hx''
    exact hown (hk.own s hs x hx)
  others _ _ hapart hk₂ := hk₂.other (hapart s hs) _

theorem stepped_drop (hw : Sound sql shipped text schema₀ w) (hk : Knows sql text dir w g) (hs : g.session = some s) :
    Stepped sql shipped text schema₀ dir w g (w.setSession s none) { g with phase := .stuck } where
  sound := hw.drop s
  own := by
    refine hk.stuck.step rfl hk.done rfl rfl rfl fun s' hs' x hx => ?_
    obtain rfl := Option.some.inj (hs.symm.trans hs')
    rw [MigrateDB.setSession_self] at hx
    cases hx
  others _ _ hapart hk₂ := hk₂.other (hapart s hs) _

/-- A new session. -/
theorem Sound.connect (hw : Sound sql shipped text schema₀ w) :
    Sound sql shipped text schema₀ { w.setSession w.opened (some {}) with opened := w.opened + 1 } := by
  have hold : ∀ s x, (w.setSession w.opened (some {})).sessions s = some x → x.locked = true → w.sessions s = some x := by
    intro s x hx hl
    by_cases hs : s = w.opened
    · rw [hs, MigrateDB.setSession_self] at hx
      rw [← Option.some.inj hx] at hl
      cases hl
    · rwa [MigrateDB.setSession_other hs] at hx
  refine ⟨fun s₁ x₁ s₂ x₂ h₁ h₂ hl₁ hl₂ => hw.excl s₁ x₁ s₂ x₂ (hold _ _ h₁ hl₁) (hold _ _ h₂ hl₂) hl₁ hl₂, fun s x hx => ?_,
    hw.nodup, hw.schema, hw.ordered⟩
  by_cases hs : s = w.opened
  · rw [hs]
    exact Nat.lt_succ_self _
  · have hx' : (w.setSession w.opened (some {})).sessions s = some x := hx
    rw [MigrateDB.setSession_other hs] at hx'
    exact Nat.lt_succ_of_lt (hw.opened s x hx')

theorem Knows.connect (hk : Knows sql text dir w g) :
    Knows sql text dir { w.setSession w.opened (some {}) with opened := w.opened + 1 } g := by
  refine hk.frame rfl rfl (Nat.le_succ _) fun s x hs hx => ?_
  have hne : s ≠ w.opened := Nat.ne_of_lt (hk.opened s hs)
  have hx' : (w.setSession w.opened (some {})).sessions s = some x := hx
  rwa [MigrateDB.setSession_other hne] at hx'

theorem stepped_connect (hw : Sound sql shipped text schema₀ w) (hk : Knows sql text dir w g) {r : Except String ℕ}
    (he : MigrateOp.Exec sql .connect w r w') : Stepped sql shipped text schema₀ dir w g w' (g.step ⟨.connect, r⟩) := by
  obtain ⟨f, hf⟩ := he
  cases f with
  | before d =>
    obtain ⟨rfl, rfl⟩ := Prod.mk.inj hf
    exact stepped_quiet hw hk.stuck
  | after d =>
    obtain ⟨rfl, rfl⟩ := Prod.mk.inj hf
    exact ⟨hw.connect, hk.connect.stuck, fun _ _ _ hk₂ => hk₂.connect⟩
  | none =>
    obtain ⟨rfl, rfl⟩ := Prod.mk.inj hf
    refine ⟨hw.connect, ?_, fun _ _ _ hk₂ => hk₂.connect⟩
    refine ⟨hk.files, hk.done, hk.blank, fun s hs => ?_, fun s hs x hx => ?_⟩
    · obtain rfl := Option.some.inj hs
      exact Nat.lt_succ_self _
    · obtain rfl := Option.some.inj hs
      have hx' : (w.setSession w.opened (some {})).sessions w.opened = some x := hx
      rw [MigrateDB.setSession_self] at hx'
      obtain rfl := Option.some.inj hx'
      exact ⟨fun _ => rfl, (by intro hl; cases hl)⟩

theorem stepped_isApplied (hw : Sound sql shipped text schema₀ w) (hk : Knows sql text dir w g) (hs : g.session = some s)
    (hidle : g.phase = .idle) {name : String} {r : Except String Bool} (he : MigrateOp.Exec sql (.isApplied s name) w r w') :
    Stepped sql shipped text schema₀ dir w g w' (g.step ⟨.isApplied s name, r⟩) := by
  obtain ⟨rfl, ⟨e, rfl⟩ | ⟨x, hx, rfl⟩⟩ := MigrateDB.Statement.look (fun x w => decide (name ∈ (x.view w).2)) he
  · exact stepped_quiet hw hk.stuck
  have htx : x.tx = none := (hk.own s hs x hx).1 hidle
  have hview : (x.view w').2 = w'.versions := by
    rw [MigrateSession.view, htx]
    rfl
  rw [hview]
  refine stepped_quiet hw ?_
  by_cases hname : name ∈ w'.versions
  · rw [decide_eq_true hname]
    refine hk.step rfl (fun n hn => ?_) rfl rfl rfl fun s' hs' x' hx' => ?_
    · rcases List.mem_cons.1 hn with rfl | hn
      · exact hname
      · exact hk.done n hn
    · obtain ⟨hown, hlocked⟩ := hk.own s' hs' x' hx'
      exact ⟨fun _ => hown hidle, fun hl => ⟨(hlocked hl).1, trivial⟩⟩
  · rw [decide_eq_false hname]
    refine hk.step rfl hk.done rfl rfl rfl fun s' hs' x' hx' => ?_
    obtain ⟨hown, hlocked⟩ := hk.own s' hs' x' hx'
    exact ⟨(by intro hl; cases hl), fun hl => ⟨(hlocked hl).1, hname, hown hidle⟩⟩

theorem stepped_readFile (hedit : Unedited shipped text) (hdir : shipped dir) (hw : Sound sql shipped text schema₀ w)
    (hk : Knows sql text dir w g) (hlock : g.locked = true) {name : String} (hphase : g.phase = .checked name)
      {r : Except String String}
    (he : MigrateOp.Exec sql (.readFile dir name) w r w') :
    Stepped sql shipped text schema₀ dir w g w' (g.step ⟨.readFile dir name, r⟩) := by
  obtain ⟨⟨body, hbody, rfl⟩ | ⟨e, rfl⟩, rfl⟩ := he
  · refine stepped_quiet hw ?_
    have htext : trimSpace body = text name := hedit dir hdir name body hbody
    have hat : ∀ s, g.session = some s → ∀ x, w'.sessions s = some x → x.locked = true ∧ name ∉ w'.versions ∧ x.tx = none := by
      intro s hs x hx
      have hown := (hk.own s hs x hx).2 hlock
      rw [hphase] at hown
      exact hown
    simp only [Progress.step, Progress.readText, hphase]
    by_cases hblank : trimSpace body = ""
    · rw [if_pos hblank]
      refine ⟨hk.files, hk.done, fun n hn => ?_, hk.opened, fun s hs x hx => ?_⟩
      · rcases List.mem_cons.1 hn with rfl | hn
        · exact htext.symm.trans hblank
        · exact hk.blank n hn
      · exact ⟨fun _ => (hat s hs x hx).2.2, fun _ => ⟨(hat s hs x hx).1, trivial⟩⟩
    · rw [if_neg hblank]
      refine hk.step rfl hk.done rfl rfl rfl fun s hs x hx => ⟨(by intro hl; cases hl), fun _ => ?_⟩
      exact ⟨(hat s hs x hx).1, (hat s hs x hx).2.1, htext, hblank⟩
  · exact stepped_quiet hw hk.stuck

theorem stepped_lock (hw : Sound sql shipped text schema₀ w) (hk : Knows sql text dir w g) (hs : g.session = some s)
    (hidle : g.phase = .idle) {r : Except String Unit} (he : MigrateOp.Exec sql (.lock s) w r w') :
    Stepped sql shipped text schema₀ dir w g w' (g.step ⟨.lock s, r⟩) := by
  obtain ⟨he, hfree⟩ := he
  obtain ⟨rfl, e, rfl⟩ | ⟨x, hx, rfl, hr⟩ := MigrateDB.Statement.session he
  · exact stepped_quiet hw hk.stuck
  have hlock : x.locked = true ∨ w.LockFree s := by
    rcases hfree with hsame | hfree
    · -- a lock that changes nothing was held before
      have hx' : (w.setSession s (some { x with locked := true })).sessions s = some x := by rw [hsame, hx]
      rw [MigrateDB.setSession_self] at hx'
      exact .inl (congrArg MigrateSession.locked (Option.some.inj hx')).symm
    · exact .inr hfree
  rcases hr with rfl | ⟨e, rfl⟩
  · refine stepped_session hw hk hs hx (fun _ => hlock) rfl rfl rfl rfl fun hown => ⟨hown.1, fun _ => ⟨rfl, ?_⟩⟩
    show AtFile sql text _ _ g.phase
    rw [hidle]
    trivial
  · exact stepped_session hw hk hs hx (fun _ => hlock) rfl rfl rfl rfl fun hown => ⟨(by intro hl; cases hl), fun _ => ⟨rfl, trivial⟩⟩

theorem stepped_unlock (hw : Sound sql shipped text schema₀ w) (hk : Knows sql text dir w g) (hs : g.session = some s)
    {r : Except String Unit} (he : MigrateOp.Exec sql (.unlock s) w r w') :
    Stepped sql shipped text schema₀ dir w g w' (g.step ⟨.unlock s, r⟩) := by
  obtain ⟨rfl, e, rfl⟩ | ⟨x, hx, rfl, hr⟩ := MigrateDB.Statement.session he
  · refine stepped_quiet hw (hk.step rfl hk.done rfl rfl rfl fun s hs x hx => ⟨(hk.own s hs x hx).1, ?_⟩)
    intro hl
    cases hl
  · have hstep : g.step ⟨.unlock s, r⟩ = { g with locked := false } := rfl
    rw [hstep]
    exact stepped_session hw hk hs hx (by intro hl; cases hl) rfl rfl rfl rfl fun hown => ⟨hown.1, (by intro hl; cases hl)⟩

theorem stepped_rollback (hw : Sound sql shipped text schema₀ w) (hk : Knows sql text dir w g) (hs : g.session = some s)
    {r : Except String Unit} (he : MigrateOp.Exec sql (.rollback s) w r w') :
    Stepped sql shipped text schema₀ dir w g w' (g.step ⟨.rollback s, r⟩) := by
  obtain ⟨rfl, e, rfl⟩ | ⟨x, hx, rfl, hr⟩ := MigrateDB.Statement.session he
  · exact stepped_quiet hw hk.stuck
  · have hstep : g.step ⟨.rollback s, r⟩ = { g with phase := .stuck } := by rcases hr with rfl | ⟨e, rfl⟩ <;> rfl
    rw [hstep]
    exact stepped_session hw hk hs hx .inl rfl rfl rfl rfl fun hown => ⟨(by intro hl; cases hl), fun hl => ⟨(hown.2 hl).1, trivial⟩⟩

/-- The same of a statement of the work on a file, after which it is in the phase `ph`. -/
theorem stepped_work (ph : Phase) (hw : Sound sql shipped text schema₀ w) (hk : Knows sql text dir w g) (hs : g.session = some s)
    {x x' : MigrateSession σ} (hx : w.sessions s = some x) (hlock : x'.locked = x.locked) (hidle : ph ≠ .idle)
    (hown : Owns sql text w g x → g.locked = true → AtFile sql text w x' ph) :
    Stepped sql shipped text schema₀ dir w g (w.setSession s (some x')) { g with phase := ph } :=
  stepped_session hw hk hs hx (fun hl => .inl (hlock ▸ hl)) rfl rfl rfl rfl fun ho =>
    ⟨fun he => absurd he hidle, fun hl => ⟨hlock.trans (ho.2 hl).1, hown ho hl⟩⟩

theorem stepped_begin (hw : Sound sql shipped text schema₀ w) (hk : Knows sql text dir w g) (hs : g.session = some s)
    {name body : String} (hphase : g.phase = .read name body) {r : Except String Unit} (he : MigrateOp.Exec sql (.begin s) w r w') :
    Stepped sql shipped text schema₀ dir w g w' (g.step ⟨.begin s, r⟩) := by
  obtain ⟨rfl, e, rfl⟩ | ⟨x, hx, rfl, rfl | ⟨e, rfl⟩⟩ := MigrateDB.Statement.session he
  · exact stepped_quiet hw hk.stuck
  · simp only [Progress.step, Progress.beginTx, hphase]
    refine stepped_work (.begun name body) hw hk hs hx rfl (by simp) fun hown hl => ?_
    have hat := (hown.2 hl).2
    rw [hphase] at hat
    exact ⟨hat.1, hat.2.1, hat.2.2, rfl⟩
  · exact stepped_work .stuck hw hk hs hx rfl (by simp) fun _ _ => trivial

theorem stepped_exec (hw : Sound sql shipped text schema₀ w) (hk : Knows sql text dir w g) (hs : g.session = some s)
    (hlock : g.locked = true) {name body : String} (hphase : g.phase = .begun name body) {r : Except String Unit}
    (he : MigrateOp.Exec sql (.exec s body) w r w') :
    Stepped sql shipped text schema₀ dir w g w' (g.step ⟨.exec s body, r⟩) := by
  obtain ⟨rfl, e, rfl⟩ | ⟨x, a, hx, hrun, hr⟩ := he.cases MigrateDB.execSql_error
  · exact stepped_quiet hw hk.stuck
  have hat := ((hk.own s hs x hx).2 hlock).2
  rw [hphase] at hat
  obtain ⟨hname, htext, hne, htx⟩ := hat
  have hview : x.view w = (w.schema, w.versions) := by
    rw [MigrateSession.view, htx]
    rfl
  simp only [execSql, hview, MigrateDB.write_tx htx] at hrun
  cases hsql : sql body w.schema with
  | error e =>
    rw [hsql] at hrun
    cases (Prod.mk.inj hrun).1
  | ok schema =>
    rw [hsql] at hrun
    obtain ⟨-, rfl⟩ := Prod.mk.inj hrun
    rcases hr with rfl | ⟨e, rfl⟩
    · simp only [Progress.step, Progress.runText, hphase]
      exact stepped_work (.ran name body) hw hk hs hx rfl (by simp) fun _ _ => ⟨hname, htext, hne, schema, hsql, rfl⟩
    · exact stepped_work .stuck hw hk hs hx rfl (by simp) fun _ _ => trivial

theorem stepped_record (hw : Sound sql shipped text schema₀ w) (hk : Knows sql text dir w g) (hs : g.session = some s)
    (hlock : g.locked = true) {name body : String} (hphase : g.phase = .ran name body) {r : Except String Unit}
    (he : MigrateOp.Exec sql (.record s name) w r w') :
    Stepped sql shipped text schema₀ dir w g w' (g.step ⟨.record s name, r⟩) := by
  obtain ⟨rfl, e, rfl⟩ | ⟨x, a, hx, hrun, hr⟩ := he.cases MigrateDB.recordName_error
  · exact stepped_quiet hw hk.stuck
  have hat := ((hk.own s hs x hx).2 hlock).2
  rw [hphase] at hat
  obtain ⟨hname, htext, hne, schema, hsql, htx⟩ := hat
  have hview : x.view w = (schema, w.versions) := by
    rw [MigrateSession.view, htx]
    rfl
  simp only [recordName, hview, if_neg hname, MigrateDB.write_tx htx] at hrun
  obtain ⟨-, rfl⟩ := Prod.mk.inj hrun
  rcases hr with rfl | ⟨e, rfl⟩
  · simp only [Progress.step, Progress.note, hphase]
    exact stepped_work (.noted name body) hw hk hs hx rfl (by simp) fun _ _ => ⟨hname, htext, hne, schema, hsql, rfl⟩
  · exact stepped_work .stuck hw hk hs hx rfl (by simp) fun _ _ => trivial

/-- The next file is one of the image, and those of smaller number that say anything have been recorded. -/
theorem Knows.next_listed (hk : Knows sql text dir w g) {name : String} (hnext : g.Next name) :
    name ∈ upFiles dir.entries ∧
      ∀ other ∈ upFiles dir.entries, text other ≠ "" → migrationSeq other < migrationSeq name → other ∈ w.versions := by
  obtain ⟨before, rest, hfiles, hbefore⟩ := hnext
  obtain ⟨hperm, hsorted⟩ := hk.files _ hfiles
  refine ⟨hperm.subset (by simp), fun other hup htext hless => ?_⟩
  rcases List.mem_append.1 (hperm.symm.subset hup) with hb | hr
  · rcases hbefore _ hb with hd | hblank
    · exact hk.done _ hd
    · exact absurd (hk.blank _ hblank) htext
  · rcases List.mem_cons.1 hr with rfl | hr
    · exact absurd hless (Int.lt_irrefl _)
    · have hle := List.rel_of_pairwise_cons (List.pairwise_append.1 hsorted).2.1 hr
      omega

/-- **The next file to be recorded is the next one of all that have been shipped.** -/
theorem Released.next {all : List String} (ha : Released shipped text all) (hdir : shipped dir) (hk : Knows sql text dir w g)
    {name : String} (hnew : name ∉ w.versions) (htext : text name ≠ "") (hnext : g.Next name) {k : ℕ} (hv : w.versions = all.take k) :
    w.versions ++ [name] = all.take (k + 1) := by
  obtain ⟨m, hm⟩ := ha.release dir hdir
  obtain ⟨hlisted, hsmaller⟩ := hk.next_listed hnext
  obtain ⟨i, hi, hget⟩ := List.mem_take_iff_getElem.1 ((hm name).1 ⟨hlisted, htext⟩)
  have hmono : ∀ a b (hal : a < all.length) (hb : b < all.length), a < b → migrationSeq all[a] < migrationSeq all[b] :=
    List.pairwise_iff_getElem.1 ha.numbered
  have hki : k ≤ i := by
    by_contra hlt
    refine hnew ?_
    rw [hv]
    exact List.mem_take_iff_getElem.2 ⟨i, by omega, hget⟩
  have hik : i ≤ k := by
    by_contra hlt
    -- the one at `k` comes before this one, so it is recorded; but only those before `k` are
    have hkl : k < all.length := by omega
    have hprev : all[k] ∈ all.take m := List.mem_take_iff_getElem.2 ⟨k, by omega, rfl⟩
    obtain ⟨hup, htext'⟩ := (hm _).2 hprev
    have hless := hmono k i hkl (by omega) (by omega)
    rw [hget] at hless
    have hrecorded := hsmaller _ hup htext' hless
    rw [hv] at hrecorded
    obtain ⟨j, hj, hget'⟩ := List.mem_take_iff_getElem.1 hrecorded
    have hless' := hmono j k (by omega) hkl (by omega)
    rw [hget'] at hless'
    omega
  obtain rfl : i = k := by omega
  rw [hv, ← hget]
  exact List.take_append_getElem (by omega)

/-- What a commit of the next file makes of the database. -/
theorem Sound.commit (hw : Sound sql shipped text schema₀ w) (hdir : shipped dir) (hk : Knows sql text dir w g) {x : MigrateSession σ}
    (hx : w.sessions s = some x) {name : String} (hnew : name ∉ w.versions) (htext : text name ≠ "") (hnext : g.Next name)
      {schema : σ}
    (hsql : sql (text name) w.schema = .ok schema) : Sound sql shipped text schema₀
      { w.setSession s (some { x with tx := none }) with schema := schema, versions := w.versions ++ [name] } := by
  have hsession : Sound sql shipped text schema₀ (w.setSession s (some { x with tx := none })) := hw.setSession hx .inl
  refine ⟨hsession.excl, hsession.opened, ?_, replay_append_one hsql hw.schema, fun all ha => ?_⟩
  · exact List.nodup_append.2 ⟨hw.nodup, by simp, fun a ha b hb hab => hnew (by rwa [← List.mem_singleton.1 hb, ← hab])⟩
  · obtain ⟨k, hv⟩ := hw.ordered all ha
    exact ⟨k + 1, ha.next hdir hk hnew htext hnext hv⟩

theorem stepped_commit (hw : Sound sql shipped text schema₀ w) (hdir : shipped dir) (hk : Knows sql text dir w g)
    (hs : g.session = some s) (hlock : g.locked = true) {name body : String} (hphase : g.phase = .noted name body)
      (hnext : g.Next name)
    {r : Except String Unit} (he : MigrateOp.Exec sql (.commit s) w r w') :
    Stepped sql shipped text schema₀ dir w g w' (g.step ⟨.commit s, r⟩) := by
  obtain ⟨rfl, e, rfl⟩ | ⟨x, a, hx, hrun, hr⟩ := he.cases MigrateDB.commitTx_error
  · exact stepped_quiet hw hk.stuck
  obtain ⟨hxlock, hat⟩ := (hk.own s hs x hx).2 hlock
  rw [hphase] at hat
  obtain ⟨hname, rfl, hne, schema, hsql, htx⟩ := hat
  simp only [commitTx, htx] at hrun
  obtain ⟨-, rfl⟩ := Prod.mk.inj hrun
  have hold : ∀ n ∈ w.versions, n ∈ w.versions ++ [name] := fun n hn => List.mem_append_left _ hn
  have hown : ∀ g' : Progress, g'.files = g.files → (∀ n ∈ g'.done, n ∈ w.versions ++ [name]) → g'.blank = g.blank →
      g'.session = g.session → (g'.phase = .idle ∨ g'.phase = .stuck) → Knows sql text dir
        { w.setSession s (some { x with tx := none }) with schema := schema, versions := w.versions ++ [name] } g' := by
    intro g' hfiles hdone hblank hsession hphase'
    refine hk.step hfiles hdone hblank hsession rfl fun s' hs' x' hx' => ?_
    obtain rfl := Option.some.inj (hs.symm.trans hs')
    have hx'' : (w.setSession s (some { x with tx := none })).sessions s = some x' := hx'
    rw [MigrateDB.setSession_self] at hx''
    obtain rfl := Option.some.inj hx''
    refine ⟨fun _ => rfl, fun _ => ⟨hxlock, ?_⟩⟩
    rcases hphase' with hp | hp <;> rw [hp] <;> trivial
  refine ⟨hw.commit hdir hk hx hname hne hnext hsql, ?_, fun dir' g₂ hapart hk₂ => ?_⟩
  · rcases hr with rfl | ⟨e, rfl⟩
    · simp only [Progress.step, Progress.commitTx, hphase]
      refine hown _ rfl (fun n hn => ?_) rfl rfl (.inl rfl)
      rcases List.mem_cons.1 hn with rfl | hn
      · exact List.mem_append_right _ List.mem_cons_self
      · exact hold n (hk.done n hn)
    · exact hown _ rfl (fun n hn => hold n (hk.done n hn)) rfl rfl (.inr rfl)
  · -- nobody else holds the lock, so nobody else knows which files are missing
    refine hk₂.committed hold rfl fun s' x' hs' hx' => ?_
    have hne' : s' ≠ s := by
      rintro rfl
      exact hapart s' hs hs'
    have hx'' : (w.setSession s (some { x with tx := none })).sessions s' = some x' := hx'
    rw [MigrateDB.setSession_other hne'] at hx''
    refine ⟨hx'', ?_⟩
    cases hl : x'.locked with
    | false => rfl
    | true => exact absurd (hw.excl s' x' s x hx'' hx hl hxlock) hne'

/-- **One step of one replica.** -/
theorem stepped (hedit : Unedited shipped text) (hdir : shipped dir) {h : List (Event MigrateOp MigrateOp.Res)}
    {o : MigrateOp} {r : o.Res}
    (hw : Sound sql shipped text schema₀ w) (hk : Knows sql text dir w (progress h))
    (hlisted : ∀ d entries, ⟨.readDir d, .ok entries⟩ ∈ h → entries = d.entries) (hlaw : Lawful dir h o)
    (he : MigrateOp.Exec sql o w r w') : Stepped sql shipped text schema₀ dir w (progress h) w' (progress (h ++ [⟨o, r⟩])) := by
  obtain ⟨hs, hlaw⟩ := hlaw
  rw [progress_snoc]
  cases o with
  | stat d =>
    obtain rfl : w' = w := he
    exact stepped_quiet hw hk
  | sleep =>
    obtain rfl : w' = w := he
    exact stepped_quiet hw hk
  | connect => exact stepped_connect hw hk he
  | createTable s =>
    obtain ⟨rfl, ⟨e, rfl⟩ | ⟨x, -, rfl⟩⟩ := MigrateDB.Statement.look (fun _ _ => ()) he
    · exact stepped_quiet hw hk.stuck
    · exact stepped_quiet hw hk
  | tableExists s table =>
    obtain ⟨rfl, ⟨e, rfl⟩ | ⟨x, -, rfl⟩⟩ := MigrateDB.Statement.look (fun _ w => decide (table ∈ w.others)) he
    · exact stepped_quiet hw hk.stuck
    · exact stepped_quiet hw hk
  | lock s => exact stepped_lock hw hk (hs s rfl) hlaw he
  | unlock s => exact stepped_unlock hw hk (hs s rfl) he
  | readDir d =>
    obtain ⟨rfl | ⟨e, rfl⟩, rfl⟩ := he
    · exact stepped_quiet hw hk
    · exact stepped_quiet hw hk.stuck
  | sort names =>
    obtain ⟨entries, hread, rfl⟩ := hlaw
    obtain ⟨hperm, hsorted, rfl⟩ := he
    obtain rfl := hlisted dir entries hread
    refine stepped_quiet hw ⟨fun files hfiles => ?_, hk.done, hk.blank, hk.opened, hk.own⟩
    obtain rfl := Option.some.inj hfiles
    exact ⟨hperm, hsorted⟩
  | isApplied s name => exact stepped_isApplied hw hk (hs s rfl) hlaw.2 he
  | readFile d name =>
    obtain ⟨rfl, hlock, hphase⟩ := hlaw
    exact stepped_readFile hedit hdir hw hk hlock hphase he
  | begin s =>
    obtain ⟨-, name, body, hphase⟩ := hlaw
    exact stepped_begin hw hk (hs s rfl) hphase he
  | exec s body =>
    obtain ⟨hlock, name, hphase⟩ := hlaw
    exact stepped_exec hw hk (hs s rfl) hlock hphase he
  | record s name =>
    obtain ⟨hlock, body, hphase⟩ := hlaw
    exact stepped_record hw hk (hs s rfl) hlock hphase he
  | commit s =>
    obtain ⟨hlock, name, body, hphase, hnext⟩ := hlaw
    exact stepped_commit hw hdir hk (hs s rfl) hlock hphase hnext he
  | rollback s => exact stepped_rollback hw hk (hs s rfl) he
  | close s =>
    obtain rfl : w' = w.setSession s none := he
    exact stepped_drop hw hk (hs s rfl)

end Steps

/-! ## Every run -/

/-- Two migrators have sessions of their own. -/
def Apart (h h' : List (Event MigrateOp MigrateOp.Res)) : Prop :=
  ∀ s, (progress h).session = some s → (progress h').session ≠ some s

/-- Sessions are opened one after the other. -/
theorem Exec.opened {sql : RunSql σ} {o : MigrateOp} {w w' : MigrateDB σ} {r : o.Res} (he : MigrateOp.Exec sql o w r w') :
    w.opened ≤ w'.opened := by
  have hstatement : ∀ {α : Type} {s : ℕ} {run : MigrateSession σ → MigrateDB σ → Except String α × MigrateDB σ} {r : Except String α},
      w.Statement s run r w' → (∀ x, (run x w).2.opened = w.opened) → w.opened ≤ w'.opened := by
    intro α s run r hst hrun
    obtain ⟨-, -, rfl⟩ | ⟨x, -, f, hf⟩ := hst
    · exact Nat.le_refl _
    · have hw' : w' = w ∨ w' = (run x w).2 := by
        have hstate := f.apply_state id (run x) w
        rwa [hf] at hstate
      rcases hw' with rfl | rfl
      · exact Nat.le_refl _
      · exact Nat.le_of_eq (hrun x).symm
  have hwrite : ∀ (x : MigrateSession σ) s new, (x.write s new w).opened = w.opened := by
    intro x s new
    unfold MigrateSession.write
    split <;> rfl
  cases o with
  | stat | sleep => exact Nat.le_of_eq (congrArg MigrateDB.opened he).symm
  | readDir | readFile => exact Nat.le_of_eq (congrArg MigrateDB.opened he.2).symm
  | sort => exact Nat.le_of_eq (congrArg MigrateDB.opened he.2.2).symm
  | connect =>
    obtain ⟨f, hf⟩ := he
    have hstate := f.apply_state id (fun w : MigrateDB σ =>
      (.ok w.opened, { w.setSession w.opened (some {}) with opened := w.opened + 1 })) w
    rw [hf] at hstate
    rcases hstate with h | h
    · exact Nat.le_of_eq (congrArg MigrateDB.opened h).symm
    · exact Nat.le_of_lt (Nat.lt_of_lt_of_eq (Nat.lt_succ_self _) (congrArg MigrateDB.opened h).symm)
  | createTable | tableExists | unlock | isApplied | begin | rollback => exact hstatement he fun _ => rfl
  | lock => exact hstatement he.1 fun _ => rfl
  | exec s body =>
    refine hstatement he fun x => ?_
    unfold execSql
    split
    · rfl
    · exact hwrite _ _ _
  | record s name =>
    refine hstatement he fun x => ?_
    unfold recordName
    split
    · rfl
    · exact hwrite _ _ _
  | commit s =>
    refine hstatement he fun x => ?_
    unfold commitTx
    split <;> rfl
  | close s => exact Nat.le_of_eq (congrArg MigrateDB.opened he).symm

section Runs

variable {sql : RunSql σ} {shipped : MigrationDir → Prop} {text : String → String} {schema₀ : σ} {others : List String}
  {p : Config (MigrateDB σ) UpCall MigrateOp MigrateOp.Res (Except String Unit)}

/-- What a replica has behind it. -/
theorem up_lawful (c : UpCall) : (up c.dir c.polls).After (Lawful c.dir) [] :=
  (up_obeys c.polls []).after

theorem apart {w₀ : MigrateDB σ} (w : MigrateDB σ) (ts₁ : List (Thread UpCall MigrateOp MigrateOp.Res (Except String Unit)))
    (t : Thread UpCall MigrateOp MigrateOp.Res (Except String Unit))
    (ts₂ : List (Thread UpCall MigrateOp MigrateOp.Res (Except String Unit)))
    (h : (sys sql shipped).Reach anyStep w₀ ⟨w, ts₁ ++ t :: ts₂⟩) : ∀ t' ∈ ts₁ ++ ts₂, Apart t.did t'.did := by
  intro t' ht' s hs hs'
  refine h.once_others (E := fun e => e = ⟨.connect, .ok s⟩) (F := fun w => s < w.opened) ?_ ?_ ?_ ⟨_, progress_session hs, rfl⟩
    t' ht' _
    (progress_session hs') rfl
  · intro o w r w' he heq
    obtain ⟨rfl, hr⟩ := Sigma.mk.inj heq
    obtain rfl := eq_of_heq hr
    obtain ⟨f, hf⟩ := he
    cases f with
    | none =>
      obtain ⟨hopened, rfl⟩ := Prod.mk.inj hf
      obtain rfl := Except.ok.inj hopened
      exact ⟨Nat.lt_irrefl _, Nat.lt_succ_self _⟩
    | before d => cases (Prod.mk.inj hf).1
    | after d => cases (Prod.mk.inj hf).1
  · exact fun o w r w' he hlt => Nat.lt_of_lt_of_le hlt (Exec.opened he)
  · rintro w w' (⟨others, rfl⟩ | ⟨s', rfl⟩) hlt
    · exact hlt
    · exact hlt

/-- **At every point of every run the schema is that of the recorded files**, and every replica knows what it should. -/
theorem known (hedit : Unedited shipped text) (h : (sys sql shipped).Reach anyStep (.fresh schema₀ others) p) :
    Sound sql shipped text schema₀ p.world ∧ ∀ t ∈ p.threads, shipped t.call.dir ∧
      (∀ d entries, ⟨.readDir d, .ok entries⟩ ∈ t.did → entries = d.entries) ∧
      Knows sql text t.call.dir p.world (progress t.did) := by
  refine h.known (K := fun c w h => shipped c.dir ∧ (∀ d entries, ⟨.readDir d, .ok entries⟩ ∈ h → entries = d.entries) ∧
    Knows sql text c.dir w (progress h)) up_lawful apart ?_ ?_ ?_ ?_
  · exact ⟨fun _ _ _ _ hx => (by cases hx), fun _ _ hx => (by cases hx), List.nodup_nil, rfl, fun _ _ => ⟨0, rfl⟩⟩
  · intro c w _ hready
    refine ⟨hready, fun _ _ hm => absurd hm List.not_mem_nil, ⟨?_, ?_, ?_, ?_, ?_⟩⟩
    · exact fun _ he => by cases he
    · exact fun _ he => absurd he List.not_mem_nil
    · exact fun _ he => absurd he List.not_mem_nil
    · exact fun _ he => by cases he
    · exact fun _ he => by cases he
  · rintro w w' c h o r hw ⟨hdir, hlisted, hk⟩ hlaw he
    have hstep := stepped hedit hdir hw hk hlisted hlaw he
    refine ⟨hstep.sound, ⟨hdir, fun d entries hm => ?_, hstep.own⟩, ?_⟩
    · rcases List.mem_append.1 hm with hm | hm
      · exact hlisted d entries hm
      · obtain ⟨rfl, hr⟩ := Sigma.mk.inj (List.mem_singleton.1 hm)
        obtain rfl := eq_of_heq hr
        obtain ⟨hread | ⟨e, he⟩, -⟩ := he
        · exact Except.ok.inj hread
        · cases he
    · rintro c' h' hapart ⟨hdir', hlisted', hk'⟩
      exact ⟨hdir', hlisted', hstep.others _ _ hapart hk'⟩
  · rintro w w' hw (⟨others, rfl⟩ | ⟨s, rfl⟩)
    · refine ⟨⟨hw.excl, hw.opened, hw.nodup, hw.schema, hw.ordered⟩, ?_⟩
      rintro c h ⟨hdir, hlisted, hk⟩
      exact ⟨hdir, hlisted, hk.frame rfl rfl (Nat.le_refl _) fun _ _ _ hx => hx⟩
    · refine ⟨hw.drop s, ?_⟩
      rintro c h ⟨hdir, hlisted, hk⟩
      refine ⟨hdir, hlisted, hk.frame rfl rfl (Nat.le_refl _) fun s' x hs' hx => ?_⟩
      by_cases hne : s' = s
      · rw [hne, MigrateDB.setSession_self] at hx
        cases hx
      · rwa [MigrateDB.setSession_other hne] at hx

/-- **Replicas that migrate at once leave what one of them would have left alone**, wherever any of them fails, crashes or loses its
connection.  The schema is that of the recorded files, run once each in the order of their numbers, with none left out between them;
a replica that reports success has all the files of its image recorded; and none finds a file recorded that it is about to record. -/
theorem replicas_agree (hedit : Unedited shipped text)
    {tr : List (Moment (MigrateDB σ) UpCall MigrateOp MigrateOp.Res (Except String Unit))}
    (h : (sys sql shipped).Trace (.fresh schema₀ others) tr p) :
    (replay sql text p.world.versions schema₀ = .ok p.world.schema ∧ p.world.versions.Nodup) ∧
      (∀ all, Released shipped text all → ∃ k, p.world.versions = all.take k) ∧
      (∀ t ∈ p.threads, t.rest = .ret (.ok ()) → ∀ name ∈ upFiles t.call.dir.entries, text name ≠ "" → name ∈ p.world.versions) ∧
      ∀ m ∈ tr, ∀ s name, m.op = .record s name → m.before.world.sessions s ≠ none → name ∉ m.before.world.versions := by
  obtain ⟨hw, hts⟩ := known hedit h.reach
  refine ⟨⟨hw.schema, hw.nodup⟩, hw.ordered, fun t ht hret name hname htext => ?_, fun m hm s name hop hlive => ?_⟩
  · obtain ⟨hdir, hlisted, hk⟩ := hts t ht
    have hends := h.reach.ends (fun c => (up_obeys c.polls []).ends) t ht
    rw [hret] at hends
    obtain ⟨entries, files, hread, hsorted, hdone⟩ := hends rfl
    obtain rfl := hlisted _ entries hread
    have hperm : files.Perm (upFiles t.call.dir.entries) := by
      have hevents := h.reach.events (E := fun e => ∀ names files, e = ⟨.sort names, files⟩ → files.Perm names) ?_ t ht _ hsorted
      · exact hevents _ _ rfl
      · intro o w r w' he names files heq
        obtain ⟨rfl, hr⟩ := Sigma.mk.inj heq
        obtain rfl := eq_of_heq hr
        exact he.1
    rcases hdone name (hperm.symm.subset hname) with hd | hb
    · exact hk.done name hd
    · exact absurd (hk.blank name hb) htext
  · obtain ⟨tr₁, tr₂, htr⟩ := List.append_of_mem hm
    obtain ⟨ts₁, ts₂, k, hthreads, -⟩ := (h.steps m hm).thread
    obtain ⟨-, -, hk⟩ := (known hedit (h.before htr).reach).2 m.thread (by rw [hthreads]; simp)
    have hlaw := h.prior up_lawful m hm
    rw [hop] at hlaw
    obtain ⟨hs, hlock, body, hphase⟩ := hlaw
    obtain ⟨x, hx⟩ := Option.ne_none_iff_exists'.1 hlive
    have hat := ((hk.own s (hs s rfl) x hx).2 hlock).2
    rw [hphase] at hat
    exact hat.1

end Runs

/-! ### A run -/

def firstFile : DirEntry := ⟨"001_venue_staff.up.sql", false, "CREATE TABLE venue_staff ();\n"⟩

def secondFile : DirEntry := ⟨"002_venue_crm_tasks.up.sql", false, "CREATE TABLE venue_crm_tasks ();\n"⟩

/-- An image, and the next one. -/
def releases : List MigrationDir := [⟨"\"/migrations\"", [firstFile]⟩, ⟨"\"/migrations\"", [firstFile, secondFile]⟩]

/-- Texts that can be run once. -/
def runOnce : RunSql (List String) := fun body tables => if body ∈ tables then .error "already exists" else .ok (tables ++ [body])

def textOf (name : String) : String :=
  if name = firstFile.name then trimSpace firstFile.body else if name = secondFile.name then trimSpace secondFile.body else ""

/-- A replica of the old image and one of the new start together. -/
def rollout : List (Move UpCall (Fault String)) :=
  [.start ⟨⟨"\"/migrations\"", [firstFile]⟩, 60⟩, .start ⟨⟨"\"/migrations\"", [firstFile, secondFile]⟩, 60⟩] ++
    List.replicate 4 (.step 0 .none) ++ List.replicate 4 (.step 1 .none) ++ List.replicate 11 (.step 0 .none) ++
    List.replicate 12 (.step 1 .none)

theorem unedited_releases : Unedited (· ∈ releases) textOf := by
  have hall : ∀ dir ∈ releases, ∀ e ∈ dir.entries, trimSpace e.body = textOf e.name := by decide +kernel
  intro dir hdir name body hbody
  obtain ⟨e, he, rfl⟩ := Option.map_eq_some_iff.1 hbody
  have hname := List.find?_some he
  rw [hall dir hdir e (List.mem_of_find?_eq_some he), beq_iff_eq.1 hname]

theorem replicas_agree_rollout : ∃ tr p, (sys runOnce (· ∈ releases)).Trace (.fresh [] ["venues"]) tr p ∧
    p.world.versions = [firstFile.name, secondFile.name] ∧ p.threads.length = 2 ∧
    replay runOnce textOf p.world.versions [] = .ok p.world.schema := by
  have hplay : (play (sys runOnce (· ∈ releases)).prog (MigrateOp.turn runOnce) rollout ⟨.fresh [] ["venues"], []⟩).any (fun x =>
      x.2.world.versions == [firstFile.name, secondFile.name] && x.2.threads.length == 2) = true := by decide +kernel
  obtain ⟨⟨tr, p⟩, hrun, hQ⟩ := (Option.any_eq_true _ _).1 hplay
  have hready : ∀ c w, Move.start c ∈ rollout → (sys runOnce (· ∈ releases)).ready c w := by
    intro c w hc
    have hcall : c = ⟨⟨"\"/migrations\"", [firstFile]⟩, 60⟩ ∨ c = ⟨⟨"\"/migrations\"", [firstFile, secondFile]⟩, 60⟩ := by
      simpa [rollout, List.mem_replicate] using hc
    rcases hcall with rfl | rfl
    · exact List.mem_cons_self
    · exact List.mem_cons_of_mem _ List.mem_cons_self
  have ht := Sys.Trace.play MigrateOp.exec_of_turn .init hready hrun
  simp only [Bool.and_eq_true, beq_iff_eq] at hQ
  exact ⟨_, p, ht, hQ.1, hQ.2, (replicas_agree unedited_releases ht).1.1⟩

end CrmMigrate

end Agregator
