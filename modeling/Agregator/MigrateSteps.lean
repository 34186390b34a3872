import Agregator.ConcMoments
import Agregator.Migrations
import Mathlib.Data.List.Induction
/-!
# MigrateSteps — how far a migrator has come

The history of a migrator tells which file it is at and what it has done about it (`progress`), and its program does the next thing
only there (`Lawful`).
-/
namespace Agregator

open Conc

variable {σ : Type}

/-! ## How far a migrator has come -/

/-- What has been done about the file at hand; `stuck` is a migrator that goes no further. -/
inductive Phase where
  | idle
  | stuck
  | checked (name : String)
  | read (name sql : String)
  | begun (name sql : String)
  | ran (name sql : String)
  | noted (name sql : String)

/-- `done` are the files known to be recorded, `blank` those with nothing to run. -/
structure Progress where
  session : Option ℕ := none
  locked  : Bool := false
  phase   : Phase := .idle
  files   : Option (List String) := none
  done    : List String := []
  blank   : List String := []

namespace Progress

def readText (g : Progress) (body : String) : Progress :=
  match g.phase with
  | .checked name =>
    if trimSpace body = "" then { g with phase := .idle, blank := name :: g.blank }
    else { g with phase := .read name (trimSpace body) }
  | _ => { g with phase := .stuck }

def beginTx (g : Progress) : Progress :=
  match g.phase with
  | .read name sql => { g with phase := .begun name sql }
  | _ => { g with phase := .stuck }

def runText (g : Progress) : Progress :=
  match g.phase with
  | .begun name sql => { g with phase := .ran name sql }
  | _ => { g with phase := .stuck }

def note (g : Progress) : Progress :=
  match g.phase with
  | .ran name sql => { g with phase := .noted name sql }
  | _ => { g with phase := .stuck }

def commitTx (g : Progress) : Progress :=
  match g.phase with
  | .noted name _ => { g with phase := .idle, done := name :: g.done }
  | _ => { g with phase := .stuck }

def step (g : Progress) : Event MigrateOp MigrateOp.Res → Progress
  | ⟨.connect, .ok s⟩ => { g with session := some s, locked := false, phase := .idle }
  | ⟨.lock _, .ok _⟩ => { g with locked := true }
  | ⟨.unlock _, _⟩ => { g with locked := false }
  | ⟨.sort _, files⟩ => { g with files := some files }
  | ⟨.isApplied _ name, .ok true⟩ => { g with phase := .idle, done := name :: g.done }
  | ⟨.isApplied _ name, .ok false⟩ => { g with phase := .checked name }
  | ⟨.readFile _ _, .ok body⟩ => g.readText body
  | ⟨.begin _, .ok _⟩ => g.beginTx
  | ⟨.exec _ _, .ok _⟩ => g.runText
  | ⟨.record _ _, .ok _⟩ => g.note
  | ⟨.commit _, .ok _⟩ => g.commitTx
  | ⟨.stat _, _⟩ | ⟨.createTable _, .ok _⟩ | ⟨.tableExists _ _, .ok _⟩ | ⟨.sleep, _⟩ | ⟨.readDir _, .ok _⟩ => g
  | _ => { g with phase := .stuck }

/-- Everything that comes before a file in the order of the run is recorded or blank. -/
def Next (g : Progress) (name : String) : Prop :=
  ∃ before rest, g.files = some (before ++ name :: rest) ∧ ∀ n ∈ before, n ∈ g.done ∨ n ∈ g.blank

end Progress

def progress (h : List (Event MigrateOp MigrateOp.Res)) : Progress := h.foldl Progress.step {}

@[simp] theorem progress_snoc (h : List (Event MigrateOp MigrateOp.Res)) (e : Event MigrateOp MigrateOp.Res) :
    progress (h ++ [e]) = (progress h).step e := by
  rw [progress, List.foldl_append]
  rfl

/-- What a migrator of `dir` has behind it before an operation. -/
def Lawful (dir : MigrationDir) (h : List (Event MigrateOp MigrateOp.Res)) (o : MigrateOp) : Prop :=
  let g := progress h
  (∀ s, o.session = some s → g.session = some s) ∧
    match o with
    | .lock _ => g.phase = .idle
    | .sort names => ∃ entries, ⟨.readDir dir, .ok entries⟩ ∈ h ∧ names = upFiles entries
    | .isApplied _ _ => g.locked = true ∧ g.phase = .idle
    | .readFile d name => d = dir ∧ g.locked = true ∧ g.phase = .checked name
    | .begin _ => g.locked = true ∧ ∃ name sql, g.phase = .read name sql
    | .exec _ sql => g.locked = true ∧ ∃ name, g.phase = .begun name sql
    | .record _ name => g.locked = true ∧ ∃ sql, g.phase = .ran name sql
    | .commit _ => g.locked = true ∧ ∃ name sql, g.phase = .noted name sql ∧ g.Next name
    | _ => True

theorem owns_none {o : MigrateOp} {session : Option ℕ} (h : o.session = none) (s : ℕ) (hs : o.session = some s) :
    session = some s := by
  rw [h] at hs
  cases hs

/-- The names that are left in the loop over the files. -/
def Left (s : ℕ) (files names : List String) (h : List (Event MigrateOp MigrateOp.Res)) : Prop :=
  let g := progress h
  g.session = some s ∧ g.locked = true ∧ g.phase = .idle ∧ g.files = some files ∧
    ∃ before, files = before ++ names ∧ ∀ n ∈ before, n ∈ g.done ∨ n ∈ g.blank

theorem Left.next {s : ℕ} {files rest : List String} {name : String} {h : List (Event MigrateOp MigrateOp.Res)}
    (hl : Left s files (name :: rest) h) : (progress h).Next name := by
  obtain ⟨-, -, -, hfiles, before, rfl, hbefore⟩ := hl
  exact ⟨before, rest, hfiles, hbefore⟩

/-- A part of a run that stays in its session and its list of files. -/
structure Progress.Grows (g g' : Progress) : Prop where
  session : g'.session = g.session
  locked : g'.locked = g.locked
  files : g'.files = g.files
  done : ∀ n ∈ g.done, n ∈ g'.done
  blank : ∀ n ∈ g.blank, n ∈ g'.blank

namespace Progress.Grows

variable {g g₁ g₂ g₃ : Progress}

theorem refl (g : Progress) : g.Grows g := ⟨rfl, rfl, rfl, fun _ h => h, fun _ h => h⟩

theorem trans (h₁ : g₁.Grows g₂) (h₂ : g₂.Grows g₃) : g₁.Grows g₃ where
  session := h₂.session.trans h₁.session
  locked := h₂.locked.trans h₁.locked
  files := h₂.files.trans h₁.files
  done n hn := h₂.done n (h₁.done n hn)
  blank n hn := h₂.blank n (h₁.blank n hn)

theorem phase (g : Progress) (ph : Phase) : g.Grows { g with phase := ph } := ⟨rfl, rfl, rfl, fun _ h => h, fun _ h => h⟩

theorem recorded (g : Progress) (name : String) : g.Grows { g with phase := .idle, done := name :: g.done } :=
  ⟨rfl, rfl, rfl, fun _ hn => List.mem_cons_of_mem _ hn, fun _ hn => hn⟩

/-- An answer that is an error changes nothing of what has been done. -/
theorem stuck {e : Event MigrateOp MigrateOp.Res} (hg : g.Grows g₁) (he : g₁.step e = { g₁ with phase := .stuck }) :
    g.Grows (g₁.step e) := by
  rw [he]
  exact hg.trans (.phase _ _)

end Progress.Grows

/-- The file at hand is behind once it is recorded or blank. -/
theorem Left.tail {s : ℕ} {files rest : List String} {name : String} {h h' : List (Event MigrateOp MigrateOp.Res)}
    (hl : Left s files (name :: rest) h) (hg : (progress h).Grows (progress h'))
    (hidle : (progress h').phase = .idle) (hname : name ∈ (progress h').done ∨ name ∈ (progress h').blank) :
    Left s files rest h' := by
  obtain ⟨hs, hlock, -, hfiles, before, rfl, hbefore⟩ := hl
  refine ⟨hg.session.trans hs, hg.locked.trans hlock, hidle, hg.files.trans hfiles, before ++ [name], by simp, fun n hn => ?_⟩
  rcases List.mem_append.1 hn with hn | hn
  · exact (hbefore n hn).imp (hg.done n) (hg.blank n)
  · rw [List.mem_singleton.1 hn]
    exact hname

theorem step_session {g : Progress} {e : Event MigrateOp MigrateOp.Res} {s : ℕ} (h : (g.step e).session = some s) :
    g.session = some s ∨ e = ⟨.connect, .ok s⟩ := by
  have hsub : ∀ {g' : Progress}, g'.session = g.session → g'.session = some s → g.session = some s := fun h₁ h₂ => h₁.symm.trans h₂
  unfold Progress.step at h
  split at h
  case h_1 => exact .inr (by rw [Option.some.inj h])
  case h_7 => exact .inl (hsub (by unfold Progress.readText; split <;> (try split) <;> rfl) h)
  case h_8 => exact .inl (hsub (by unfold Progress.beginTx; split <;> rfl) h)
  case h_9 => exact .inl (hsub (by unfold Progress.runText; split <;> rfl) h)
  case h_10 => exact .inl (hsub (by unfold Progress.note; split <;> rfl) h)
  case h_11 => exact .inl (hsub (by unfold Progress.commitTx; split <;> rfl) h)
  all_goals exact .inl h

/-- A migrator's session is one it has opened. -/
theorem progress_session {h : List (Event MigrateOp MigrateOp.Res)} {s : ℕ} (hs : (progress h).session = some s) :
    ⟨.connect, .ok s⟩ ∈ h := by
  induction h using List.reverseRecOn with
  | nil => cases hs
  | append_singleton h e ih =>
    rw [progress_snoc] at hs
    rcases step_session hs with hs | rfl
    · exact List.mem_append_left _ (ih hs)
    · exact List.mem_append_right _ List.mem_cons_self

/-! ## The programs -/

/-- What running and recording one file makes of the history. -/
def FileApplied (name : String) (h h' : List (Event MigrateOp MigrateOp.Res)) (res : Except String Unit) : Prop :=
  (progress h).Grows (progress h') ∧ (res = .ok () → (progress h').phase = .idle ∧ name ∈ (progress h').done)

/-- A way to run a file and record it that does so in its session, where everything before the file is behind. -/
def Applies (dir : MigrationDir) (s : ℕ) (apply : String → String → MigrateProg (Except String Unit)) : Prop :=
  ∀ name sql h, (progress h).session = some s → (progress h).locked = true → (progress h).phase = .read name sql →
    (progress h).Next name → (apply name sql).Obeys (Lawful dir) (FileApplied name h) h

/-- Every file of a directory is recorded or blank. -/
def Complete (dir : MigrationDir) (h : List (Event MigrateOp MigrateOp.Res)) : Prop :=
  ∃ entries files, ⟨.readDir dir, .ok entries⟩ ∈ h ∧ ⟨.sort (upFiles entries), files⟩ ∈ h ∧
    ∀ n ∈ files, n ∈ (progress h).done ∨ n ∈ (progress h).blank

/-- What is behind a migrator stays behind it. -/
theorem Progress.step_keeps (g : Progress) (e : Event MigrateOp MigrateOp.Res) :
    (∀ n ∈ g.done, n ∈ (g.step e).done) ∧ ∀ n ∈ g.blank, n ∈ (g.step e).blank := by
  have hkeep : ∀ (ns ms : List String), (∀ n ∈ ns, n ∈ ns) ∧ ∀ n ∈ ms, n ∈ ms := fun _ _ => ⟨fun _ hn => hn, fun _ hn => hn⟩
  have hdone : ∀ (name : String) (ns ms : List String), (∀ n ∈ ns, n ∈ name :: ns) ∧ ∀ n ∈ ms, n ∈ ms :=
    fun _ _ _ => ⟨fun _ hn => List.mem_cons_of_mem _ hn, fun _ hn => hn⟩
  unfold Progress.step
  split
  case h_5 => exact hdone _ _ _
  case h_7 =>
    unfold Progress.readText
    split
    · split
      · exact ⟨fun _ hn => hn, fun _ hn => List.mem_cons_of_mem _ hn⟩
      · exact hkeep _ _
    · exact hkeep _ _
  case h_8 =>
    unfold Progress.beginTx
    split <;> exact hkeep _ _
  case h_9 =>
    unfold Progress.runText
    split <;> exact hkeep _ _
  case h_10 =>
    unfold Progress.note
    split <;> exact hkeep _ _
  case h_11 =>
    unfold Progress.commitTx
    split
    · exact hdone _ _ _
    · exact hkeep _ _
  all_goals exact hkeep _ _

theorem Complete.mono {dir : MigrationDir} : ∀ {l h : List (Event MigrateOp MigrateOp.Res)}, Complete dir h →
    Complete dir (h ++ l)
  | [], h, hc => by rwa [List.append_nil]
  | e :: l, h, hc => by
    obtain ⟨entries, files, hread, hsorted, hdone⟩ := hc
    rw [List.append_cons]
    refine Complete.mono ⟨entries, files, List.mem_append_left _ hread, List.mem_append_left _ hsorted, fun n hn => ?_⟩
    obtain ⟨hd, hb⟩ := (progress h).step_keeps e
    rw [progress_snoc]
    exact (hdone n hn).imp (hd n) (hb n)

/-- What a migrator has behind it when it comes back to its session. -/
def Back (s : ℕ) (Q : List (Event MigrateOp MigrateOp.Res) → Prop) (h : List (Event MigrateOp MigrateOp.Res))
    (res : Except String Unit) : Prop :=
  (progress h).session = some s ∧ (res = .ok () → Q h)

section Loop

variable {s : ℕ} {dir : MigrationDir} {h : List (Event MigrateOp MigrateOp.Res)}
  {apply : String → String → MigrateProg (Except String Unit)}

theorem back_error {Q : List (Event MigrateOp MigrateOp.Res) → Prop} (hs : (progress h).session = some s) (e : String) :
    Back s Q h (.error e) := ⟨hs, fun he => by cases he⟩

theorem applyAll_obeys (happly : Applies dir s apply) (files : List String) : ∀ (names : List String)
    (h : List (Event MigrateOp MigrateOp.Res)), Left s files names h → (applyAll apply s dir names).Obeys (Lawful dir)
      (Back s fun h => ∀ n ∈ files, n ∈ (progress h).done ∨ n ∈ (progress h).blank) h
  | [], h, hl => by
    obtain ⟨hs, -, -, -, before, rfl, hbefore⟩ := hl
    rw [List.append_nil]
    exact ⟨hs, fun _ => hbefore⟩
  | name :: rest, h, hl => by
    simp only [applyAll, Prog.bind_eq, MigrateOp.call, Prog.perform_bind, Prog.pure_eq]
    have hs : (progress h).session = some s := hl.1
    refine ⟨⟨fun _ he => hs.trans he, hl.2.1, hl.2.2.1⟩, fun r => ?_⟩
    cases r with
    | error e => exact back_error (by rw [progress_snoc]; exact hs) _
    | ok b =>
      cases b with
      | true =>
        have hseen : progress (h ++ [⟨.isApplied s name, .ok true⟩]) =
            { progress h with phase := .idle, done := name :: (progress h).done } := progress_snoc h _
        refine applyAll_obeys happly files rest _ (hl.tail ?_ (by rw [hseen]) (.inl ?_))
        · rw [hseen]
          exact .recorded _ _
        · rw [hseen]
          exact List.mem_cons_self
      | false =>
        have hchecked : progress (h ++ [⟨.isApplied s name, .ok false⟩]) = { progress h with phase := .checked name } :=
          progress_snoc h _
        refine ⟨⟨owns_none rfl, rfl, by rw [hchecked]; exact hl.2.1, by rw [hchecked]⟩, fun r => ?_⟩
        cases r with
        | error e =>
          refine back_error ?_ _
          rw [progress_snoc, hchecked]
          exact hs
        | ok body =>
          dsimp only
          by_cases hblank : trimSpace body = ""
          · rw [if_pos hblank]
            have hread : progress (h ++ [⟨.isApplied s name, .ok false⟩] ++ [⟨.readFile dir name, .ok body⟩]) =
                { progress h with phase := .idle, blank := name :: (progress h).blank } := by
              rw [progress_snoc, hchecked]
              exact if_pos hblank
            refine applyAll_obeys happly files rest _ (hl.tail ?_ (by rw [hread]) (.inr ?_))
            · rw [hread]
              exact ⟨rfl, rfl, rfl, fun _ hn => hn, fun n hn => List.mem_cons_of_mem _ hn⟩
            · rw [hread]
              exact List.mem_cons_self
          · rw [if_neg hblank]
            have hread : progress (h ++ [⟨.isApplied s name, .ok false⟩] ++ [⟨.readFile dir name, .ok body⟩]) =
                { progress h with phase := .read name (trimSpace body) } := by
              rw [progress_snoc, hchecked]
              exact if_neg hblank
            generalize h ++ [⟨.isApplied s name, .ok false⟩] ++ [⟨.readFile dir name, .ok body⟩] = h₁ at hread
            have hgrows : (progress h).Grows (progress h₁) := by
              rw [hread]
              exact .phase _ _
            refine Prog.Obeys.bind ((happly name (trimSpace body) h₁ (hgrows.session.trans hs) (hgrows.locked.trans hl.2.1)
              (by rw [hread]) (by rw [hread]; exact hl.next)).mono fun h' a happlied => ?_)
            obtain ⟨hafter, hdone⟩ := happlied
            cases a with
            | error e => exact back_error ((hgrows.trans hafter).session.trans hs) _
            | ok u => exact applyAll_obeys happly files rest h' (hl.tail (hgrows.trans hafter) (hdone rfl).1 (.inl (hdone rfl).2))

theorem readAndApply_obeys (happly : Applies dir s apply) (hs : (progress h).session = some s)
    (hlock : (progress h).locked = true) (hidle : (progress h).phase = .idle) :
    (readAndApply apply s dir).Obeys (Lawful dir) (Back s (Complete dir)) h := by
  simp only [readAndApply, Prog.bind_eq, MigrateOp.call, Prog.perform_bind, Prog.pure_eq]
  refine ⟨⟨owns_none rfl, trivial⟩, fun r => ?_⟩
  cases r with
  | error e => exact back_error (by rw [progress_snoc]; exact hs) _
  | ok entries =>
    refine ⟨⟨owns_none rfl, entries, List.mem_append_right _ List.mem_cons_self, rfl⟩, fun files => ?_⟩
    generalize hh₁ : h ++ [_] ++ [_] = h₁
    have hread : (⟨.readDir dir, .ok entries⟩ : Event MigrateOp MigrateOp.Res) ∈ h₁ := by simp [← hh₁]
    have hsorted : (⟨.sort (upFiles entries), files⟩ : Event MigrateOp MigrateOp.Res) ∈ h₁ := by simp [← hh₁]
    have hprogress : progress h₁ = { progress h with files := some files } := by
      rw [← hh₁, progress_snoc, progress_snoc]
      rfl
    have hleft : Left s files files h₁ := by
      unfold Left
      rw [hprogress]
      exact ⟨hs, hlock, hidle, rfl, [], rfl, by simp⟩
    refine (applyAll_obeys happly files files h₁ hleft).grows.mono fun h' a hback => ?_
    obtain ⟨hpre, hs', hdone⟩ := hback
    exact ⟨hs', fun hok => ⟨entries, files, hpre.subset hread, hpre.subset hsorted, hdone hok⟩⟩

end Loop

section Programs

variable {dir : MigrationDir} {h : List (Event MigrateOp MigrateOp.Res)}

/-- The end of a transaction that has failed. -/
theorem CrmMigrate.rollback_obeys {s : ℕ} {name : String} {h' : List (Event MigrateOp MigrateOp.Res)}
    (hg : (progress h).Grows (progress h')) (hs : (progress h).session = some s) (e : String) :
    (Prog.call (.rollback s) fun _ => .ret (.error e) : MigrateProg (Except String Unit)).Obeys (Lawful dir) (FileApplied name h)
      h' :=
  ⟨⟨fun _ he => (hg.session.trans hs).trans he, trivial⟩,
    fun _ => ⟨by rw [progress_snoc]; exact .stuck hg rfl, fun he => by cases he⟩⟩

theorem CrmMigrate.applies (s : ℕ) : Applies dir s (CrmMigrate.apply s) := by
  intro name sql h hs hlock hphase hnext
  simp only [CrmMigrate.apply, Prog.bind_eq, MigrateOp.call, Prog.perform_bind, Prog.pure_eq]
  refine ⟨⟨fun _ he => hs.trans he, hlock, name, sql, hphase⟩, fun r => ?_⟩
  cases r with
  | error e => exact ⟨by rw [progress_snoc]; exact .stuck (.refl _) rfl, fun he => by cases he⟩
  | ok u₁ =>
    have hbegun : progress (h ++ [⟨.begin s, .ok u₁⟩]) = { progress h with phase := .begun name sql } := by
      rw [progress_snoc]
      simp only [Progress.step, Progress.beginTx, hphase]
    generalize h ++ [⟨.begin s, .ok u₁⟩] = h₁ at hbegun
    have hg₁ : (progress h).Grows (progress h₁) := by
      rw [hbegun]
      exact .phase _ _
    refine ⟨⟨fun _ he => (hg₁.session.trans hs).trans he, hg₁.locked.trans hlock, name, by rw [hbegun]⟩, fun r => ?_⟩
    cases r with
    | error e =>
      refine CrmMigrate.rollback_obeys ?_ hs _
      rw [progress_snoc]
      exact .stuck hg₁ rfl
    | ok u₂ =>
      have hran : progress (h₁ ++ [⟨.exec s sql, .ok u₂⟩]) = { progress h with phase := .ran name sql } := by
        rw [progress_snoc]
        simp only [Progress.step, Progress.runText, hbegun]
      generalize h₁ ++ [⟨.exec s sql, .ok u₂⟩] = h₂ at hran
      have hg₂ : (progress h).Grows (progress h₂) := by
        rw [hran]
        exact .phase _ _
      refine ⟨⟨fun _ he => (hg₂.session.trans hs).trans he, hg₂.locked.trans hlock, sql, by rw [hran]⟩, fun r => ?_⟩
      cases r with
      | error e =>
        refine CrmMigrate.rollback_obeys ?_ hs _
        rw [progress_snoc]
        exact .stuck hg₂ rfl
      | ok u₃ =>
        have hnoted : progress (h₂ ++ [⟨.record s name, .ok u₃⟩]) = { progress h with phase := .noted name sql } := by
          rw [progress_snoc, hran]
          rfl
        generalize h₂ ++ [⟨.record s name, .ok u₃⟩] = h₃ at hnoted
        have hg₃ : (progress h).Grows (progress h₃) := by
          rw [hnoted]
          exact .phase _ _
        refine ⟨⟨fun _ he => (hg₃.session.trans hs).trans he, hg₃.locked.trans hlock, name, sql, by rw [hnoted],
          by rw [hnoted]; exact hnext⟩,
          fun r => ?_⟩
        cases r with
        | error e => exact ⟨by rw [progress_snoc]; exact .stuck hg₃ rfl, fun he => by cases he⟩
        | ok u₄ =>
          have hdone : progress (h₃ ++ [⟨.commit s, .ok u₄⟩]) =
              { progress h with phase := .idle, done := name :: (progress h).done } := by
            rw [progress_snoc, hnoted]
            rfl
          constructor
          · rw [hdone]
            exact .recorded _ _
          · intro
            rw [hdone]
            exact ⟨rfl, List.mem_cons_self⟩

theorem close_obeys {s : ℕ} {res : Except String Unit} (hback : Back s (Complete dir) h res) :
    (Prog.call (.close s) fun _ => .ret res : MigrateProg (Except String Unit)).Obeys (Lawful dir)
      (fun h a => a = .ok () → Complete dir h) h :=
  ⟨⟨fun _ he => hback.1.trans he, trivial⟩, fun _ hok => (hback.2 hok).mono⟩

theorem withConnection_obeys {run : ℕ → MigrateProg (Except String Unit)}
    (hrun : ∀ s h, (progress h).session = some s → (progress h).locked = false → (progress h).phase = .idle →
      (run s).Obeys (Lawful dir) (Back s (Complete dir)) h) (h : List (Event MigrateOp MigrateOp.Res)) :
    (withConnection dir run).Obeys (Lawful dir) (fun h a => a = .ok () → Complete dir h) h := by
  simp only [withConnection, Prog.bind_eq, MigrateOp.call, Prog.perform_bind, Prog.pure_eq]
  refine ⟨⟨owns_none rfl, trivial⟩, fun r => ?_⟩
  cases r with
  | error e => exact fun he => by cases he
  | ok there =>
    cases there with
    | false => exact fun he => by cases he
    | true =>
      refine ⟨⟨owns_none rfl, trivial⟩, fun r => ?_⟩
      cases r with
      | error e => exact fun he => by cases he
      | ok s =>
        generalize hh₁ : h ++ [_] ++ [_] = h₁
        have hprogress : progress h₁ = { progress h with session := some s, locked := false, phase := .idle } := by
          rw [← hh₁, progress_snoc, progress_snoc]
          rfl
        refine ⟨⟨fun _ he => (congrArg Progress.session hprogress).trans he, trivial⟩, fun r => ?_⟩
        cases r with
        | error e =>
          refine close_obeys (back_error ?_ _)
          rw [progress_snoc, hprogress]
          rfl
        | ok u =>
          refine Prog.Obeys.bind ((hrun s _ ?_ ?_ ?_).mono fun h' a hback => close_obeys hback)
          · rw [progress_snoc, hprogress]
            rfl
          · rw [progress_snoc, hprogress]
            rfl
          · rw [progress_snoc, hprogress]
            rfl

namespace CrmMigrate

variable {s : ℕ}

/-- What waiting makes of the history. -/
def Waited (s : ℕ) (h : List (Event MigrateOp MigrateOp.Res)) : Prop :=
  (progress h).session = some s ∧ (progress h).locked = false ∧ (progress h).phase = .idle

theorem Waited.snoc {e : Event MigrateOp MigrateOp.Res} (hw : Waited s h) (he : (progress h).step e = progress h) :
    Waited s (h ++ [e]) := by
  unfold Waited
  rw [progress_snoc, he]
  exact hw

/-- The wait goes on in the session, and an error ends it. -/
def Waits (s : ℕ) {α : Type} (h : List (Event MigrateOp MigrateOp.Res)) (res : Except String α) : Prop :=
  (progress h).session = some s ∧ ((∃ a, res = .ok a) → Waited s h)

theorem waits_error {α : Type} (hs : (progress h).session = some s) (e : String) : Waits s h (.error e : Except String α) :=
  ⟨hs, fun hok => by obtain ⟨a, ha⟩ := hok; cases ha⟩

theorem pollTable_obeys {table : String} {polls : ℕ} {again : MigrateProg (Except String ℕ)} (hw : Waited s h)
    (hagain : ∀ h, Waited s h → again.Obeys (Lawful dir) (Waits s) h) :
    (pollTable s table polls again).Obeys (Lawful dir) (Waits s) h := by
  simp only [pollTable, Prog.bind_eq, MigrateOp.call, Prog.perform_bind, Prog.pure_eq]
  refine ⟨⟨fun _ he => hw.1.trans he, trivial⟩, fun r => ?_⟩
  cases r with
  | error e =>
    refine waits_error ?_ _
    rw [progress_snoc]
    exact hw.1
  | ok there =>
    have hw' : Waited s (h ++ [⟨.tableExists s table, .ok there⟩]) := hw.snoc rfl
    cases there with
    | true => exact ⟨hw'.1, fun _ => hw'⟩
    | false => exact hagain _ hw'

theorem waitForTable_obeys (table : String) : ∀ (polls : ℕ) (h : List (Event MigrateOp MigrateOp.Res)), Waited s h →
    (waitForTable s table polls).Obeys (Lawful dir) (Waits s) h
  | 0, _, hw => pollTable_obeys hw fun _ hw' => waits_error hw'.1 _
  | polls + 1, _, hw => by
    refine pollTable_obeys hw fun h hw => ?_
    simp only [Prog.bind_eq, MigrateOp.call, Prog.perform_bind, Prog.pure_eq]
    refine ⟨⟨owns_none rfl, trivial⟩, fun r => ?_⟩
    have hw' : Waited s (h ++ [⟨.sleep, r⟩]) := hw.snoc rfl
    cases r with
    | true => exact waitForTable_obeys table polls _ hw'
    | false => exact waits_error hw'.1 _

theorem waitForTables_obeys : ∀ (tables : List String) (polls : ℕ) (h : List (Event MigrateOp MigrateOp.Res)), Waited s h →
    (waitForTables s tables polls).Obeys (Lawful dir) (Waits s) h
  | [], _, _, hw => ⟨hw.1, fun _ => hw⟩
  | table :: tables, polls, h, hw => by
    refine Prog.Obeys.bind ((waitForTable_obeys table polls h hw).mono fun h' a hwaits => ?_)
    cases a with
    | error e => exact waits_error hwaits.1 e
    | ok polls => exact waitForTables_obeys tables polls h' (hwaits.2 ⟨polls, rfl⟩)

theorem up_obeys (polls : ℕ) (h : List (Event MigrateOp MigrateOp.Res)) :
    (up dir polls).Obeys (Lawful dir) (fun h a => a = .ok () → Complete dir h) h := by
  refine withConnection_obeys (fun s h hs hlock hidle => ?_) h
  refine Prog.Obeys.bind ((waitForTables_obeys dependencyTables polls h ⟨hs, hlock, hidle⟩).mono fun h a hwaits => ?_)
  cases a with
  | error e => exact back_error hwaits.1 e
  | ok u =>
    obtain ⟨hs, -, hidle⟩ := hwaits.2 ⟨u, rfl⟩
    simp only [Prog.bind_eq, MigrateOp.call, Prog.perform_bind, Prog.pure_eq]
    refine ⟨⟨fun _ he => hs.trans he, hidle⟩, fun r => ?_⟩
    cases r with
    | error e => exact back_error (by rw [progress_snoc]; exact hs) _
    | ok u' =>
      dsimp only
      refine Prog.Obeys.bind ((readAndApply_obeys (applies s) ?_ ?_ ?_).mono fun h' a hback => ?_)
      · rw [progress_snoc]
        exact hs
      · rw [progress_snoc]
        rfl
      · rw [progress_snoc]
        exact hidle
      · refine ⟨⟨fun _ he => hback.1.trans he, trivial⟩, fun r => ⟨?_, fun hok => (hback.2 hok).mono⟩⟩
        rw [progress_snoc]
        exact hback.1

end CrmMigrate

end Programs

end Agregator
