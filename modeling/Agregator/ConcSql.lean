import Mathlib.Data.Int.Notation
import Agregator.ConcMoments
/-!
# ConcSql — calls over tables

A pool of calls that run statements, read the clock and draw identifiers.  A statement takes effect at once, and may fail
before that or after.
-/
namespace Conc

inductive SqlOp (Stmt : Type) where
  | sql (s : Stmt)
  | now
  | fresh
deriving DecidableEq

structure SqlWorld (DB : Type) where
  db     : DB
  clock  : ℤ
  issued : List String

variable {Stmt ε DB Call α : Type} {Ans : Stmt → Type}

@[reducible] def SqlOp.Res (ε : Type) (Ans : Stmt → Type) : SqlOp Stmt → Type
  | .sql s => Except ε (Ans s)
  | .now => ℤ
  | .fresh => String

/-- What the statements do at a time, and the identifiers there are. -/
structure SqlRules (ε DB : Type) (Ans : Stmt → Type) where
  run   : ℤ → (s : Stmt) → DB → Except ε (Ans s) × DB
  isID  : String → Bool

namespace SqlOp

variable (R : SqlRules ε DB Ans)

def Exec : (o : SqlOp Stmt) → SqlWorld DB → o.Res ε Ans → SqlWorld DB → Prop
  | .sql s, w, r, w' => ∃ f : Fault ε, f.apply id (R.run w.clock s) w.db = (r, w'.db) ∧ w' = { w with db := w'.db }
  | .now, w, r, w' => r = w.clock ∧ w' = w
  | .fresh, w, r, w' => R.isID r = true ∧ r ∉ w.issued ∧ w' = { w with issued := r :: w.issued }

variable {R} {o : SqlOp Stmt} {w w' : SqlWorld DB}

/-- A statement that succeeds has been run. -/
theorem Exec.ok {s : Stmt} {a : Ans s} (h : Exec R (.sql s) w (.ok a) w') : R.run w.clock s w.db = (.ok a, w'.db) := by
  obtain ⟨f, hrun, -⟩ := h
  exact Fault.of_ok hrun

/-- An operation leaves the tables as they are, or does what its statement does. -/
theorem Exec.db {r : o.Res ε Ans} (h : Exec R o w r w') :
    w'.db = w.db ∨ ∃ s, o = .sql s ∧ w'.db = (R.run w.clock s w.db).2 := by
  cases o with
  | sql s =>
    obtain ⟨f, hrun, -⟩ := h
    rcases f.apply_state id (R.run w.clock s) w.db with hdb | hdb
    · exact .inl (by rw [← hdb, hrun])
    · exact .inr ⟨s, rfl, by rw [← hdb, hrun]⟩
  | now => exact .inl (by rw [h.2])
  | fresh => exact .inl (by rw [h.2.2])

/-- A statement that nothing happens to. -/
theorem exec_of_run {s : Stmt} {r : Except ε (Ans s)} {db : DB} (h : R.run w.clock s w.db = (r, db)) :
    Exec R (.sql s) w r { w with db := db } := ⟨.none, h, rfl⟩

/-- A statement takes no time. -/
theorem Exec.clock {r : o.Res ε Ans} (h : Exec R o w r w') : w'.clock = w.clock := by
  cases o with
  | sql s =>
    obtain ⟨f, -, hw⟩ := h
    rw [hw]
  | now => rw [h.2]
  | fresh => rw [h.2.2]

/-- What has been drawn stays drawn. -/
theorem Exec.issued {r : o.Res ε Ans} (h : Exec R o w r w') {id : String} (hid : id ∈ w.issued) : id ∈ w'.issued := by
  cases o with
  | sql s =>
    obtain ⟨f, -, hw⟩ := h
    rw [hw]
    exact hid
  | now => rwa [h.2]
  | fresh =>
    rw [h.2.2]
    exact List.mem_cons_of_mem _ hid

/-- An operation whose statement does not fail; `id` is the identifier that is drawn. -/
def turn (R : SqlRules ε DB Ans) (id : String) :
    (o : SqlOp Stmt) → SqlWorld DB → Option (o.Res ε Ans × SqlWorld DB)
  | .sql s, w => some ((R.run w.clock s w.db).1, { w with db := (R.run w.clock s w.db).2 })
  | .now, w => some (w.clock, w)
  | .fresh, w => if R.isID id = true ∧ id ∉ w.issued then some (id, { w with issued := id :: w.issued }) else none

theorem exec_of_turn (id : String) (o : SqlOp Stmt) (w : SqlWorld DB) (r : o.Res ε Ans) (w' : SqlWorld DB)
    (h : o.turn R id w = some (r, w')) : Exec R o w r w' := by
  cases o with
  | sql s =>
    obtain ⟨rfl, rfl⟩ := Prod.mk.inj (Option.some.inj h)
    exact ⟨.none, rfl, rfl⟩
  | now =>
    obtain ⟨rfl, rfl⟩ := Prod.mk.inj (Option.some.inj h)
    exact ⟨rfl, rfl⟩
  | fresh =>
    simp only [turn] at h
    by_cases hid : R.isID id = true ∧ id ∉ w.issued
    · rw [if_pos hid] at h
      obtain ⟨rfl, rfl⟩ := Prod.mk.inj (Option.some.inj h)
      exact ⟨hid.1, hid.2, rfl⟩
    · rw [if_neg hid] at h
      cases h

end SqlOp

/-- What follows a program knows what was behind that program. -/
theorem Prog.After.bind_grows {Op β : Type} {Res : Op → Type} {P : List (Event Op Res) → Op → Prop} {f : α → Prog Op Res β} :
    ∀ {p : Prog Op Res α} {h : List (Event Op Res)}, (∀ h' a, h <+: h' → (f a).After P h') → p.After P h → (p.bind f).After P h
  | .ret a, h, hf, _ => hf h a List.prefix_rfl
  | .call _ _, h, hf, hp =>
    ⟨hp.1, fun r => Prog.After.bind_grows (fun h' a hh => hf h' a ((List.prefix_append h _).trans hh)) (hp.2 r)⟩

theorem Prog.After.ite {Op : Type} {Res : Op → Type} {P : List (Event Op Res) → Op → Prop} {p : Prop} [Decidable p]
    {p₁ p₂ : Prog Op Res α} {h : List (Event Op Res)} (h₁ : p₁.After P h) (h₂ : p₂.After P h) :
    (if p then p₁ else p₂).After P h := by
  by_cases hp : p
  · rwa [if_pos hp]
  · rwa [if_neg hp]

/-- Time passes. -/
def SqlWorld.Passes (w w' : SqlWorld DB) : Prop := ∃ later, w.clock ≤ later ∧ w' = { w with clock := later }

/-- Any number of calls at once. -/
def sqlSys (R : SqlRules ε DB Ans) (prog : Call → Prog (SqlOp Stmt) (SqlOp.Res ε Ans) α) :
    Sys (SqlWorld DB) Call (SqlOp Stmt) (SqlOp.Res ε Ans) α where
  prog := prog
  ready _ _ := True
  exec := SqlOp.Exec R
  env := SqlWorld.Passes

section Runs

variable {R : SqlRules ε DB Ans} {prog : Call → Prog (SqlOp Stmt) (SqlOp.Res ε Ans) α} {w₀ : SqlWorld DB}
  {tr₁ tr₂ : List (Moment (SqlWorld DB) Call (SqlOp Stmt) (SqlOp.Res ε Ans) α)}
  {d : Moment (SqlWorld DB) Call (SqlOp Stmt) (SqlOp.Res ε Ans) α}
  {c : Config (SqlWorld DB) Call (SqlOp Stmt) (SqlOp.Res ε Ans) α}

/-- What a statement that has succeeded has done. -/
theorem Sys.Trace.ran {tr : List (Moment (SqlWorld DB) Call (SqlOp Stmt) (SqlOp.Res ε Ans) α)} (h : (sqlSys R prog).Trace w₀ tr c)
    (hd : d ∈ tr) {s : Stmt} {a : Ans s} (he : d.event = ⟨.sql s, .ok a⟩) :
    R.run d.before.world.clock s d.before.world.db = (.ok a, d.after.db) := by
  have hstep := (h.steps d hd).exec
  obtain ⟨b, t, o, r, w'⟩ := d
  cases he
  exact SqlOp.Exec.ok hstep

/-- **What every statement keeps of the tables from a moment on, is kept.** -/
theorem Sys.Trace.keeps_db (h : (sqlSys R prog).Trace w₀ (tr₁ ++ d :: tr₂) c) {F : DB → Prop} (hF : F d.after.db)
    (hop : ∀ m ∈ tr₂, ∀ s, m.op = .sql s → F m.before.world.db → F (R.run m.before.world.clock s m.before.world.db).2) :
    F c.world.db := by
  refine h.keeps_from (F := fun w => F w.db) hF (fun m hm hstep hw => ?_) ?_
  · rcases SqlOp.Exec.db hstep.exec with hdb | ⟨s, ho, hdb⟩
    · rw [hdb]
      exact hw
    · rw [hdb]
      exact hop m hm s ho hw
  · rintro w w' ⟨later, -, rfl⟩ hw
    exact hw

/-- The tables at the end are those of the beginning, or some moment has left them so. -/
theorem Sys.Trace.db_origin {tr : List (Moment (SqlWorld DB) Call (SqlOp Stmt) (SqlOp.Res ε Ans) α)} (h : (sqlSys R prog).Trace w₀ tr c) :
    c.world.db = w₀.db ∨ ∃ m ∈ tr, m.after.db = c.world.db := by
  induction h with
  | init => exact .inl rfl
  | start c _ _ ih => exact ih
  | perform w' ts₁ ts₂ r _ _ _ => exact .inr ⟨_, List.mem_append_right _ (List.mem_singleton.2 rfl), rfl⟩
  | env _ he ih =>
    obtain ⟨later, -, rfl⟩ := he
    exact ih

/-- **An identifier is drawn by one call only.** -/
theorem Sys.Trace.drawn_once {tr : List (Moment (SqlWorld DB) Call (SqlOp Stmt) (SqlOp.Res ε Ans) α)} (h : (sqlSys R prog).Trace w₀ tr c)
    (id : String) : c.threads.Pairwise fun t t' => ¬ (⟨.fresh, id⟩ ∈ t.did ∧ ⟨.fresh, id⟩ ∈ t'.did) := by
  refine (h.reach.once (E := fun e => e = ⟨.fresh, id⟩) (F := fun w => id ∈ w.issued) ?_ (fun o w r w' he hid => SqlOp.Exec.issued he hid) ?_).imp
    fun hone hboth => hone ⟨⟨_, hboth.1, rfl⟩, _, hboth.2, rfl⟩
  · intro o w r w' he heq
    obtain ⟨rfl, hr⟩ := Sigma.mk.inj heq
    obtain rfl := eq_of_heq hr
    obtain ⟨-, hnew, rfl⟩ := he
    exact ⟨hnew, List.mem_cons_self⟩
  · rintro w w' ⟨later, -, rfl⟩ hid
    exact hid

end Runs

/-! ## Runs that can be computed -/

/-- A program alone, at one time, by statements that do not fail, with the identifiers it draws. -/
def Prog.play (R : SqlRules ε DB Ans) (now : ℤ) : Prog (SqlOp Stmt) (SqlOp.Res ε Ans) α → List String → DB → Option (α × DB)
  | .ret a, _, db => some (a, db)
  | .call (.sql s) k, ids, db => (k (R.run now s db).1).play R now ids (R.run now s db).2
  | .call .now k, ids, db => (k now).play R now ids db
  | .call .fresh _, [], _ => none
  | .call .fresh k, id :: ids, db => if R.isID id then (k id).play R now ids db else none

theorem Prog.play_runs {R : SqlRules ε DB Ans} {now : ℤ} {a : α} {db' : DB} : ∀ {p : Prog (SqlOp Stmt) (SqlOp.Res ε Ans) α}
    {ids : List String} (issued : List String) {db : DB}, p.play R now ids db = some (a, db') → ids.Nodup → (∀ id ∈ ids, id ∉ issued) →
    ∃ issued', p.Runs (SqlOp.Exec R) ⟨db, now, issued⟩ a ⟨db', now, issued'⟩ ∧ ∀ id ∈ issued', id ∈ issued ∨ id ∈ ids
  | .ret _, ids, issued, _, h, _, _ => by
    obtain ⟨rfl, rfl⟩ := Prod.ext_iff.1 (Option.some.inj h)
    exact ⟨issued, ⟨rfl, rfl⟩, fun _ => .inl⟩
  | .call (.sql s) k, ids, issued, db, h, hn, hd => by
    obtain ⟨issued', hr, hi⟩ := Prog.play_runs (p := k (R.run now s db).1) issued h hn hd
    exact ⟨issued', ⟨_, _, ⟨.none, rfl, rfl⟩, hr⟩, hi⟩
  | .call .now k, ids, issued, db, h, hn, hd => by
    obtain ⟨issued', hr, hi⟩ := Prog.play_runs (p := k now) issued h hn hd
    exact ⟨issued', ⟨now, _, ⟨rfl, rfl⟩, hr⟩, hi⟩
  | .call .fresh k, [], issued, db, h, _, _ => by cases h
  | .call .fresh k, id :: ids, issued, db, h, hn, hd => by
    by_cases hid : R.isID id = true
    · simp only [Prog.play, hid, if_true] at h
      obtain ⟨hnotin, hn⟩ := List.nodup_cons.1 hn
      obtain ⟨issued', hr, hi⟩ := Prog.play_runs (p := k id) (id :: issued) h hn fun x hx hin => by
        rcases List.mem_cons.1 hin with rfl | hin
        · exact hnotin hx
        · exact hd x (List.mem_cons_of_mem _ hx) hin
      refine ⟨issued', ⟨id, _, ⟨hid, hd id List.mem_cons_self, rfl⟩, hr⟩, fun x hx => ?_⟩
      rcases hi x hx with hx | hx
      · rcases List.mem_cons.1 hx with rfl | hx
        · exact .inr List.mem_cons_self
        · exact .inl hx
      · exact .inr (List.mem_cons_of_mem _ hx)
    · simp only [Prog.play, hid] at h
      cases h

/-- A program alone, by operations that can be computed where they can be performed. -/
def Prog.tryRun {Op σ : Type} {Res : Op → Type} (run : (o : Op) → σ → Option (Res o × σ)) : Prog Op Res α → σ → Option (α × σ)
  | .ret a, w => some (a, w)
  | .call o k, w =>
    match run o w with
    | none => none
    | some (r, w') => (k r).tryRun run w'

theorem Prog.runs_of_tryRun {Op σ : Type} {Res : Op → Type} {run : (o : Op) → σ → Option (Res o × σ)}
    {exec : (o : Op) → σ → Res o → σ → Prop} (hex : ∀ o w r w', run o w = some (r, w') → exec o w r w') {a : α} {w' : σ} :
    ∀ {p : Prog Op Res α} {w : σ}, p.tryRun run w = some (a, w') → p.Runs exec w a w'
  | .ret _, _, h => by
    obtain ⟨rfl, rfl⟩ := Prod.ext_iff.1 (Option.some.inj h)
    exact ⟨rfl, rfl⟩
  | .call o k, w, h => by
    simp only [Prog.tryRun] at h
    cases hr : run o w with
    | none =>
      rw [hr] at h
      cases h
    | some res =>
      rw [hr] at h
      exact ⟨res.1, res.2, hex o w _ _ hr, Prog.runs_of_tryRun hex h⟩

/-- A call of a sequence: when it is made, and the identifiers it draws. -/
structure Turn (Call : Type) where
  now : ℤ
  call : Call
  ids : List String := []

/-- Calls one after the other. -/
def playAll (R : SqlRules ε DB Ans) (prog : Call → Prog (SqlOp Stmt) (SqlOp.Res ε Ans) α) : List (Turn Call) → DB → Option DB
  | [], db => some db
  | t :: turns, db =>
    match (prog t.call).play R t.now t.ids db with
    | none => none
    | some (_, db) => playAll R prog turns db

/-- A run can go on with calls one after the other. -/
theorem Sys.Trace.played {R : SqlRules ε DB Ans} {prog : Call → Prog (SqlOp Stmt) (SqlOp.Res ε Ans) α} {w₀ : SqlWorld DB} {db' : DB} :
    ∀ {turns : List (Turn Call)} {w : SqlWorld DB} {tr : List (Moment (SqlWorld DB) Call (SqlOp Stmt) (SqlOp.Res ε Ans) α)}
      {ts : List (Thread Call (SqlOp Stmt) (SqlOp.Res ε Ans) α)}, (sqlSys R prog).Trace w₀ tr ⟨w, ts⟩ →
      playAll R prog turns w.db = some db' → (w.clock :: turns.map (·.now)).Pairwise (· ≤ ·) →
      (turns.flatMap (·.ids)).Nodup → (∀ id ∈ turns.flatMap (·.ids), id ∉ w.issued) →
      ∃ tr' w' ts', (sqlSys R prog).Trace w₀ tr' ⟨w', ts'⟩ ∧ w'.db = db'
  | [], w, tr, ts, ht, h, _, _, _ => ⟨tr, w, ts, ht, Option.some.inj h⟩
  | t :: turns, w, tr, ts, ht, h, hnow, hn, hd => by
    obtain ⟨hle, hnow⟩ := List.pairwise_cons.1 hnow
    rw [List.flatMap_cons] at hn hd
    obtain ⟨hn₁, hn₂, hdis⟩ := List.nodup_append.1 hn
    simp only [playAll] at h
    cases hp : (prog t.call).play R t.now t.ids w.db with
    | none =>
      rw [hp] at h
      cases h
    | some res =>
      rw [hp] at h
      obtain ⟨issued', hr, hi⟩ := Prog.play_runs w.issued hp hn₁ fun id hid => hd id (List.mem_append_left _ hid)
      have hw : SqlWorld.Passes w ⟨w.db, t.now, w.issued⟩ := ⟨t.now, hle _ (by simp), rfl⟩
      have hstart := Sys.Trace.start t.call (Sys.Trace.env (S := sqlSys R prog) ht hw) trivial
      obtain ⟨tr', did, ht'⟩ := Sys.Trace.runs (fun _ _ _ _ he => he) hr hstart
      refine Sys.Trace.played ht' h hnow hn₂ fun id hid hin => ?_
      rcases hi id hin with hin | hin
      · exact hd id (List.mem_append_right _ hid) hin
      · exact hdis id hin id hid rfl

/-- **Calls that can be computed one after the other are a run.** -/
theorem played {R : SqlRules ε DB Ans} {prog : Call → Prog (SqlOp Stmt) (SqlOp.Res ε Ans) α} {turns : List (Turn Call)} {db db' : DB}
    (h : playAll R prog turns db = some db') (hnow : (0 :: turns.map (·.now)).Pairwise (· ≤ ·))
    (hn : (turns.flatMap (·.ids)).Nodup) :
    ∃ tr w ts, (sqlSys R prog).Trace ⟨db, 0, []⟩ tr ⟨w, ts⟩ ∧ w.db = db' :=
  Sys.Trace.played .init h hnow hn fun _ _ => List.not_mem_nil

end Conc
