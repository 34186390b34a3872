import Mathlib.Logic.Basic
/-!
# ConcProg — programs over atomic operations

A program is a tree of calls to atomic operations on a shared state: a database transaction, a request to another
process, a read of the clock.  Nothing is said here about what an operation does; a state type and an interpretation
are parameters.  `eval` runs a program alone under a deterministic interpretation, `evalUpTo` the same with a crash
after a number of operations, `Runs` under a relational one.  `Fault` is the failure of one operation, before or after
its effect.
-/
namespace Conc

variable {Op : Type} {Res : Op → Type} {α β γ σ ε : Type}

/-- A program: it returns, or calls an atomic operation and continues with its result. -/
inductive Prog (Op : Type) (Res : Op → Type) (α : Type) : Type where
  | ret (a : α) : Prog Op Res α
  | call (o : Op) (k : Res o → Prog Op Res α) : Prog Op Res α

/-- An operation that was performed, between the states before and after it. -/
structure Performed (σ Op : Type) (Res : Op → Type) where
  before : σ
  op : Op
  res : Res op
  after : σ

namespace Prog

def bind : Prog Op Res α → (α → Prog Op Res β) → Prog Op Res β
  | .ret a, f => f a
  | .call o k, f => .call o (fun r => (k r).bind f)

instance : Monad (Prog Op Res) where
  pure := .ret
  bind := .bind

/-- One operation as a program. -/
def perform (o : Op) : Prog Op Res (Res o) := .call o .ret

@[simp] theorem bind_ret (a : α) (f : α → Prog Op Res β) : (Prog.ret a).bind f = f a := rfl

@[simp] theorem bind_call (o : Op) (k : Res o → Prog Op Res α) (f : α → Prog Op Res β) :
    (Prog.call o k).bind f = .call o (fun r => (k r).bind f) := rfl

@[simp] theorem pure_eq (a : α) : (pure a : Prog Op Res α) = .ret a := rfl

@[simp] theorem bind_eq (p : Prog Op Res α) (f : α → Prog Op Res β) : (p >>= f) = p.bind f := rfl

@[simp] theorem perform_bind (o : Op) (f : Res o → Prog Op Res β) : (perform o).bind f = .call o f := rfl

theorem call_congr {o : Op} {k k' : Res o → Prog Op Res α} (h : ∀ r, k r = k' r) : Prog.call o k = .call o k' :=
  congrArg _ (funext h)

/-- A program whose operations are embedded in a larger set of operations. -/
def lift {Op' : Type} {Res' : Op' → Type} (f : Op → Op') (g : (o : Op) → Res' (f o) → Res o) :
    Prog Op Res α → Prog Op' Res' α
  | .ret a => .ret a
  | .call o k => .call (f o) (fun r => (k (g o r)).lift f g)

/-! ## One program alone -/

/-- The result and the final state of a program that runs alone under a deterministic interpretation. -/
def eval (run : (o : Op) → σ → Res o × σ) : Prog Op Res α → σ → α × σ
  | .ret a, w => (a, w)
  | .call o k, w => (k (run o w).1).eval run (run o w).2

@[simp] theorem eval_ret (run : (o : Op) → σ → Res o × σ) (a : α) (w : σ) :
    (Prog.ret a : Prog Op Res α).eval run w = (a, w) := rfl

@[simp] theorem eval_call (run : (o : Op) → σ → Res o × σ) (o : Op) (k : Res o → Prog Op Res α) (w : σ) :
    (Prog.call o k).eval run w = (k (run o w).1).eval run (run o w).2 := rfl

/-- One step of an evaluation. -/
theorem eval_step {run : (o : Op) → σ → Res o × σ} {o : Op} {r : Res o} {w w' : σ} (h : run o w = (r, w'))
    (k : Res o → Prog Op Res α) : (Prog.call o k).eval run w = (k r).eval run w' := by
  rw [eval_call, h]

theorem eval_bind (run : (o : Op) → σ → Res o × σ) (f : α → Prog Op Res β) :
    ∀ (p : Prog Op Res α) (w : σ), (p.bind f).eval run w = (f (p.eval run w).1).eval run (p.eval run w).2
  | .ret _, _ => rfl
  | .call o k, w => by
    simp only [bind_call, eval_call]
    exact eval_bind run f (k (run o w).1) (run o w).2

/-- The same with a crash: at most `n` operations take place; the result is `none` when the program was cut off. -/
def evalUpTo (run : (o : Op) → σ → Res o × σ) : Nat → Prog Op Res α → σ → Option α × σ
  | _, .ret a, w => (some a, w)
  | 0, .call _ _, w => (none, w)
  | n + 1, .call o k, w => (k (run o w).1).evalUpTo run n (run o w).2

/-- A program that crashes after `n` operations, if it has not returned by then. -/
def cut : Nat → Prog Op Res α → Prog Op Res (Option α)
  | _, .ret a => .ret (some a)
  | 0, .call _ _ => .ret none
  | n + 1, .call o k => .call o (fun r => (k r).cut n)

theorem eval_cut (run : (o : Op) → σ → Res o × σ) :
    ∀ (n : Nat) (p : Prog Op Res α) (w : σ), (p.cut n).eval run w = p.evalUpTo run n w
  | 0, .ret _, _ | _ + 1, .ret _, _ => rfl
  | 0, .call _ _, _ => rfl
  | n + 1, .call o k, w => eval_cut run n (k (run o w).1) (run o w).2

/-- The runs of a program alone under a relational interpretation. -/
def Runs (exec : (o : Op) → σ → Res o → σ → Prop) : Prog Op Res α → σ → α → σ → Prop
  | .ret a, w, b, w' => b = a ∧ w' = w
  | .call o k, w, b, w' => ∃ r w₁, exec o w r w₁ ∧ (k r).Runs exec w₁ b w'

theorem runs_bind (exec : (o : Op) → σ → Res o → σ → Prop) (f : α → Prog Op Res β) :
    ∀ (p : Prog Op Res α) (w : σ) (b : β) (w' : σ),
      (p.bind f).Runs exec w b w' ↔ ∃ a w₁, p.Runs exec w a w₁ ∧ (f a).Runs exec w₁ b w'
  | .ret a, w, b, w' => by
    constructor
    · intro h
      exact ⟨a, w, ⟨rfl, rfl⟩, h⟩
    · rintro ⟨_, _, ⟨rfl, rfl⟩, h⟩
      exact h
  | .call o k, w, b, w' => by
    constructor
    · rintro ⟨r, w₁, he, h⟩
      obtain ⟨a, w₂, h1, h2⟩ := (runs_bind exec f (k r) w₁ b w').1 h
      exact ⟨a, w₂, ⟨r, w₁, he, h1⟩, h2⟩
    · rintro ⟨a, w₂, ⟨r, w₁, he, h1⟩, h2⟩
      exact ⟨r, w₁, he, (runs_bind exec f (k r) w₁ b w').2 ⟨a, w₂, h1, h2⟩⟩

/-- A deterministic evaluation is a run of every relation that admits its steps. -/
theorem runs_eval {exec : (o : Op) → σ → Res o → σ → Prop} {run : (o : Op) → σ → Res o × σ}
    (h : ∀ o w, exec o w (run o w).1 (run o w).2) :
    ∀ (p : Prog Op Res α) (w : σ), p.Runs exec w (p.eval run w).1 (p.eval run w).2
  | .ret _, _ => ⟨rfl, rfl⟩
  | .call o k, w => ⟨(run o w).1, (run o w).2, h o w, runs_eval h (k (run o w).1) (run o w).2⟩

/-- The same with all that is performed, in turn. -/
def RunsBy (exec : (o : Op) → σ → Res o → σ → Prop) : Prog Op Res α → σ → List (Performed σ Op Res) → α → σ → Prop
  | .ret a, w, l, b, w' => l = [] ∧ b = a ∧ w' = w
  | .call o k, w, l, b, w' => ∃ r w₁ l', exec o w r w₁ ∧ l = ⟨w, o, r, w₁⟩ :: l' ∧ (k r).RunsBy exec w₁ l' b w'

/-! ## The operations of a program -/

/-- Every operation the program can come to satisfies `P`. -/
def All (P : Op → Prop) : Prog Op Res α → Prop
  | .ret _ => True
  | .call o k => P o ∧ ∀ r, (k r).All P

theorem All.mono {P Q : Op → Prop} (hPQ : ∀ o, P o → Q o) : ∀ {p : Prog Op Res α}, p.All P → p.All Q
  | .ret _, _ => trivial
  | .call o _, h => ⟨hPQ o h.1, fun r => All.mono hPQ (h.2 r)⟩

theorem All.of_forall {P : Op → Prop} (hP : ∀ o, P o) : ∀ p : Prog Op Res α, p.All P
  | .ret _ => trivial
  | .call o k => ⟨hP o, fun r => All.of_forall hP (k r)⟩

theorem All.bind {P : Op → Prop} {f : α → Prog Op Res β} (hf : ∀ a, (f a).All P) :
    ∀ {p : Prog Op Res α}, p.All P → (p.bind f).All P
  | .ret a, _ => hf a
  | .call _ _, h => ⟨h.1, fun r => All.bind hf (h.2 r)⟩

/-- **What every operation of a program does to the state, its runs do.** -/
theorem All.runs {P : Op → Prop} {R : σ → σ → Prop} {exec : (o : Op) → σ → Res o → σ → Prop} (hrefl : ∀ w, R w w)
    (htrans : ∀ a b c, R a b → R b c → R a c) (hop : ∀ o w r w', P o → exec o w r w' → R w w') :
    ∀ {p : Prog Op Res α} {w : σ} {a : α} {w' : σ}, p.All P → p.Runs exec w a w' → R w w'
  | .ret _, w, _, _, _, h => by
    rw [h.2]
    exact hrefl w
  | .call o _, w, _, _, ha, h => by
    obtain ⟨r, w₁, he, h⟩ := h
    exact htrans _ _ _ (hop o w r w₁ ha.1 he) (All.runs hrefl htrans hop (ha.2 r) h)

end Prog

/-! ## Operations that may fail -/

/-- The failure of one operation: none, an error with nothing done, or an error with the effect done (the answer was
lost). -/
inductive Fault (δ : Type) where
  | none
  | before (d : δ)
  | after (d : δ)
deriving DecidableEq

/-- Whether an operation under this fault takes effect. -/
def Fault.lands {δ : Type} : Fault δ → Bool
  | .before _ => false
  | _ => true

/-- Whether an operation under this fault reports its own result. -/
def Fault.answers {δ : Type} : Fault δ → Bool
  | .none => true
  | _ => false

/-- An operation under a fault, which reports the error `err` makes of it. -/
def Fault.apply {δ : Type} (f : Fault δ) (err : δ → ε) (run : σ → Except ε α × σ) (w : σ) : Except ε α × σ :=
  match f with
  | .none => run w
  | .before d => (.error (err d), w)
  | .after d => (.error (err d), (run w).2)

section Fault

variable {δ : Type} {err : δ → ε} {run : σ → Except ε α × σ} {w w' : σ}

@[simp] theorem Fault.apply_none : (Fault.none : Fault δ).apply err run w = run w := rfl

@[simp] theorem Fault.apply_before (d : δ) : (Fault.before d).apply err run w = (.error (err d), w) := rfl

@[simp] theorem Fault.apply_after (d : δ) : (Fault.after d).apply err run w = (.error (err d), (run w).2) := rfl

/-- An operation that answers has taken effect. -/
theorem Fault.lands_of_answers {f : Fault δ} (h : f.answers = true) : f.lands = true := by
  cases f with
  | none => rfl
  | before d => cases h
  | after d => cases h

/-- **An answer that is not an error is the operation's own**, with its effect. -/
theorem Fault.of_ok {f : Fault δ} {a : α} (h : f.apply err run w = (.ok a, w')) : run w = (.ok a, w') := by
  cases f with
  | none => exact h
  | before d => simp at h
  | after d => simp at h

/-- **An error is the operation's own or the fault's.** -/
theorem Fault.of_error {f : Fault δ} {e : ε} (h : f.apply err run w = (.error e, w')) :
    run w = (.error e, w') ∨ ∃ d, e = err d ∧ (w' = w ∨ w' = (run w).2) := by
  cases f with
  | none => exact .inl h
  | before d =>
    simp only [apply_before, Prod.mk.injEq, Except.error.injEq] at h
    exact .inr ⟨d, h.1.symm, .inl h.2.symm⟩
  | after d =>
    simp only [apply_after, Prod.mk.injEq, Except.error.injEq] at h
    exact .inr ⟨d, h.1.symm, .inr h.2.symm⟩

/-- **The state after an operation under a fault** is the state before it or the operation's own. -/
theorem Fault.apply_state (f : Fault δ) (err : δ → ε) (run : σ → Except ε α × σ) (w : σ) :
    (f.apply err run w).2 = w ∨ (f.apply err run w).2 = (run w).2 := by
  cases f with
  | none => exact .inr rfl
  | before d => exact .inl rfl
  | after d => exact .inr rfl

end Fault

end Conc
