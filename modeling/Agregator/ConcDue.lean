import Agregator.ConcTrace
/-!
# ConcDue — what a program still has to do

`Due fine E` says of a program that it does not return before an operation of the kind `E`, if its operations are answered as
`fine` says.  `Along P` says of every operation a program can come to what has been done before it and what follows it.
-/
namespace Conc

variable {Op : Type} {Res : Op → Type} {α β σ Call : Type}

namespace Prog

/-- The program comes to an operation of the kind before it returns, if it is answered so. -/
def Due (fine : (o : Op) → Res o → Prop) (E : Op → Prop) : Prog Op Res α → Prop
  | .ret _ => False
  | .call o k => E o ∨ ∀ r, fine o r → (k r).Due fine E

/-- What the program returns, if it is answered so. -/
def Yields (fine : (o : Op) → Res o → Prop) (Q : α → Prop) : Prog Op Res α → Prop
  | .ret a => Q a
  | .call o k => ∀ r, fine o r → (k r).Yields fine Q

/-- Every operation the program can come to satisfies `P` of what has been done before it and of what follows it. -/
def Along (P : List (Event Op Res) → (o : Op) → (Res o → Prog Op Res α) → Prop) : List (Event Op Res) → Prog Op Res α → Prop
  | _, .ret _ => True
  | h, .call o k => P h o k ∧ ∀ r, (k r).Along P (h ++ [⟨o, r⟩])

variable {fine : (o : Op) → Res o → Prop} {E : Op → Prop} {f : α → Prog Op Res β}

theorem not_due_ret (a : α) : ¬ (Prog.ret a : Prog Op Res α).Due fine E := fun h => h

/-- **An operation of another kind leaves what is due.** -/
theorem Due.step {o : Op} {k : Res o → Prog Op Res α} (h : (Prog.call o k).Due fine E) (ho : ¬ E o) {r : Res o}
    (hr : fine o r) : (k r).Due fine E := by
  rcases h with h | h
  · exact absurd h ho
  · exact h r hr

theorem Yields.due {Q : α → Prop} (hf : ∀ a, Q a → (f a).Due fine E) :
    ∀ {p : Prog Op Res α}, p.Yields fine Q → (p.bind f).Due fine E
  | .ret a, h => hf a h
  | .call _ _, h => .inr fun r hr => Yields.due hf (h r hr)

theorem bind_assoc (f : α → Prog Op Res β) {γ : Type} (g : β → Prog Op Res γ) :
    ∀ p : Prog Op Res α, (p.bind f).bind g = p.bind fun a => (f a).bind g
  | .ret _ => rfl
  | .call _ k => call_congr fun r => bind_assoc f g (k r)

theorem Along.of_all {P : List (Event Op Res) → (o : Op) → (Res o → Prog Op Res α) → Prop} {N : Op → Prop}
    (hN : ∀ h o k, N o → P h o k) : ∀ {p : Prog Op Res α} {h : List (Event Op Res)}, p.All N → p.Along P h
  | .ret _, _, _ => trivial
  | .call o k, h, hp => ⟨hN h o k hp.1, fun r => Along.of_all hN (hp.2 r)⟩

/-- **A beginning of whose operations nothing is asked.** -/
theorem Along.bind {P : List (Event Op Res) → (o : Op) → (Res o → Prog Op Res β) → Prop} {N : Op → Prop}
    {Q : List (Event Op Res) → α → Prop} (hN : ∀ h o k, N o → P h o k) (hf : ∀ h a, Q h a → (f a).Along P h) :
    ∀ {p : Prog Op Res α} {h : List (Event Op Res)}, p.All N → p.Ends Q h → (p.bind f).Along P h
  | .ret a, h, _, he => hf h a he
  | .call o _, h, hp, he => ⟨hN h o _ hp.1, fun r => Along.bind hN hf (hp.2 r) (he r)⟩

end Prog

end Conc
