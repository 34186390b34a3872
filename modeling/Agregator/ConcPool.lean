import Agregator.ConcProg
import Mathlib.Data.List.Basic
/-!
# ConcPool — interleavings of programs, and rely–guarantee reasoning about them

A pool is a shared state and the calls started so far, each with what it has done and what is left of its program.  A
step starts a call, performs one operation of one call, or lets the environment move.  A call that is never scheduled
again has crashed, so every run with crashes is a run here.  `Reach ok` is what can be reached by runs whose operations
all meet `ok`.

`Safe` is the weakest precondition of a program in a pool: every operation, performed in any state the other calls can
have led to, keeps the invariant and the relation the others rely on.  `Reach.safe` is its soundness: it is enough to
show every program safe alone.
-/
namespace Conc

variable {Op : Type} {Res : Op → Type} {α β σ Call : Type}

/-- One performed operation and its result. -/
abbrev Event (Op : Type) (Res : Op → Type) := (o : Op) × Res o

/-- A started call: its entry point, what it has done, what is left. -/
structure Thread (Call Op : Type) (Res : Op → Type) (α : Type) where
  call : Call
  did  : List (Event Op Res)
  rest : Prog Op Res α

structure Config (σ Call Op : Type) (Res : Op → Type) (α : Type) where
  world   : σ
  threads : List (Thread Call Op Res α)

/-- A system of concurrent calls over a shared state. -/
structure Sys (σ Call Op : Type) (Res : Op → Type) (α : Type) where
  prog  : Call → Prog Op Res α
  ready : Call → σ → Prop
  exec  : (o : Op) → σ → Res o → σ → Prop
  env   : σ → σ → Prop

namespace Sys

variable (S : Sys σ Call Op Res α)

/-- A condition on an operation about to be performed: the pool before it, the call, the operation and the answer it
gets. -/
abbrev Cond (σ Call Op : Type) (Res : Op → Type) (α : Type) :=
  Config σ Call Op Res α → Thread Call Op Res α → (o : Op) → Res o → Prop

inductive Step (ok : Cond σ Call Op Res α) : Config σ Call Op Res α → Config σ Call Op Res α → Prop where
  | start (w : σ) (ts : List (Thread Call Op Res α)) (c : Call) : S.ready c w →
      Step ok ⟨w, ts⟩ ⟨w, ts ++ [⟨c, [], S.prog c⟩]⟩
  | perform (w w' : σ) (ts₁ ts₂ : List (Thread Call Op Res α)) (c : Call) (h : List (Event Op Res)) (o : Op)
      (k : Res o → Prog Op Res α) (r : Res o) : S.exec o w r w' →
      ok ⟨w, ts₁ ++ ⟨c, h, .call o k⟩ :: ts₂⟩ ⟨c, h, .call o k⟩ o r →
      Step ok ⟨w, ts₁ ++ ⟨c, h, .call o k⟩ :: ts₂⟩ ⟨w', ts₁ ++ ⟨c, h ++ [⟨o, r⟩], k r⟩ :: ts₂⟩
  | env (w w' : σ) (ts : List (Thread Call Op Res α)) : S.env w w' → Step ok ⟨w, ts⟩ ⟨w', ts⟩

/-- What runs from `w₀` whose operations all meet `ok` can reach. -/
inductive Reach (ok : Cond σ Call Op Res α) (w₀ : σ) : Config σ Call Op Res α → Prop where
  | init : Reach ok w₀ ⟨w₀, []⟩
  | step {c c' : Config σ Call Op Res α} : Reach ok w₀ c → S.Step ok c c' → Reach ok w₀ c'

end Sys

/-- No condition. -/
def anyStep : Sys.Cond σ Call Op Res α := fun _ _ _ _ => True

theorem Sys.Reach.mono {S : Sys σ Call Op Res α} {ok ok' : Sys.Cond σ Call Op Res α} {w₀ : σ}
    (hok : ∀ c t o r, ok c t o r → ok' c t o r) {c : Config σ Call Op Res α} (h : S.Reach ok w₀ c) : S.Reach ok' w₀ c := by
  induction h with
  | init => exact .init
  | step _ hs ih =>
    refine ih.step ?_
    cases hs with
    | start w ts c hc => exact .start w ts c hc
    | perform w w' ts₁ ts₂ c h o k r he ho => exact .perform w w' ts₁ ts₂ c h o k r he (hok _ _ _ _ ho)
    | env w w' ts he => exact .env w w' ts he

/-! ## Invariants of the shared state -/

/-- **An invariant every operation keeps holds in every reachable state.** -/
theorem Sys.Reach.inv {S : Sys σ Call Op Res α} {ok : Sys.Cond σ Call Op Res α} {w₀ : σ} (I : σ → Prop) (h0 : I w₀)
    (hop : ∀ c t o r w', S.Reach ok w₀ c → ok c t o r → I c.world → S.exec o c.world r w' → I w')
    (henv : ∀ w w', I w → S.env w w' → I w') {c : Config σ Call Op Res α} (h : S.Reach ok w₀ c) : I c.world := by
  induction h with
  | init => exact h0
  | step hr hs ih =>
    cases hs with
    | start w ts c _ => exact ih
    | perform w w' ts₁ ts₂ c h o k r he hok => exact hop _ _ o r w' hr hok ih he
    | env w w' ts he => exact henv w w' ih he

/-- **An invariant of the whole pool**: of the shared state together with what the calls have done and have left. -/
theorem Sys.Reach.pool_inv {S : Sys σ Call Op Res α} {ok : Sys.Cond σ Call Op Res α} {w₀ : σ}
    (J : σ → List (Thread Call Op Res α) → Prop) (h0 : J w₀ [])
    (hstart : ∀ w ts c, J w ts → J w (ts ++ [⟨c, [], S.prog c⟩]))
    (hop : ∀ w w' ts₁ ts₂ c h o k r, J w (ts₁ ++ ⟨c, h, .call o k⟩ :: ts₂) → S.exec o w r w' →
      ok ⟨w, ts₁ ++ ⟨c, h, .call o k⟩ :: ts₂⟩ ⟨c, h, .call o k⟩ o r →
      J w' (ts₁ ++ ⟨c, h ++ [⟨o, r⟩], k r⟩ :: ts₂))
    (henv : ∀ w w' ts, J w ts → S.env w w' → J w' ts) {c : Config σ Call Op Res α} (h : S.Reach ok w₀ c) :
    J c.world c.threads := by
  induction h with
  | init => exact h0
  | step _ hs ih =>
    cases hs with
    | start w ts c _ => exact hstart w ts c ih
    | perform w w' ts₁ ts₂ c h o k r he hok => exact hop w w' ts₁ ts₂ c h o k r ih he hok
    | env w w' ts he => exact henv w w' ts ih he

/-! ## The operations of the programs -/

/-- **Every operation a pool performs is one its programs can come to.** -/
theorem Sys.Reach.all {S : Sys σ Call Op Res α} {ok : Sys.Cond σ Call Op Res α} {w₀ : σ} {P : Call → Op → Prop}
    (hp : ∀ c, (S.prog c).All (P c)) {c : Config σ Call Op Res α} (h : S.Reach ok w₀ c) :
    ∀ t ∈ c.threads, t.rest.All (P t.call) := by
  refine h.pool_inv (fun _ ts => ∀ t ∈ ts, t.rest.All (P t.call)) (by simp) ?_ ?_ (fun _ _ _ h _ => h)
  · intro w ts c ih t ht
    rcases List.mem_append.1 ht with ht | ht
    · exact ih t ht
    · rw [List.mem_singleton.1 ht]
      exact hp c
  · intro w w' ts₁ ts₂ c h o k r ih _ _ t ht
    rcases List.mem_append.1 ht with ht | ht
    · exact ih t (List.mem_append_left _ ht)
    · rcases List.mem_cons.1 ht with rfl | ht
      · exact (ih ⟨c, h, .call o k⟩ (by simp)).2 r
      · exact ih t (by simp [ht])

/-- **What comes to hold of the shared state has an author**: a call that performed an operation of the kind that brings
it about. -/
theorem Sys.Reach.author {S : Sys σ Call Op Res α} {ok : Sys.Cond σ Call Op Res α} {w₀ : σ} {F : σ → Prop}
    {E : Event Op Res → Prop} (h0 : ¬ F w₀) (hop : ∀ o w r w', S.exec o w r w' → F w' → F w ∨ E ⟨o, r⟩)
    (henv : ∀ w w', S.env w w' → F w' → F w) {c : Config σ Call Op Res α} (h : S.Reach ok w₀ c) (hF : F c.world) :
    ∃ t ∈ c.threads, ∃ e ∈ t.did, E e := by
  refine h.pool_inv (fun w ts => F w → ∃ t ∈ ts, ∃ e ∈ t.did, E e) (fun hF => absurd hF h0) ?_ ?_ ?_ hF
  · intro w ts c ih hF
    obtain ⟨t, ht, he⟩ := ih hF
    exact ⟨t, List.mem_append_left _ ht, he⟩
  · intro w w' ts₁ ts₂ c h o k r ih he _ hF
    rcases hop o w r w' he hF with hF | hE
    · obtain ⟨t, ht, e, hd, hE⟩ := ih hF
      rcases List.mem_append.1 ht with ht | ht
      · exact ⟨t, List.mem_append_left _ ht, e, hd, hE⟩
      rcases List.mem_cons.1 ht with rfl | ht
      · exact ⟨⟨c, h ++ [⟨o, r⟩], k r⟩, by simp, e, List.mem_append_left _ hd, hE⟩
      · exact ⟨t, by simp [ht], e, hd, hE⟩
    · exact ⟨⟨c, h ++ [⟨o, r⟩], k r⟩, by simp, ⟨o, r⟩, by simp, hE⟩
  · intro w w' ts ih he hF
    exact ih (henv w w' he hF)

/-- What holds of every operation and its answer, holds of all that has been performed. -/
theorem Sys.Reach.events {S : Sys σ Call Op Res α} {ok : Sys.Cond σ Call Op Res α} {w₀ : σ} {E : Event Op Res → Prop}
    (hop : ∀ o w r w', S.exec o w r w' → E ⟨o, r⟩) {c : Config σ Call Op Res α} (h : S.Reach ok w₀ c) :
    ∀ t ∈ c.threads, ∀ e ∈ t.did, E e := by
  refine h.pool_inv (fun _ ts => ∀ t ∈ ts, ∀ e ∈ t.did, E e) (by simp) ?_ ?_ (fun _ _ _ h _ => h)
  · intro w ts c ih t ht
    rcases List.mem_append.1 ht with ht | ht
    · exact ih t ht
    · rw [List.mem_singleton.1 ht]
      exact fun e he => absurd he (by simp)
  · intro w w' ts₁ ts₂ c h o k r ih he _ t ht
    rcases List.mem_append.1 ht with ht | ht
    · exact ih t (List.mem_append_left _ ht)
    rcases List.mem_cons.1 ht with rfl | ht
    · intro e hd
      rcases List.mem_append.1 hd with hd | hd
      · exact ih ⟨c, h, .call o k⟩ (by simp) e hd
      · rw [List.mem_singleton.1 hd]
        exact hop o w r w' he
    · exact ih t (by simp [ht])

/-! ## Runs of one call in a pool -/

/-- Some run of a program comes to a point where `P` holds of what is left of it and of the state. -/
inductive Prog.Reaches (exec : (o : Op) → σ → Res o → σ → Prop) (P : Prog Op Res α → σ → Prop) :
    Prog Op Res α → σ → Prop where
  | here {p : Prog Op Res α} {w : σ} : P p w → Reaches exec P p w
  | call {o : Op} {k : Res o → Prog Op Res α} {w w₁ : σ} {r : Res o} :
      exec o w r w₁ → Reaches exec P (k r) w₁ → Reaches exec P (.call o k) w

/-- A run to the end comes to its end. -/
theorem Prog.Runs.reaches {exec : (o : Op) → σ → Res o → σ → Prop} {P : Prog Op Res α → σ → Prop} :
    ∀ {p : Prog Op Res α} {w : σ} {a : α} {w' : σ}, p.Runs exec w a w' → P (.ret a) w' → p.Reaches exec P w
  | .ret _, _, _, _, h, hP => by
    obtain ⟨rfl, rfl⟩ := h
    exact .here hP
  | .call _ _, _, _, _, h, hP => by
    obtain ⟨r, w₁, he, h⟩ := h
    exact .call he (Prog.Runs.reaches h hP)

/-- What every operation of a program satisfies, the operations of its runs do. -/
theorem Prog.Reaches.of_all {exec : (o : Op) → σ → Res o → σ → Prop} {P : Prog Op Res α → σ → Prop} {Q : Op → Prop}
    {p : Prog Op Res α} {w : σ} (h : p.Reaches exec P w) (hp : p.All Q) :
    p.Reaches (fun o w r w' => exec o w r w' ∧ Q o) P w := by
  induction h with
  | here hP => exact .here hP
  | call he _ ih => exact .call ⟨he, hp.1⟩ (ih (hp.2 _))

/-- **A pool can let one call go on alone**, by operations that meet the condition. -/
theorem Sys.Reach.reaches {S : Sys σ Call Op Res α} {ok : Sys.Cond σ Call Op Res α} {w₀ : σ}
    {exec : (o : Op) → σ → Res o → σ → Prop} {c : Call}
    (hex : ∀ o w r w', exec o w r w' → S.exec o w r w' ∧ ∀ ts t, t.call = c → ok ⟨w, ts⟩ t o r)
    (ts₁ ts₂ : List (Thread Call Op Res α)) {P : Prog Op Res α → σ → Prop} {p : Prog Op Res α} {w : σ}
    (hp : p.Reaches exec P w) :
    ∀ {h : List (Event Op Res)}, S.Reach ok w₀ ⟨w, ts₁ ++ ⟨c, h, p⟩ :: ts₂⟩ →
      ∃ h' q w', P q w' ∧ S.Reach ok w₀ ⟨w', ts₁ ++ ⟨c, h', q⟩ :: ts₂⟩ := by
  induction hp with
  | here hP => exact fun hr => ⟨_, _, _, hP, hr⟩
  | call he _ ih =>
    obtain ⟨he, hok⟩ := hex _ _ _ _ he
    exact fun hr => ih (hr.step (.perform _ _ ts₁ ts₂ c _ _ _ _ he (hok _ _ rfl)))

/-- **A pool can start a call and let it run to its end.** -/
theorem Sys.Reach.runs {S : Sys σ Call Op Res α} {ok : Sys.Cond σ Call Op Res α} {w₀ : σ}
    {exec : (o : Op) → σ → Res o → σ → Prop} {c : Call}
    (hex : ∀ o w r w', exec o w r w' → S.exec o w r w' ∧ ∀ ts t, t.call = c → ok ⟨w, ts⟩ t o r)
    {ts : List (Thread Call Op Res α)} {w w' : σ} {a : α} (hp : (S.prog c).Runs exec w a w') (hc : S.ready c w)
    (h : S.Reach ok w₀ ⟨w, ts⟩) : ∃ did, S.Reach ok w₀ ⟨w', ts ++ [⟨c, did, .ret a⟩]⟩ := by
  obtain ⟨did, q, w₁, ⟨rfl, rfl⟩, hr⟩ := (h.step (.start w ts c hc)).reaches hex ts []
    (hp.reaches (P := fun q w₁ => q = .ret a ∧ w₁ = w') ⟨rfl, rfl⟩)
  exact ⟨did, hr⟩

/-! ## Rely and guarantee -/

/-- The weakest precondition of a program in a pool.  `I` is the invariant of the shared state and `R` what the other
calls may do to it; `Q` is what holds of the history, the result and the state when the program has returned, and goes
on holding.  Operations are assumed to meet `ok`. -/
def Prog.Safe (exec : (o : Op) → σ → Res o → σ → Prop) (ok : (o : Op) → σ → Res o → Prop) (I : σ → Prop)
    (R : σ → σ → Prop) (Q : List (Event Op Res) → α → σ → Prop) :
    List (Event Op Res) → Prog Op Res α → σ → Prop
  | h, .ret a, w => ∀ w', R w w' → I w' → Q h a w'
  | h, .call o k, w => ∀ w₁, R w w₁ → I w₁ → ∀ r w₂, exec o w₁ r w₂ → ok o w₁ r →
      I w₂ ∧ R w₁ w₂ ∧ Prog.Safe exec ok I R Q (h ++ [⟨o, r⟩]) (k r) w₂

section Safe

variable {exec : (o : Op) → σ → Res o → σ → Prop} {ok : (o : Op) → σ → Res o → Prop} {I : σ → Prop}
  {R : σ → σ → Prop}

theorem Prog.Safe.stable (htrans : ∀ a b c, R a b → R b c → R a c) {Q : List (Event Op Res) → α → σ → Prop}
    {h : List (Event Op Res)} {p : Prog Op Res α} {w w' : σ} (hs : p.Safe exec ok I R Q h w) (hR : R w w') :
    p.Safe exec ok I R Q h w' := by
  cases p with
  | ret a => exact fun w₁ h1 hI => hs w₁ (htrans _ _ _ hR h1) hI
  | call o k => exact fun w₁ h1 hI => hs w₁ (htrans _ _ _ hR h1) hI

theorem Prog.Safe.mono {Q Q' : List (Event Op Res) → α → σ → Prop} (hQ : ∀ h a w, I w → Q h a w → Q' h a w) :
    ∀ {p : Prog Op Res α} {h : List (Event Op Res)} {w : σ}, p.Safe exec ok I R Q h w → p.Safe exec ok I R Q' h w
  | .ret _, _, _, hs => fun w₁ hR hI => hQ _ _ _ hI (hs w₁ hR hI)
  | .call _ _, _, _, hs => fun w₁ hR hI r w₂ he hok =>
    have ⟨h1, h2, h3⟩ := hs w₁ hR hI r w₂ he hok
    ⟨h1, h2, Prog.Safe.mono hQ h3⟩

/-- What holds of the state before, and is not undone by the others, holds after. -/
theorem Prog.Safe.frame {F : σ → Prop} (hF : ∀ w w', F w → R w w' → F w') {Q : List (Event Op Res) → α → σ → Prop} :
    ∀ {p : Prog Op Res α} {h : List (Event Op Res)} {w : σ}, F w → p.Safe exec ok I R Q h w →
      p.Safe exec ok I R (fun h a w => F w ∧ Q h a w) h w
  | .ret _, _, w, hw, hs => fun w₁ hR hI => ⟨hF w w₁ hw hR, hs w₁ hR hI⟩
  | .call _ _, _, w, hw, hs => fun w₁ hR hI r w₂ he hok =>
    have ⟨h1, h2, h3⟩ := hs w₁ hR hI r w₂ he hok
    ⟨h1, h2, Prog.Safe.frame hF (hF w₁ w₂ (hF w w₁ hw hR) h2) h3⟩

/-- Sequencing. -/
theorem Prog.Safe.bind (hrefl : ∀ a, R a a) {Q : List (Event Op Res) → β → σ → Prop} {f : α → Prog Op Res β} :
    ∀ {p : Prog Op Res α} {h : List (Event Op Res)} {w : σ}, I w →
      p.Safe exec ok I R (fun h' a w' => (f a).Safe exec ok I R Q h' w') h w → (p.bind f).Safe exec ok I R Q h w
  | .ret _, _, w, hI, hs => hs w (hrefl w) hI
  | .call _ _, _, _, _, hs => fun w₁ hR hI r w₂ he hok =>
    have ⟨h1, h2, h3⟩ := hs w₁ hR hI r w₂ he hok
    ⟨h1, h2, Prog.Safe.bind hrefl h1 h3⟩

end Safe

/-- **Programs that are safe alone are safe in the pool**: the invariant holds in every reachable state, every reachable
state is related to the first one, and what is left of every call is safe. -/
theorem Sys.Reach.safe {S : Sys σ Call Op Res α} {ok : Sys.Cond σ Call Op Res α} {w₀ : σ}
    (lok : Call → (o : Op) → σ → Res o → Prop) (hok : ∀ c t o r, ok c t o r → lok t.call o c.world r)
    {I : σ → Prop} {R : σ → σ → Prop} (hrefl : ∀ a, R a a) (htrans : ∀ a b c, R a b → R b c → R a c)
    {Q : Call → List (Event Op Res) → α → σ → Prop} (h0 : I w₀)
    (hstart : ∀ c w, R w₀ w → I w → S.ready c w → (S.prog c).Safe S.exec (lok c) I R (Q c) [] w)
    (henv : ∀ w w', I w → S.env w w' → I w' ∧ R w w') {c : Config σ Call Op Res α} (h : S.Reach ok w₀ c) :
    I c.world ∧ R w₀ c.world ∧ ∀ t ∈ c.threads, t.rest.Safe S.exec (lok t.call) I R (Q t.call) t.did c.world := by
  induction h with
  | init => exact ⟨h0, hrefl _, by simp⟩
  | step _ hs ih =>
    obtain ⟨hI, hR, hts⟩ := ih
    cases hs with
    | start w ts c hr =>
      refine ⟨hI, hR, fun t ht => ?_⟩
      rcases List.mem_append.1 ht with ht | ht
      · exact hts t ht
      · rw [List.mem_singleton.1 ht]
        exact hstart c w hR hI hr
    | perform w w' ts₁ ts₂ c h o k r he ho =>
      -- the call that moved is safe after its step, the others rely on that step being one of `R`
      have hme := hts ⟨c, h, .call o k⟩ (by simp)
      obtain ⟨hI', hR', hk⟩ := hme w (hrefl w) hI r w' he (hok _ _ _ _ ho)
      refine ⟨hI', htrans _ _ _ hR hR', fun t ht => ?_⟩
      rcases List.mem_append.1 ht with ht | ht
      · exact (hts t (List.mem_append_left _ ht)).stable htrans hR'
      · rcases List.mem_cons.1 ht with rfl | ht
        · exact hk
        · exact (hts t (by simp [ht])).stable htrans hR'
    | env w w' ts he =>
      obtain ⟨hI', hR'⟩ := henv w w' hI he
      exact ⟨hI', htrans _ _ _ hR hR', fun t ht => (hts t ht).stable htrans hR'⟩

end Conc
