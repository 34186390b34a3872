import Mathlib.Algebra.GroupWithZero.Nat
import Agregator.ConcPool
/-!
# ConcTrace — runs of a pool with the operations they perform

`Trace` is a run from its start together with the list of its moments, one for each operation performed.  What every
moment of a run satisfies gives an invariant of the pool at its end (`Trace.pool_inv`), and what comes before an operation
in its own program is known wherever that operation is performed (`Reach.after`).
-/
namespace Conc

variable {Op : Type} {Res : Op → Type} {α β σ Call : Type}

/-- An operation performed in a run: the pool before it, the call that performs it, its answer and the state after. -/
structure Moment (σ Call Op : Type) (Res : Op → Type) (α : Type) where
  before : Config σ Call Op Res α
  thread : Thread Call Op Res α
  op     : Op
  res    : Res op
  after  : σ

/-- What is performed, with its answer. -/
def Moment.event (m : Moment σ Call Op Res α) : Event Op Res := ⟨m.op, m.res⟩

/-- The runs from `w₀`. -/
inductive Sys.Trace (S : Sys σ Call Op Res α) (w₀ : σ) : List (Moment σ Call Op Res α) → Config σ Call Op Res α → Prop where
  | init : Trace S w₀ [] ⟨w₀, []⟩
  | start {tr : List (Moment σ Call Op Res α)} {w : σ} {ts : List (Thread Call Op Res α)} (c : Call) :
      Trace S w₀ tr ⟨w, ts⟩ → S.ready c w → Trace S w₀ tr ⟨w, ts ++ [⟨c, [], S.prog c⟩]⟩
  | perform {tr : List (Moment σ Call Op Res α)} {w : σ} (w' : σ) (ts₁ ts₂ : List (Thread Call Op Res α)) {c : Call}
      {h : List (Event Op Res)} {o : Op} {k : Res o → Prog Op Res α} (r : Res o) :
      Trace S w₀ tr ⟨w, ts₁ ++ ⟨c, h, .call o k⟩ :: ts₂⟩ → S.exec o w r w' →
      Trace S w₀ (tr ++ [⟨⟨w, ts₁ ++ ⟨c, h, .call o k⟩ :: ts₂⟩, ⟨c, h, .call o k⟩, o, r, w'⟩])
        ⟨w', ts₁ ++ ⟨c, h ++ [⟨o, r⟩], k r⟩ :: ts₂⟩
  | env {tr : List (Moment σ Call Op Res α)} {w w' : σ} {ts : List (Thread Call Op Res α)} :
      Trace S w₀ tr ⟨w, ts⟩ → S.env w w' → Trace S w₀ tr ⟨w', ts⟩

namespace Sys.Trace

variable {S : Sys σ Call Op Res α} {w₀ : σ} {tr : List (Moment σ Call Op Res α)} {c : Config σ Call Op Res α}

/-- **An invariant of the pool at the end of a run** whose moments all satisfy `P`. -/
theorem pool_inv {P : Moment σ Call Op Res α → Prop} (J : σ → List (Thread Call Op Res α) → Prop) (h0 : J w₀ [])
    (hstart : ∀ w ts c, J w ts → S.ready c w → J w (ts ++ [⟨c, [], S.prog c⟩]))
    (hop : ∀ w w' ts₁ ts₂ c h o k r, J w (ts₁ ++ ⟨c, h, .call o k⟩ :: ts₂) → S.exec o w r w' →
      P ⟨⟨w, ts₁ ++ ⟨c, h, .call o k⟩ :: ts₂⟩, ⟨c, h, .call o k⟩, o, r, w'⟩ →
      J w' (ts₁ ++ ⟨c, h ++ [⟨o, r⟩], k r⟩ :: ts₂))
    (henv : ∀ w w' ts, J w ts → S.env w w' → J w' ts) (h : S.Trace w₀ tr c) (hP : ∀ m ∈ tr, P m) :
    J c.world c.threads := by
  induction h with
  | init => exact h0
  | start c _ hr ih => exact hstart _ _ c (ih hP) hr
  | perform w' ts₁ ts₂ r _ he ih =>
    refine hop _ w' ts₁ ts₂ _ _ _ _ r (ih fun m hm => hP m (List.mem_append_left _ hm)) he (hP _ ?_)
    exact List.mem_append_right _ (by simp)
  | env _ he ih => exact henv _ _ _ (ih hP) he

/-- **What each moment of a run satisfies, once the moments before it do**, they all satisfy. -/
theorem all_of_step {P Q : Moment σ Call Op Res α → Prop} (h : S.Trace w₀ tr c) (hP : ∀ m ∈ tr, P m)
    (hstep : ∀ tr w w' ts₁ ts₂ c h o k r, S.Trace w₀ tr ⟨w, ts₁ ++ ⟨c, h, .call o k⟩ :: ts₂⟩ → (∀ m ∈ tr, P m ∧ Q m) →
      S.exec o w r w' → P ⟨⟨w, ts₁ ++ ⟨c, h, .call o k⟩ :: ts₂⟩, ⟨c, h, .call o k⟩, o, r, w'⟩ →
      Q ⟨⟨w, ts₁ ++ ⟨c, h, .call o k⟩ :: ts₂⟩, ⟨c, h, .call o k⟩, o, r, w'⟩) : ∀ m ∈ tr, Q m := by
  induction h with
  | init => exact fun m hm => absurd hm (by simp)
  | start c _ _ ih => exact ih hP
  | perform w' ts₁ ts₂ r ht he ih =>
    have hQ := ih fun m hm => hP m (List.mem_append_left _ hm)
    intro m hm
    rcases List.mem_append.1 hm with hm | hm
    · exact hQ m hm
    · rw [List.mem_singleton.1 hm]
      refine hstep _ _ w' ts₁ ts₂ _ _ _ _ r ht (fun m hm => ⟨hP m (List.mem_append_left _ hm), hQ m hm⟩) he (hP _ ?_)
      exact List.mem_append_right _ (by simp)
  | env _ _ ih => exact ih hP

/-- **What each moment keeps of the shared state, the run keeps**, from its start or from any of its moments on. -/
theorem keeps {P : Moment σ Call Op Res α → Prop} {F : σ → Prop} (h : S.Trace w₀ tr c) (hP : ∀ m ∈ tr, P m)
    (hop : ∀ m : Moment σ Call Op Res α, P m → F m.before.world → F m.after) (henv : ∀ w w', S.env w w' → F w → F w')
    (hF : (∃ m ∈ tr, F m.after) ∨ F w₀) : F c.world := by
  induction h with
  | init =>
    rcases hF with ⟨m, hm, -⟩ | hF
    · cases hm
    · exact hF
  | start c _ _ ih => exact ih hP hF
  | perform w' ts₁ ts₂ r _ he ih =>
    have ih := ih fun m hm => hP m (List.mem_append_left _ hm)
    -- from before the last moment on: through the state the last one finds
    have hlast := hop _ (hP _ (List.mem_append_right _ (List.mem_singleton.2 rfl)))
    rcases hF with ⟨m, hm, hF⟩ | hF
    · rcases List.mem_append.1 hm with hm | hm
      · exact hlast (ih (.inl ⟨m, hm, hF⟩))
      · rw [List.mem_singleton.1 hm] at hF
        exact hF
    · exact hlast (ih (.inr hF))
  | env _ he ih => exact henv _ _ he (ih hP hF)

end Sys.Trace

/-! ## What an event brings about -/

/-- **What an event brings about, and nothing undoes, holds wherever a call has seen that event.** -/
theorem Sys.Reach.lasting {S : Sys σ Call Op Res α} {ok : Sys.Cond σ Call Op Res α} {w₀ : σ} {E : Event Op Res → Prop}
    {F : σ → Prop} (hE : ∀ o w r w', S.exec o w r w' → E ⟨o, r⟩ → F w') (hF : ∀ o w r w', S.exec o w r w' → F w → F w')
    (henv : ∀ w w', S.env w w' → F w → F w') {c : Config σ Call Op Res α} (h : S.Reach ok w₀ c) :
    ∀ t ∈ c.threads, ∀ e ∈ t.did, E e → F c.world := by
  refine h.pool_inv (fun w ts => ∀ t ∈ ts, ∀ e ∈ t.did, E e → F w) (by simp) ?_ ?_ ?_
  · intro w ts c ih t ht e he
    rcases List.mem_append.1 ht with ht | ht
    · exact ih t ht e he
    · rw [List.mem_singleton.1 ht] at he
      exact absurd he (by simp)
  · intro w w' ts₁ ts₂ c h o k r ih he _ t ht e hd hEe
    rcases List.mem_append.1 ht with ht | ht
    · exact hF o w r w' he (ih t (List.mem_append_left _ ht) e hd hEe)
    rcases List.mem_cons.1 ht with rfl | ht
    · rcases List.mem_append.1 hd with hd | hd
      · exact hF o w r w' he (ih ⟨c, h, .call o k⟩ (by simp) e hd hEe)
      · rw [List.mem_singleton.1 hd] at hEe
        exact hE o w r w' he hEe
    · exact hF o w r w' he (ih t (by simp [ht]) e hd hEe)
  · intro w w' ts ih he t ht e hd hEe
    exact henv w w' he (ih t ht e hd hEe)

/-- **What can happen only once has happened to one call only.**  `E` are the events, and `F` the states after which none of
them happens. -/
theorem Sys.Reach.once {S : Sys σ Call Op Res α} {ok : Sys.Cond σ Call Op Res α} {w₀ : σ} {E : Event Op Res → Prop}
    {F : σ → Prop} (hE : ∀ o w r w', S.exec o w r w' → E ⟨o, r⟩ → ¬ F w ∧ F w')
    (hF : ∀ o w r w', S.exec o w r w' → F w → F w') (henv : ∀ w w', S.env w w' → F w → F w')
    {c : Config σ Call Op Res α} (h : S.Reach ok w₀ c) :
    c.threads.Pairwise fun t t' => ¬ ((∃ e ∈ t.did, E e) ∧ ∃ e ∈ t'.did, E e) := by
  induction h with
  | init => simp
  | step hr hs ih =>
    have hlast := hr.lasting (fun o w r w' he hEe => (hE o w r w' he hEe).2) hF henv
    cases hs with
    | start w ts c _ =>
      refine List.pairwise_append.2 ⟨ih, by simp, fun t _ t' ht' hboth => ?_⟩
      rw [List.mem_singleton.1 ht'] at hboth
      exact absurd hboth.2 (by simp)
    | perform w w' ts₁ ts₂ c h o k r he _ =>
      obtain ⟨h1, h2, h3⟩ := List.pairwise_append.1 ih
      obtain ⟨h4, h5⟩ := List.pairwise_cons.1 h2
      -- the event just performed is one of `E` only if no call has seen one
      have hnew : ∀ t ∈ ts₁ ++ ts₂, (∃ e ∈ h ++ [⟨o, r⟩], E e) → (∃ e ∈ t.did, E e) → ∃ e ∈ h, E e := by
        rintro t ht ⟨e, hd, hEe⟩ ⟨e', hd', hEe'⟩
        rcases List.mem_append.1 hd with hd | hd
        · exact ⟨e, hd, hEe⟩
        · rw [List.mem_singleton.1 hd] at hEe
          refine absurd (hlast t ?_ e' hd' hEe') (hE o w r w' he hEe).1
          rcases List.mem_append.1 ht with ht | ht
          · exact List.mem_append_left _ ht
          · exact List.mem_append_right _ (List.mem_cons_of_mem _ ht)
      refine List.pairwise_append.2 ⟨h1, List.pairwise_cons.2 ⟨fun t ht hboth => ?_, h5⟩, fun t ht t' ht' hboth => ?_⟩
      · exact h4 t ht ⟨hnew t (List.mem_append_right _ ht) hboth.1 hboth.2, hboth.2⟩
      · rcases List.mem_cons.1 ht' with rfl | ht'
        · exact h3 t ht ⟨c, h, .call o k⟩ (by simp) ⟨hboth.1, hnew t (List.mem_append_left _ ht) hboth.2 hboth.1⟩
        · exact h3 t ht t' (by simp [ht']) hboth
    | env w w' ts _ => exact ih

/-- The same, for one call and the others. -/
theorem Sys.Reach.once_others {S : Sys σ Call Op Res α} {ok : Sys.Cond σ Call Op Res α} {w₀ : σ} {E : Event Op Res → Prop}
    {F : σ → Prop} (hE : ∀ o w r w', S.exec o w r w' → E ⟨o, r⟩ → ¬ F w ∧ F w')
    (hF : ∀ o w r w', S.exec o w r w' → F w → F w') (henv : ∀ w w', S.env w w' → F w → F w') {w : σ}
    {ts₁ ts₂ : List (Thread Call Op Res α)} {t : Thread Call Op Res α} (h : S.Reach ok w₀ ⟨w, ts₁ ++ t :: ts₂⟩)
    (ht : ∃ e ∈ t.did, E e) : ∀ t' ∈ ts₁ ++ ts₂, ∀ e ∈ t'.did, ¬ E e := by
  obtain ⟨-, h2, h3⟩ := List.pairwise_append.1 (h.once hE hF henv)
  intro t' ht' e hd hEe
  rcases List.mem_append.1 ht' with ht' | ht'
  · exact h3 t' ht' t (by simp) ⟨⟨e, hd, hEe⟩, ht⟩
  · exact (List.pairwise_cons.1 h2).1 t' ht' ⟨ht, e, hd, hEe⟩

/-! ## How often something has been done -/

/-- What the calls of a pool have done, by a measure of the events. -/
def tally (g : Event Op Res → ℕ) (ts : List (Thread Call Op Res α)) : ℕ := (ts.map fun t => (t.did.map g).sum).sum

theorem tally_start (g : Event Op Res → ℕ) (ts : List (Thread Call Op Res α)) (c : Call) (p : Prog Op Res α) :
    tally g (ts ++ [⟨c, [], p⟩]) = tally g ts := by
  simp [tally]

theorem tally_perform (g : Event Op Res → ℕ) (ts₁ ts₂ : List (Thread Call Op Res α)) (c : Call) (h : List (Event Op Res))
    (e : Event Op Res) (p q : Prog Op Res α) :
    tally g (ts₁ ++ ⟨c, h ++ [e], q⟩ :: ts₂) = tally g (ts₁ ++ ⟨c, h, p⟩ :: ts₂) + g e := by
  simp only [tally, List.map_append, List.map_cons, List.map_nil, List.sum_append, List.sum_cons, List.sum_nil]
  omega

/-- A measure that is at most another one in every call is so in the pool. -/
theorem tally_le {g g' : Event Op Res → ℕ} {ts : List (Thread Call Op Res α)}
    (h : ∀ t ∈ ts, (t.did.map g).sum ≤ (t.did.map g').sum) : tally g ts ≤ tally g' ts := by
  induction ts with
  | nil => exact Nat.le_refl _
  | cons t ts ih =>
    have ht := h t List.mem_cons_self
    have hts := ih fun t ht => h t (List.mem_cons_of_mem _ ht)
    simp only [tally, List.map_cons, List.sum_cons] at hts ⊢
    omega

/-! ## What a program has done before an operation -/

/-- Every operation the program can come to satisfies `P` of it and of what the program has done before it. -/
def Prog.After (P : List (Event Op Res) → Op → Prop) : List (Event Op Res) → Prog Op Res α → Prop
  | _, .ret _ => True
  | h, .call o k => P h o ∧ ∀ r, (k r).After P (h ++ [⟨o, r⟩])

theorem Prog.After.bind {P : List (Event Op Res) → Op → Prop} {f : α → Prog Op Res β} (hf : ∀ h a, (f a).After P h) :
    ∀ {p : Prog Op Res α} {h : List (Event Op Res)}, p.After P h → (p.bind f).After P h
  | .ret a, h, _ => hf h a
  | .call _ _, _, hp => ⟨hp.1, fun r => Prog.After.bind hf (hp.2 r)⟩

/-- Operations that satisfy `P` whatever was done before. -/
theorem Prog.All.after {P : List (Event Op Res) → Op → Prop} :
    ∀ {p : Prog Op Res α} {h : List (Event Op Res)}, p.All (fun o => ∀ h, P h o) → p.After P h
  | .ret _, _, _ => trivial
  | .call _ _, h, hp => ⟨hp.1 h, fun r => Prog.All.after (hp.2 r)⟩

theorem Prog.After.cut {P : List (Event Op Res) → Op → Prop} :
    ∀ {p : Prog Op Res α} {h : List (Event Op Res)} (n : ℕ), p.After P h → (p.cut n).After P h
  | .ret _, _, 0, _ | .ret _, _, _ + 1, _ => trivial
  | .call _ _, _, 0, _ => trivial
  | .call _ _, _, n + 1, hp => ⟨hp.1, fun r => Prog.After.cut n (hp.2 r)⟩

/-- What follows of an operation from what the program has done before it. -/
theorem Prog.After.all {P : List (Event Op Res) → Op → Prop} {Q : Op → Prop} (hPQ : ∀ h o, P h o → Q o) :
    ∀ {p : Prog Op Res α} {h : List (Event Op Res)}, p.After P h → p.All Q
  | .ret _, _, _ => trivial
  | .call o _, h, hp => ⟨hPQ h o hp.1, fun r => Prog.After.all hPQ (hp.2 r)⟩

/-- Operations that satisfy `P` once a certain event is behind them. -/
theorem Prog.After.of_event {P : List (Event Op Res) → Op → Prop} {e : Event Op Res} (hP : ∀ h, e ∈ h → ∀ o, P h o) :
    ∀ {p : Prog Op Res α} {h : List (Event Op Res)}, e ∈ h → p.After P h
  | .ret _, _, _ => trivial
  | .call o _, h, he => ⟨hP h he o, fun _ => Prog.After.of_event hP (List.mem_append_left _ he)⟩

/-- An entry of a history that has grown by one is the last one, or one of before. -/
theorem split_snoc {h h₁ h₂ : List β} {e e' : β} (he : h ++ [e'] = h₁ ++ e :: h₂) :
    (h = h₁ ∧ e' = e) ∨ ∃ h₂', h = h₁ ++ e :: h₂' := by
  rcases List.eq_nil_or_concat h₂ with rfl | ⟨h₂', e₂, rfl⟩
  · obtain ⟨rfl, hlast⟩ := List.append_inj' he rfl
    cases hlast
    exact .inl ⟨rfl, rfl⟩
  · rw [List.concat_eq_append, ← List.cons_append, ← List.append_assoc] at he
    exact .inr ⟨h₂', (List.append_inj' he rfl).1⟩

/-- **A program has done before an operation what it must have done**, wherever it stands in a pool: before what it has
performed, and before what it is about to perform. -/
theorem Sys.Reach.after {S : Sys σ Call Op Res α} {ok : Sys.Cond σ Call Op Res α} {w₀ : σ}
    {P : Call → List (Event Op Res) → Op → Prop} (hp : ∀ c, (S.prog c).After (P c) []) {c : Config σ Call Op Res α}
    (h : S.Reach ok w₀ c) : ∀ t ∈ c.threads, t.rest.After (P t.call) t.did ∧
      ∀ h₁ e h₂, t.did = h₁ ++ e :: h₂ → P t.call h₁ e.1 := by
  refine h.pool_inv (fun _ ts => ∀ t ∈ ts, t.rest.After (P t.call) t.did ∧
      ∀ h₁ (e : Event Op Res) h₂, t.did = h₁ ++ e :: h₂ → P t.call h₁ e.1) (by simp) ?_ ?_ (fun _ _ _ h _ => h)
  · intro w ts c ih t ht
    rcases List.mem_append.1 ht with ht | ht
    · exact ih t ht
    · rw [List.mem_singleton.1 ht]
      exact ⟨hp c, fun h₁ e h₂ he => absurd he (by simp)⟩
  · intro w w' ts₁ ts₂ c h o k r ih _ _ t ht
    rcases List.mem_append.1 ht with ht | ht
    · exact ih t (List.mem_append_left _ ht)
    rcases List.mem_cons.1 ht with rfl | ht
    · obtain ⟨hrest, hdid⟩ := ih ⟨c, h, .call o k⟩ (by simp)
      refine ⟨hrest.2 r, fun h₁ e h₂ he => ?_⟩
      rcases split_snoc he with ⟨rfl, rfl⟩ | ⟨h₂', rfl⟩
      · exact hrest.1
      · exact hdid h₁ e h₂' rfl
    · exact ih t (by simp [ht])

/-- **What the answers have told goes on being so.**  `T` is what an answer tells of the state, `K` what a call starts with,
and `P` what a program has behind it before an operation; every step keeps the invariant, and what was told before it. -/
theorem Sys.Reach.told {S : Sys σ Call Op Res α} {ok : Sys.Cond σ Call Op Res α} {w₀ : σ} {I : σ → Prop} {R : σ → σ → Prop}
    {T : σ → Event Op Res → Prop} {K : Call → σ → Prop} {P : Call → List (Event Op Res) → Op → Prop}
    (hT : ∀ w w' e, R w w' → T w e → T w' e) (hK : ∀ w w' c, R w w' → K c w → K c w')
    (hp : ∀ c, (S.prog c).After (P c) []) (h0 : I w₀) (hstart : ∀ c w, S.ready c w → K c w)
    (hop : ∀ w w' ts₁ ts₂ c h o k r, S.Reach ok w₀ ⟨w, ts₁ ++ ⟨c, h, .call o k⟩ :: ts₂⟩ →
      ok ⟨w, ts₁ ++ ⟨c, h, .call o k⟩ :: ts₂⟩ ⟨c, h, .call o k⟩ o r → I w → K c w → P c h o → (∀ e ∈ h, T w e) →
      S.exec o w r w' → I w' ∧ R w w' ∧ T w' ⟨o, r⟩)
    (henv : ∀ w w' ts, S.Reach ok w₀ ⟨w, ts⟩ → I w → S.env w w' → I w' ∧ R w w') {c : Config σ Call Op Res α}
    (h : S.Reach ok w₀ c) : I c.world ∧ ∀ t ∈ c.threads, K t.call c.world ∧ ∀ e ∈ t.did, T c.world e := by
  induction h with
  | init => exact ⟨h0, by simp⟩
  | step hr hs ih =>
    obtain ⟨hI, hts⟩ := ih
    cases hs with
    | start w ts c hready =>
      refine ⟨hI, fun t ht => ?_⟩
      rcases List.mem_append.1 ht with ht | ht
      · exact hts t ht
      · rw [List.mem_singleton.1 ht]
        exact ⟨hstart c w hready, by simp⟩
    | perform w w' ts₁ ts₂ c h o k r he ho =>
      obtain ⟨hKc, hTc⟩ := hts ⟨c, h, .call o k⟩ (by simp)
      have hprior := ((hr.after hp) ⟨c, h, .call o k⟩ (by simp)).1.1
      obtain ⟨hI', hR, hnew⟩ := hop w w' ts₁ ts₂ c h o k r hr ho hI hKc hprior hTc he
      refine ⟨hI', fun t ht => ?_⟩
      have hold : ∀ t ∈ ts₁ ++ ⟨c, h, .call o k⟩ :: ts₂, K t.call w' ∧ ∀ e ∈ t.did, T w' e := fun t ht =>
        ⟨hK w w' _ hR (hts t ht).1, fun e hm => hT w w' e hR ((hts t ht).2 e hm)⟩
      rcases List.mem_append.1 ht with ht | ht
      · exact hold t (by simp [ht])
      rcases List.mem_cons.1 ht with rfl | ht
      · refine ⟨(hold ⟨c, h, .call o k⟩ (by simp)).1, fun e hm => ?_⟩
        rcases List.mem_append.1 hm with hm | hm
        · exact (hold ⟨c, h, .call o k⟩ (by simp)).2 e hm
        · rw [List.mem_singleton.1 hm]
          exact hnew
      · exact hold t (by simp [ht])
    | env w w' ts he =>
      obtain ⟨hI', hR⟩ := henv w w' ts hr hI he
      exact ⟨hI', fun t ht => ⟨hK w w' _ hR (hts t ht).1, fun e hm => hT w w' e hR ((hts t ht).2 e hm)⟩⟩

/-- What every operation must meet, of what its call has done before and of its answer, is met by all that was done. -/
theorem Sys.Reach.each {S : Sys σ Call Op Res α} {ok : Sys.Cond σ Call Op Res α} {w₀ : σ}
    {P : List (Event Op Res) → Event Op Res → Prop} (hok : ∀ c t o r, ok c t o r → P t.did ⟨o, r⟩)
    {c : Config σ Call Op Res α} (h : S.Reach ok w₀ c) : ∀ t ∈ c.threads, ∀ h₁ e h₂, t.did = h₁ ++ e :: h₂ → P h₁ e := by
  refine h.pool_inv (fun _ ts => ∀ t ∈ ts, ∀ h₁ (e : Event Op Res) h₂, t.did = h₁ ++ e :: h₂ → P h₁ e) (by simp) ?_ ?_
    (fun _ _ _ h _ => h)
  · intro w ts c ih t ht
    rcases List.mem_append.1 ht with ht | ht
    · exact ih t ht
    · rw [List.mem_singleton.1 ht]
      exact fun h₁ e h₂ he => absurd he (by simp)
  · intro w w' ts₁ ts₂ c h o k r ih _ ho t ht
    rcases List.mem_append.1 ht with ht | ht
    · exact ih t (List.mem_append_left _ ht)
    rcases List.mem_cons.1 ht with rfl | ht
    · intro h₁ e h₂ he
      rcases split_snoc he with ⟨rfl, rfl⟩ | ⟨h₂', rfl⟩
      · exact hok _ _ _ _ ho
      · exact ih ⟨c, h₁ ++ e :: h₂', .call o k⟩ (by simp) h₁ e h₂' rfl
    · exact ih t (by simp [ht])

/-! ## What a program has done when it returns -/

/-- However the program ends, `Q` holds of what it has done and of what it returns. -/
def Prog.Ends (Q : List (Event Op Res) → α → Prop) : List (Event Op Res) → Prog Op Res α → Prop
  | h, .ret a => Q h a
  | h, .call o k => ∀ r, (k r).Ends Q (h ++ [⟨o, r⟩])

theorem Prog.Ends.of_forall {Q : List (Event Op Res) → α → Prop} (hQ : ∀ h a, Q h a) :
    ∀ (p : Prog Op Res α) (h : List (Event Op Res)), p.Ends Q h
  | .ret a, h => hQ h a
  | .call _ k, _ => fun r => Prog.Ends.of_forall hQ (k r) _

theorem Prog.Ends.mono {Q Q' : List (Event Op Res) → α → Prop} (hQ : ∀ h a, Q h a → Q' h a) :
    ∀ {p : Prog Op Res α} {h : List (Event Op Res)}, p.Ends Q h → p.Ends Q' h
  | .ret a, h, hp => hQ h a hp
  | .call _ _, _, hp => fun r => Prog.Ends.mono hQ (hp r)

theorem Prog.Ends.bind {Q : List (Event Op Res) → β → Prop} {f : α → Prog Op Res β} :
    ∀ {p : Prog Op Res α} {h : List (Event Op Res)}, p.Ends (fun h a => (f a).Ends Q h) h → (p.bind f).Ends Q h
  | .ret _, _, hp => hp
  | .call _ _, _, hp => fun r => Prog.Ends.bind (hp r)

/-- Both at once: every operation satisfies `P` of what was done before it, and every end `Q`. -/
def Prog.Obeys (P : List (Event Op Res) → Op → Prop) (Q : List (Event Op Res) → α → Prop) :
    List (Event Op Res) → Prog Op Res α → Prop
  | h, .ret a => Q h a
  | h, .call o k => P h o ∧ ∀ r, (k r).Obeys P Q (h ++ [⟨o, r⟩])

theorem Prog.Obeys.after {P : List (Event Op Res) → Op → Prop} {Q : List (Event Op Res) → α → Prop} :
    ∀ {p : Prog Op Res α} {h : List (Event Op Res)}, p.Obeys P Q h → p.After P h
  | .ret _, _, _ => trivial
  | .call _ _, _, hp => ⟨hp.1, fun r => Prog.Obeys.after (hp.2 r)⟩

theorem Prog.Obeys.ends {P : List (Event Op Res) → Op → Prop} {Q : List (Event Op Res) → α → Prop} :
    ∀ {p : Prog Op Res α} {h : List (Event Op Res)}, p.Obeys P Q h → p.Ends Q h
  | .ret _, _, hp => hp
  | .call _ _, _, hp => fun r => Prog.Obeys.ends (hp.2 r)

theorem Prog.Obeys.mono {P : List (Event Op Res) → Op → Prop} {Q Q' : List (Event Op Res) → α → Prop}
    (hQ : ∀ h a, Q h a → Q' h a) : ∀ {p : Prog Op Res α} {h : List (Event Op Res)}, p.Obeys P Q h → p.Obeys P Q' h
  | .ret a, h, hp => hQ h a hp
  | .call _ _, _, hp => ⟨hp.1, fun r => Prog.Obeys.mono hQ (hp.2 r)⟩

theorem Prog.Obeys.bind {P : List (Event Op Res) → Op → Prop} {Q : List (Event Op Res) → β → Prop}
    {f : α → Prog Op Res β} : ∀ {p : Prog Op Res α} {h : List (Event Op Res)},
      p.Obeys P (fun h a => (f a).Obeys P Q h) h → (p.bind f).Obeys P Q h
  | .ret _, _, hp => hp
  | .call _ _, _, hp => ⟨hp.1, fun r => Prog.Obeys.bind (hp.2 r)⟩

/-- A program that may crash ends as it would have, or has crashed. -/
theorem Prog.Ends.cut {Q : List (Event Op Res) → α → Prop} :
    ∀ {p : Prog Op Res α} {h : List (Event Op Res)} (n : ℕ), p.Ends Q h →
      (p.cut n).Ends (fun h' a => (∃ x, a = some x ∧ Q h' x) ∨ (a = none ∧ h'.length = h.length + n)) h
  | .ret a, _, 0, hp | .ret a, _, _ + 1, hp => .inl ⟨a, rfl, hp⟩
  | .call _ _, _, 0, _ => .inr ⟨rfl, rfl⟩
  | .call o k, h, n + 1, hp => fun r => by
    refine (Prog.Ends.cut n (hp r)).mono fun h' a hq => ?_
    rw [List.length_append, List.length_singleton] at hq
    exact hq.imp_right fun hq => ⟨hq.1, by omega⟩

/-- **What every end of a program has behind it, a call that has returned has done.** -/
theorem Sys.Reach.ends {S : Sys σ Call Op Res α} {ok : Sys.Cond σ Call Op Res α} {w₀ : σ}
    {Q : Call → List (Event Op Res) → α → Prop} (hp : ∀ c, (S.prog c).Ends (Q c) []) {c : Config σ Call Op Res α}
    (h : S.Reach ok w₀ c) : ∀ t ∈ c.threads, t.rest.Ends (Q t.call) t.did := by
  refine h.pool_inv (fun _ ts => ∀ t ∈ ts, t.rest.Ends (Q t.call) t.did) (by simp) ?_ ?_ (fun _ _ _ h _ => h)
  · intro w ts c ih t ht
    rcases List.mem_append.1 ht with ht | ht
    · exact ih t ht
    · rw [List.mem_singleton.1 ht]
      exact hp c
  · intro w w' ts₁ ts₂ c h o k r ih _ _ t ht
    rcases List.mem_append.1 ht with ht | ht
    · exact ih t (List.mem_append_left _ ht)
    · rcases List.mem_cons.1 ht with rfl | ht
      · exact ih ⟨c, h, .call o k⟩ (by simp) r
      · exact ih t (by simp [ht])

/-- What a program does that runs alone under a deterministic interpretation. -/
def Prog.events (run : (o : Op) → σ → Res o × σ) : Prog Op Res α → σ → List (Event Op Res)
  | .ret _, _ => []
  | .call o k, w => ⟨o, (run o w).1⟩ :: (k (run o w).1).events run (run o w).2

theorem Prog.events_step {run : (o : Op) → σ → Res o × σ} {o : Op} {r : Res o} {w w' : σ} (h : run o w = (r, w'))
    (k : Res o → Prog Op Res α) : (Prog.call o k).events run w = ⟨o, r⟩ :: (k r).events run w' := by
  rw [Prog.events, h]

/-- **A pool can let one call run to its end alone**, deterministically. -/
theorem Sys.Reach.evals {S : Sys σ Call Op Res α} {ok : Sys.Cond σ Call Op Res α} {w₀ : σ} {run : (o : Op) → σ → Res o × σ}
    {c : Call} (hex : ∀ o w, S.exec o w (run o w).1 (run o w).2 ∧ ∀ ts t, t.call = c → ok ⟨w, ts⟩ t o (run o w).1)
    (ts₁ ts₂ : List (Thread Call Op Res α)) :
    ∀ {p : Prog Op Res α} {w : σ} {h : List (Event Op Res)}, S.Reach ok w₀ ⟨w, ts₁ ++ ⟨c, h, p⟩ :: ts₂⟩ →
      S.Reach ok w₀ ⟨(p.eval run w).2, ts₁ ++ ⟨c, h ++ p.events run w, .ret (p.eval run w).1⟩ :: ts₂⟩
  | .ret _, _, h, hr => by
    rw [Prog.events, List.append_nil]
    exact hr
  | .call o _, w, h, hr => by
    obtain ⟨he, hok⟩ := hex o w
    have hnext := Sys.Reach.evals hex ts₁ ts₂ (hr.step (.perform _ _ ts₁ ts₂ c _ _ _ _ he (hok _ _ rfl)))
    rw [List.append_assoc] at hnext
    exact hnext

theorem Sys.Trace.reach {S : Sys σ Call Op Res α} {w₀ : σ} {tr : List (Moment σ Call Op Res α)} {c : Config σ Call Op Res α}
    (h : S.Trace w₀ tr c) : S.Reach anyStep w₀ c := by
  induction h with
  | init => exact .init
  | start c _ hr ih => exact ih.step (.start _ _ c hr)
  | perform w' ts₁ ts₂ r _ he ih => exact ih.step (.perform _ w' ts₁ ts₂ _ _ _ _ r he trivial)
  | env _ he ih => exact ih.step (.env _ _ _ he)

/-- **An invariant of the pool at the end of a run**, for which every state on the way may be assumed to be reachable. -/
theorem Sys.Trace.reach_inv {S : Sys σ Call Op Res α} {w₀ : σ} {tr : List (Moment σ Call Op Res α)}
    {c : Config σ Call Op Res α} {P : Moment σ Call Op Res α → Prop} (J : σ → List (Thread Call Op Res α) → Prop)
    (h0 : J w₀ []) (hstart : ∀ w ts c, J w ts → S.ready c w → J w (ts ++ [⟨c, [], S.prog c⟩]))
    (hop : ∀ w w' ts₁ ts₂ c h o k r, S.Reach anyStep w₀ ⟨w, ts₁ ++ ⟨c, h, .call o k⟩ :: ts₂⟩ →
      J w (ts₁ ++ ⟨c, h, .call o k⟩ :: ts₂) → S.exec o w r w' →
      P ⟨⟨w, ts₁ ++ ⟨c, h, .call o k⟩ :: ts₂⟩, ⟨c, h, .call o k⟩, o, r, w'⟩ →
      J w' (ts₁ ++ ⟨c, h ++ [⟨o, r⟩], k r⟩ :: ts₂))
    (henv : ∀ w w' ts, J w ts → S.env w w' → J w' ts) (h : S.Trace w₀ tr c) (hP : ∀ m ∈ tr, P m) :
    J c.world c.threads := by
  induction h with
  | init => exact h0
  | start c _ hr ih => exact hstart _ _ c (ih hP) hr
  | perform w' ts₁ ts₂ r ht he ih =>
    refine hop _ w' ts₁ ts₂ _ _ _ _ r ht.reach (ih fun m hm => hP m (List.mem_append_left _ hm)) he (hP _ ?_)
    exact List.mem_append_right _ (by simp)
  | env _ he ih => exact henv _ _ _ (ih hP) he

/-- **A run can go on with a call that runs to its end alone**, by operations whose moments satisfy `P`. -/
theorem Sys.Trace.runs_all {S : Sys σ Call Op Res α} {w₀ : σ} {exec : (o : Op) → σ → Res o → σ → Prop} {c : Call}
    {P : Moment σ Call Op Res α → Prop}
    (hex : ∀ o w r w', exec o w r w' → S.exec o w r w' ∧ ∀ ts t, t.call = c → P ⟨⟨w, ts⟩, t, o, r, w'⟩)
    {ts : List (Thread Call Op Res α)} {a : α} {w' : σ} :
    ∀ {p : Prog Op Res α} {w : σ} {tr : List (Moment σ Call Op Res α)} {h : List (Event Op Res)}, p.Runs exec w a w' →
      S.Trace w₀ tr ⟨w, ts ++ [⟨c, h, p⟩]⟩ →
      ∃ tr' h', S.Trace w₀ (tr ++ tr') ⟨w', ts ++ [⟨c, h', .ret a⟩]⟩ ∧ ∀ m ∈ tr', P m
  | .ret _, _, tr, h, hp, ht => by
    obtain ⟨rfl, rfl⟩ := hp
    exact ⟨[], h, by rwa [List.append_nil], fun _ hm => absurd hm List.not_mem_nil⟩
  | .call _ _, _, _, _, hp, ht => by
    obtain ⟨r, w₁, he, hp⟩ := hp
    obtain ⟨he, hnew⟩ := hex _ _ _ _ he
    obtain ⟨tr', h', ht', hP⟩ := Sys.Trace.runs_all hex hp (ht.perform w₁ ts [] r he)
    rw [List.append_assoc] at ht'
    refine ⟨_, h', ht', fun m hm => ?_⟩
    rcases List.mem_cons.1 hm with rfl | hm
    · exact hnew _ _ rfl
    · exact hP m hm

theorem Sys.Trace.runs {S : Sys σ Call Op Res α} {w₀ : σ} {exec : (o : Op) → σ → Res o → σ → Prop}
    (hex : ∀ o w r w', exec o w r w' → S.exec o w r w') {c : Call} {ts : List (Thread Call Op Res α)} {a : α} {w w' : σ}
    {p : Prog Op Res α} {tr : List (Moment σ Call Op Res α)} {h : List (Event Op Res)} (hp : p.Runs exec w a w')
    (ht : S.Trace w₀ tr ⟨w, ts ++ [⟨c, h, p⟩]⟩) : ∃ tr' h', S.Trace w₀ tr' ⟨w', ts ++ [⟨c, h', .ret a⟩]⟩ := by
  obtain ⟨tr', h', ht', -⟩ := Sys.Trace.runs_all (P := fun _ => True)
    (fun o w r w' he => ⟨hex o w r w' he, fun _ _ _ => trivial⟩) hp ht
  exact ⟨_, h', ht'⟩

end Conc
