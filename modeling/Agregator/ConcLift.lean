import Agregator.ConcTrace
/-!
# ConcLift — programs over a part of a state

A system over several components runs programs that were written, and shown safe, over one of them each.  `Safe.lift` takes
the safety of such a program to the system; what relates the components is then an invariant of the pool, for which every
step may be assumed to keep what the programs keep (`Reach.safe_pool_inv`).  `Keeps` is for one program at a time, with what
comes between its operations a part of them: what holds wherever its run is cut off.
-/
namespace Conc

variable {Op Op' : Type} {Res : Op → Type} {Res' : Op' → Type} {α β σ τ Call : Type}

@[simp] theorem Prog.lift_ret (f : Op → Op') (g : (o : Op) → Res' (f o) → Res o) (a : α) :
    (Prog.ret a : Prog Op Res α).lift f g = .ret a := rfl

@[simp] theorem Prog.lift_call (f : Op → Op') (g : (o : Op) → Res' (f o) → Res o) (o : Op) (k : Res o → Prog Op Res α) :
    (Prog.call o k).lift f g = .call (f o) (fun r => (k (g o r)).lift f g) := rfl

/-- An event of a lifted program is one of the program. -/
def Lifts (f : Op → Op') (g : (o : Op) → Res' (f o) → Res o) (h : List (Event Op Res)) (h' : List (Event Op' Res')) : Prop :=
  ∀ e ∈ h, ∃ r, (⟨f e.1, r⟩ : Event Op' Res') ∈ h' ∧ g e.1 r = e.2

theorem Lifts.nil (f : Op → Op') (g : (o : Op) → Res' (f o) → Res o) : Lifts f g [] [] :=
  fun _ he => absurd he (by simp)

theorem Lifts.snoc {f : Op → Op'} {g : (o : Op) → Res' (f o) → Res o} {h : List (Event Op Res)} {h' : List (Event Op' Res')}
    (hh : Lifts f g h h') (o : Op) (r : Res' (f o)) : Lifts f g (h ++ [⟨o, g o r⟩]) (h' ++ [⟨f o, r⟩]) := by
  intro e he
  rcases List.mem_append.1 he with he | he
  · obtain ⟨r', hr', hg⟩ := hh e he
    exact ⟨r', List.mem_append_left _ hr', hg⟩
  · rw [List.mem_singleton.1 he]
    exact ⟨r, List.mem_append_right _ (by simp), rfl⟩

/-- What a lifted program has behind it is what the program has, lifted. -/
theorem Prog.After.lift {f : Op → Op'} {g : (o : Op) → Res' (f o) → Res o} {P : List (Event Op' Res') → Op' → Prop} :
    ∀ {p : Prog Op Res α} {h : List (Event Op Res)} {h' : List (Event Op' Res')}, Lifts f g h h' →
      p.After (fun h o => ∀ h', Lifts f g h h' → P h' (f o)) h → (p.lift f g).After P h'
  | .ret _, _, _, _, _ => trivial
  | .call _ _, _, _, hh, hp => ⟨hp.1 _ hh, fun r => Prog.After.lift (hh.snoc _ r) (hp.2 (g _ r))⟩

section Lift

variable {f : Op → Op'} {g : (o : Op) → Res' (f o) → Res o} {exec : (o : Op) → σ → Res o → σ → Prop}
  {exec' : (o : Op') → τ → Res' o → τ → Prop} {I : σ → Prop} {R : σ → σ → Prop} {I' : τ → Prop} {R' : τ → τ → Prop}

/-- **A program that is safe over a component is safe over the whole**, if its operations leave the rest as it is. -/
theorem Prog.Safe.lift (π : τ → σ) (hI : ∀ w, I' w → I (π w)) (hR : ∀ w w', R' w w' → R (π w) (π w'))
    (hexec : ∀ o w r w', I' w → exec' (f o) w r w' →
      exec o (π w) (g o r) (π w') ∧ (I (π w') → R (π w) (π w') → I' w' ∧ R' w w'))
    {Q : List (Event Op Res) → α → σ → Prop} :
    ∀ {p : Prog Op Res α} {h : List (Event Op Res)} {h' : List (Event Op' Res')} {w : τ}, Lifts f g h h' →
      p.Safe exec (fun _ _ _ => True) I R Q h (π w) →
      (p.lift f g).Safe exec' (fun _ _ _ => True) I' R' (fun h' a w => ∃ h, Lifts f g h h' ∧ Q h a (π w)) h' w
  | .ret _, h, _, _, hh, hs => fun w' hRw hIw => ⟨h, hh, hs (π w') (hR _ _ hRw) (hI _ hIw)⟩
  | .call o _, _, _, _, hh, hs => by
    intro w₁ hRw hIw r w₂ he _
    obtain ⟨he, hback⟩ := hexec o w₁ r w₂ hIw he
    obtain ⟨hI₂, hR₂, hk⟩ := hs (π w₁) (hR _ _ hRw) (hI _ hIw) (g o r) (π w₂) he trivial
    obtain ⟨hI₂', hR₂'⟩ := hback hI₂ hR₂
    exact ⟨hI₂', hR₂', Prog.Safe.lift π hI hR hexec (hh.snoc o r) hk⟩

/-- **A run over a component is one over the whole.** -/
theorem Prog.Runs.lift (inj : σ → τ)
    (hexec : ∀ o w r w', exec o w r w' → ∃ r', g o r' = r ∧ exec' (f o) (inj w) r' (inj w')) :
    ∀ {p : Prog Op Res α} {w : σ} {a : α} {w' : σ}, p.Runs exec w a w' → (p.lift f g).Runs exec' (inj w) a (inj w')
  | .ret _, _, _, _, h => ⟨h.1, by rw [h.2]⟩
  | .call o _, _, _, _, h => by
    obtain ⟨r, w₁, he, h⟩ := h
    obtain ⟨r', rfl, he'⟩ := hexec o _ r w₁ he
    exact ⟨r', inj w₁, he', Prog.Runs.lift inj hexec h⟩

/-- **A lifted program runs as the program does**, its operations being those of the larger set. -/
theorem Prog.runs_lift : ∀ {p : Prog Op Res α} {w : τ} {a : α} {w' : τ}, (p.lift f g).Runs exec' w a w' ↔
    p.Runs (fun o w r w' => ∃ r', g o r' = r ∧ exec' (f o) w r' w') w a w'
  | .ret _, _, _, _ => Iff.rfl
  | .call o k, w, a, w' => by
    simp only [lift_call, Runs, runs_lift]
    constructor
    · rintro ⟨r', w₁, he, h⟩
      exact ⟨_, w₁, ⟨r', rfl, he⟩, h⟩
    · rintro ⟨_, w₁, ⟨r', rfl, he⟩, h⟩
      exact ⟨r', w₁, he, h⟩

/-- **A program whose operations keep the invariant after what they come after is safe.**  `E` is what is known of the
answers. -/
theorem Prog.After.safe {P : List (Event Op Res) → Op → Prop} {E : Event Op Res → Prop}
    (hE : ∀ o w r w', I w → exec o w r w' → E ⟨o, r⟩)
    (hop : ∀ h o w r w', P h o → (∀ e ∈ h, E e) → I w → exec o w r w' → I w' ∧ R w w') :
    ∀ {p : Prog Op Res α} {h : List (Event Op Res)} {w : σ}, p.After P h → (∀ e ∈ h, E e) →
      p.Safe exec (fun _ _ _ => True) I R (fun _ _ _ => True) h w
  | .ret _, _, _, _, _ => fun _ _ _ => trivial
  | .call o _, h, _, hp, hh => by
    intro w₁ _ hIw r w₂ he _
    obtain ⟨hI₂, hR₂⟩ := hop h o w₁ r w₂ hp.1 hh hIw he
    refine ⟨hI₂, hR₂, Prog.After.safe hE hop (hp.2 r) fun e hm => ?_⟩
    rcases List.mem_append.1 hm with hm | hm
    · exact hh e hm
    · rw [List.mem_singleton.1 hm]
      exact hE o w₁ r w₂ hIw he

/-- A program all of whose operations keep the invariant is safe, and goes where they go. -/
theorem Prog.All.safe {P : Op → Prop} (htrans : ∀ a b c, R a b → R b c → R a c)
    (hop : ∀ o w r w', P o → I w → exec o w r w' → I w' ∧ R w w') {w₀ : σ} :
    ∀ {p : Prog Op Res α} {h : List (Event Op Res)} {w : σ}, p.All P → R w₀ w →
      p.Safe exec (fun _ _ _ => True) I R (fun _ _ w' => R w₀ w') h w
  | .ret _, _, _, _, h0 => fun _ hR _ => htrans _ _ _ h0 hR
  | .call o _, _, _, hp, h0 => fun w₁ hR hIw r w₂ he _ =>
    have ⟨hI₂, hR₂⟩ := hop o w₁ r w₂ hp.1 hIw he
    ⟨hI₂, hR₂, Prog.All.safe htrans hop (hp.2 r) (htrans _ _ _ (htrans _ _ _ h0 hR) hR₂)⟩

end Lift

/-- **An invariant of a pool of safe programs**: every step keeps the invariant of the state, and is related by what the
programs guarantee. -/
theorem Sys.Reach.safe_pool_inv {S : Sys σ Call Op Res α} {ok : Sys.Cond σ Call Op Res α} {w₀ : σ} {I : σ → Prop}
    {R : σ → σ → Prop} (hrefl : ∀ a, R a a) (htrans : ∀ a b c, R a b → R b c → R a c)
    {Q : Call → List (Event Op Res) → α → σ → Prop} (h0 : I w₀)
    (hprog : ∀ c w, I w → S.ready c w → (S.prog c).Safe S.exec (fun _ _ _ => True) I R (Q c) [] w)
    (henv : ∀ w w', I w → S.env w w' → I w' ∧ R w w') (J : σ → List (Thread Call Op Res α) → Prop) (hJ : J w₀ [])
    (hstart : ∀ w ts c, I w → J w ts → S.ready c w → J w (ts ++ [⟨c, [], S.prog c⟩]))
    (hop : ∀ w w' ts₁ ts₂ c h o k r, I w → I w' → R w w' → J w (ts₁ ++ ⟨c, h, .call o k⟩ :: ts₂) → S.exec o w r w' →
      ok ⟨w, ts₁ ++ ⟨c, h, .call o k⟩ :: ts₂⟩ ⟨c, h, .call o k⟩ o r → J w' (ts₁ ++ ⟨c, h ++ [⟨o, r⟩], k r⟩ :: ts₂))
    (hJenv : ∀ w w' ts, I w → R w w' → J w ts → S.env w w' → J w' ts) {c : Config σ Call Op Res α} (h : S.Reach ok w₀ c) :
    J c.world c.threads := by
  have hsafe : ∀ {c}, S.Reach ok w₀ c → I c.world ∧ R w₀ c.world ∧
      ∀ t ∈ c.threads, t.rest.Safe S.exec (fun _ _ _ => True) I R (Q t.call) t.did c.world := fun h =>
    h.safe (fun _ _ _ _ => True) (fun _ _ _ _ _ => trivial) hrefl htrans h0 (fun c w _ hI hr => hprog c w hI hr) henv
  induction h with
  | init => exact hJ
  | step hr hs ih =>
    obtain ⟨hI, -, hts⟩ := hsafe hr
    cases hs with
    | start w ts c hready => exact hstart w ts c hI ih hready
    | perform w w' ts₁ ts₂ c h o k r he hok =>
      obtain ⟨hI', hR', -⟩ := hts ⟨c, h, .call o k⟩ (by simp) w (hrefl w) hI r w' he trivial
      exact hop w w' ts₁ ts₂ c h o k r hI hI' hR' ih he hok
    | env w w' ts he => exact hJenv w w' ts hI (henv w w' hI he).2 ih he

/-! ## What every operation of a run keeps -/

section Keeps

variable {exec : (o : Op) → σ → Res o → σ → Prop} {exec' : (o : Op') → τ → Res' o → τ → Prop} {I I' : σ → Prop}

/-- Every operation of a run of the program leaves `I`, and the run ends with `Q`. -/
def Prog.Keeps (exec : (o : Op) → σ → Res o → σ → Prop) (I : σ → Prop) (Q : α → σ → Prop) : Prog Op Res α → σ → Prop
  | .ret a, w => Q a w
  | .call o k, w => ∀ r w', exec o w r w' → I w' ∧ (k r).Keeps exec I Q w'

theorem Prog.Keeps.bind {f : α → Prog Op Res β} {Q : β → σ → Prop} :
    ∀ {p : Prog Op Res α} {w : σ}, p.Keeps exec I (fun a w => (f a).Keeps exec I Q w) w → (p.bind f).Keeps exec I Q w
  | .ret _, _, h => h
  | .call _ _, _, h => fun r w' he => ⟨(h r w' he).1, Prog.Keeps.bind (h r w' he).2⟩

theorem Prog.Keeps.mono {Q Q' : α → σ → Prop} (hI : ∀ w, I w → I' w) (hQ : ∀ a w, Q a w → Q' a w) :
    ∀ {p : Prog Op Res α} {w : σ}, p.Keeps exec I Q w → p.Keeps exec I' Q' w
  | .ret a, w, h => hQ a w h
  | .call _ _, _, h => fun r w' he => ⟨hI w' (h r w' he).1, Prog.Keeps.mono hI hQ (h r w' he).2⟩

/-- **What each operation keeps, the program keeps.** -/
theorem Prog.All.keeps {P : Op → Prop} (hop : ∀ o w r w', P o → I w → exec o w r w' → I w') :
    ∀ {p : Prog Op Res α} {w : σ}, p.All P → I w → p.Keeps exec I (fun _ w => I w) w
  | .ret _, _, _, hw => hw
  | .call o _, w, h, hw => fun r w' he =>
    have hw' := hop o w r w' h.1 hw he
    ⟨hw', Prog.All.keeps hop (h.2 r) hw'⟩

/-- **Wherever a run is cut off, what its operations keep holds.** -/
theorem Prog.Keeps.reaches {Q : α → σ → Prop} {P : Prog Op Res α → σ → Prop} {p : Prog Op Res α} {w : σ}
    (hp : p.Reaches exec P w) (h : p.Keeps exec I Q w) (hw : I w) : ∃ q w', P q w' ∧ I w' := by
  induction hp with
  | here hP => exact ⟨_, _, hP, hw⟩
  | call he _ ih => exact ih (h _ _ he).2 (h _ _ he).1

/-- The same of a run, with what its end satisfies if it comes to it. -/
theorem Prog.Keeps.cut {Q : α → σ → Prop} : ∀ {p : Prog Op Res α} {w : σ} (n : ℕ) {res : Option α} {w' : σ}, p.Keeps exec I Q w → I w →
    (p.cut n).Runs exec w res w' → I w' ∧ ∀ a, res = some a → Q a w'
  | .ret _, _, 0, _, _, h, hw, hr | .ret _, _, _ + 1, _, _, h, hw, hr => by
    obtain ⟨rfl, rfl⟩ := hr
    refine ⟨hw, fun a ha => ?_⟩
    obtain rfl := Option.some.inj ha
    exact h
  | .call _ _, _, 0, _, _, _, hw, hr => by
    obtain ⟨rfl, rfl⟩ := hr
    exact ⟨hw, fun a ha => by cases ha⟩
  | .call _ _, _, n + 1, _, _, h, _, hr => by
    obtain ⟨r, w₁, he, hr⟩ := hr
    exact Prog.Keeps.cut n (h r w₁ he).2 (h r w₁ he).1 hr

theorem Prog.keeps_lift {f : Op → Op'} {g : (o : Op) → Res' (f o) → Res o} {I : τ → Prop} {Q : α → τ → Prop} :
    ∀ {p : Prog Op Res α} {w : τ}, p.Keeps (fun o w r w' => ∃ r', g o r' = r ∧ exec' (f o) w r' w') I Q w →
      (p.lift f g).Keeps exec' I Q w
  | .ret _, _, h => h
  | .call o _, _, h => fun r' w' he => ⟨(h (g o r') w' ⟨r', rfl, he⟩).1, Prog.keeps_lift (h (g o r') w' ⟨r', rfl, he⟩).2⟩

end Keeps

end Conc
