import Agregator.ConcTrace
/-!
# ConcMoments — the moments of a run, in their order

A run up to one of its moments is a run (`Trace.before`), every operation of a call has its moment (`Trace.performed`), and
what holds from a moment on is shown step by step from that moment (`Trace.inv_from`).
-/
namespace Conc

variable {Op : Type} {Res : Op → Type} {α σ Call : Type}

/-- A moment as a step of the pool: its call stands in the pool before it, about to perform its operation. -/
structure Moment.Step (S : Sys σ Call Op Res α) (m : Moment σ Call Op Res α) : Prop where
  thread : ∃ ts₁ ts₂ k, m.before.threads = ts₁ ++ m.thread :: ts₂ ∧ m.thread.rest = .call m.op k
  exec : S.exec m.op m.before.world m.res m.after

/-- A call of the pool after a step is one of before, or the one that has made the step. -/
theorem mem_drop_step {τ : Type} {a b t : τ} {ts₁ ts₂ : List τ} {n : ℕ} (h : t ∈ (ts₁ ++ b :: ts₂).drop n) :
    t ∈ (ts₁ ++ a :: ts₂).drop n ∨ (t = b ∧ a ∈ (ts₁ ++ a :: ts₂).drop n) := by
  by_cases hn : n ≤ ts₁.length
  · rw [List.drop_append_of_le_length hn] at h ⊢
    rcases List.mem_append.1 h with h | h
    · exact .inl (List.mem_append_left _ h)
    · rcases List.mem_cons.1 h with rfl | h
      · exact .inr ⟨rfl, List.mem_append_right _ List.mem_cons_self⟩
      · exact .inl (List.mem_append_right _ (List.mem_cons_of_mem _ h))
  · have hdrop : ∀ x : τ, (ts₁ ++ x :: ts₂).drop n = ts₂.drop (n - (ts₁.length + 1)) := by
      intro x
      rw [show ts₁ ++ x :: ts₂ = (ts₁ ++ [x]) ++ ts₂ by simp,
        List.drop_append, List.drop_eq_nil_of_le (by rw [List.length_append, List.length_singleton]; omega),
        List.nil_append, List.length_append, List.length_singleton]
    rw [hdrop] at h ⊢
    exact .inl h

namespace Sys.Trace

variable {S : Sys σ Call Op Res α} {w₀ : σ} {tr : List (Moment σ Call Op Res α)} {c : Config σ Call Op Res α}

theorem steps (h : S.Trace w₀ tr c) : ∀ m ∈ tr, m.Step S :=
  h.all_of_step (P := fun _ => True) (fun _ _ => trivial) fun _ _ _ ts₁ ts₂ _ _ _ k _ _ _ he _ => ⟨⟨ts₁, ts₂, k, rfl, rfl⟩, he⟩

/-- **A run up to one of its moments is a run.** -/
theorem before (h : S.Trace w₀ tr c) : ∀ {tr₁ tr₂ : List (Moment σ Call Op Res α)} {m : Moment σ Call Op Res α},
    tr = tr₁ ++ m :: tr₂ → S.Trace w₀ tr₁ m.before := by
  induction h with
  | init => exact fun htr => absurd htr (by simp)
  | start c _ _ ih => exact ih
  | perform w' ts₁ ts₂ r ht _ ih =>
    intro tr₁ tr₂ m htr
    rcases split_snoc htr with ⟨rfl, rfl⟩ | ⟨tr₂', htr'⟩
    · exact ht
    · exact ih htr'
  | env _ _ ih => exact ih

/-- What a program has behind it before an operation, it has at the moment of the operation. -/
theorem prior (h : S.Trace w₀ tr c) {P : Call → List (Event Op Res) → Op → Prop} (hp : ∀ c, (S.prog c).After (P c) []) :
    ∀ m ∈ tr, P m.thread.call m.thread.did m.op := by
  intro m hm
  obtain ⟨tr₁, tr₂, htr⟩ := List.append_of_mem hm
  obtain ⟨ts₁, ts₂, k, hts, hrest⟩ := (h.steps m hm).thread
  have hafter := ((h.before htr).reach.after hp m.thread (by rw [hts]; simp)).1
  rw [hrest] at hafter
  exact hafter.1

/-- **Every operation a call has performed has its moment.** -/
theorem performed (h : S.Trace w₀ tr c) : ∀ t ∈ c.threads, ∀ h₁ e h₂, t.did = h₁ ++ e :: h₂ →
    ∃ m ∈ tr, m.thread.call = t.call ∧ m.thread.did = h₁ ∧ m.event = e := by
  induction h with
  | init => exact fun t ht => absurd ht (by simp)
  | start c _ _ ih =>
    intro t ht h₁ e h₂ hd
    rcases List.mem_append.1 ht with ht | ht
    · exact ih t ht h₁ e h₂ hd
    · rw [List.mem_singleton.1 ht] at hd
      exact absurd hd (by simp)
  | @perform tr w w' ts₁ ts₂ c did o k r _ _ ih =>
    intro t ht h₁ e h₂ hd
    have hold : ∀ t ∈ ts₁ ++ ⟨c, did, .call o k⟩ :: ts₂, ∀ h₂, t.did = h₁ ++ e :: h₂ →
        ∃ m ∈ tr ++ [⟨⟨w, ts₁ ++ ⟨c, did, .call o k⟩ :: ts₂⟩, ⟨c, did, .call o k⟩, o, r, w'⟩],
          m.thread.call = t.call ∧ m.thread.did = h₁ ∧ m.event = e := by
      intro t ht h₂ hd
      obtain ⟨m, hm, hcall⟩ := ih t ht h₁ e h₂ hd
      exact ⟨m, List.mem_append_left _ hm, hcall⟩
    rcases List.mem_append.1 ht with ht | ht
    · exact hold t (List.mem_append_left _ ht) h₂ hd
    rcases List.mem_cons.1 ht with rfl | ht
    · rcases split_snoc hd with ⟨rfl, rfl⟩ | ⟨h₂', hd'⟩
      · exact ⟨_, List.mem_append_right _ (List.mem_singleton.2 rfl), rfl, rfl, rfl⟩
      · exact hold ⟨c, did, .call o k⟩ (List.mem_append_right _ List.mem_cons_self) h₂' hd'
    · exact hold t (List.mem_append_right _ (List.mem_cons_of_mem _ ht)) h₂ hd
  | env _ _ ih => exact ih

/-- The moment of an operation, and what it did to the shared state. -/
theorem performing (h : S.Trace w₀ tr c) {t : Thread Call Op Res α} (ht : t ∈ c.threads) {e : Event Op Res} (he : e ∈ t.did) :
    ∃ m ∈ tr, m.thread.call = t.call ∧ m.thread.did ++ [m.event] <+: t.did ∧ m.event = e ∧
      S.exec e.1 m.before.world e.2 m.after := by
  obtain ⟨h₁, h₂, hdid⟩ := List.append_of_mem he
  obtain ⟨m, hm, hcall, hbefore, rfl⟩ := h.performed t ht h₁ e h₂ hdid
  exact ⟨m, hm, hcall, by rw [hbefore, hdid]; exact ⟨h₂, by simp⟩, rfl, (h.steps m hm).exec⟩

/-- **A call that has performed an operation has it behind it from then on.** -/
theorem lasting (h : S.Trace w₀ tr c) : ∀ m ∈ tr, ∃ t ∈ c.threads, t.call = m.thread.call ∧
    ∃ h₂, t.did = m.thread.did ++ m.event :: h₂ := by
  induction h with
  | init => exact fun m hm => absurd hm (by simp)
  | start c _ _ ih =>
    intro m hm
    obtain ⟨t, ht, hcall⟩ := ih m hm
    exact ⟨t, List.mem_append_left _ ht, hcall⟩
  | @perform tr w w' ts₁ ts₂ c did o k r _ _ ih =>
    intro m hm
    rcases List.mem_append.1 hm with hm | hm
    · obtain ⟨t, ht, hcall, h₂, hdid⟩ := ih m hm
      rcases List.mem_append.1 ht with ht | ht
      · exact ⟨t, List.mem_append_left _ ht, hcall, h₂, hdid⟩
      rcases List.mem_cons.1 ht with rfl | ht
      · refine ⟨⟨c, did ++ [⟨o, r⟩], k r⟩, List.mem_append_right _ List.mem_cons_self, hcall, h₂ ++ [⟨o, r⟩], ?_⟩
        have hdid : did = m.thread.did ++ m.event :: h₂ := hdid
        rw [hdid, List.append_assoc, List.cons_append]
      · exact ⟨t, List.mem_append_right _ (List.mem_cons_of_mem _ ht), hcall, h₂, hdid⟩
    · rw [List.mem_singleton.1 hm]
      exact ⟨⟨c, did ++ [⟨o, r⟩], k r⟩, List.mem_append_right _ List.mem_cons_self, rfl, [], rfl⟩
  | env _ _ ih => exact ih

/-- **An invariant from a moment on**, of what has happened since and of the pool. -/
theorem inv_from {tr₁ : List (Moment σ Call Op Res α)} {d : Moment σ Call Op Res α} {P : Moment σ Call Op Res α → Prop}
    (J : List (Moment σ Call Op Res α) → σ → List (Thread Call Op Res α) → Prop)
    (hbase : ∀ w w' ts₁ ts₂ c h o k r, S.Trace w₀ tr₁ ⟨w, ts₁ ++ ⟨c, h, .call o k⟩ :: ts₂⟩ → S.exec o w r w' →
      d = ⟨⟨w, ts₁ ++ ⟨c, h, .call o k⟩ :: ts₂⟩, ⟨c, h, .call o k⟩, o, r, w'⟩ →
      J [] w' (ts₁ ++ ⟨c, h ++ [⟨o, r⟩], k r⟩ :: ts₂))
    (hstart : ∀ tr₂ w ts c, J tr₂ w ts → S.ready c w → J tr₂ w (ts ++ [⟨c, [], S.prog c⟩]))
    (hop : ∀ tr₂ w w' ts₁ ts₂ c h o k r, S.Trace w₀ (tr₁ ++ d :: tr₂) ⟨w, ts₁ ++ ⟨c, h, .call o k⟩ :: ts₂⟩ →
      J tr₂ w (ts₁ ++ ⟨c, h, .call o k⟩ :: ts₂) → S.exec o w r w' →
      P ⟨⟨w, ts₁ ++ ⟨c, h, .call o k⟩ :: ts₂⟩, ⟨c, h, .call o k⟩, o, r, w'⟩ →
      J (tr₂ ++ [⟨⟨w, ts₁ ++ ⟨c, h, .call o k⟩ :: ts₂⟩, ⟨c, h, .call o k⟩, o, r, w'⟩]) w'
        (ts₁ ++ ⟨c, h ++ [⟨o, r⟩], k r⟩ :: ts₂))
    (henv : ∀ tr₂ w w' ts, J tr₂ w ts → S.env w w' → J tr₂ w' ts) (h : S.Trace w₀ tr c) :
    ∀ {tr₂ : List (Moment σ Call Op Res α)}, tr = tr₁ ++ d :: tr₂ → (∀ m ∈ tr₂, P m) → J tr₂ c.world c.threads := by
  induction h with
  | init => exact fun htr => absurd htr (by simp)
  | start c _ hr ih => exact fun htr hP => hstart _ _ _ c (ih htr hP) hr
  | perform w' ts₁ ts₂ r ht he ih =>
    intro tr₂ htr hP
    rcases List.eq_nil_or_concat tr₂ with rfl | ⟨tr₂', m, rfl⟩
    · obtain ⟨rfl, hlast⟩ := List.append_inj' htr rfl
      exact hbase _ w' ts₁ ts₂ _ _ _ _ r ht he (List.singleton_inj.1 hlast).symm
    · rw [List.concat_eq_append] at hP ⊢
      rw [List.concat_eq_append, ← List.cons_append, ← List.append_assoc] at htr
      obtain ⟨rfl, hlast⟩ := List.append_inj' htr rfl
      obtain rfl := List.singleton_inj.1 hlast
      refine hop _ _ w' ts₁ ts₂ _ _ _ _ r ht (ih rfl fun m hm => hP m (List.mem_append_left _ hm)) he (hP _ ?_)
      exact List.mem_append_right _ (List.mem_singleton.2 rfl)
  | env _ he ih => exact fun htr hP => henv _ _ _ _ (ih htr hP) he

/-- The same for the shared state alone. -/
theorem keeps_from {tr₁ tr₂ : List (Moment σ Call Op Res α)} {d : Moment σ Call Op Res α} {F : σ → Prop}
    (h : S.Trace w₀ (tr₁ ++ d :: tr₂) c) (hF : F d.after)
    (hop : ∀ m ∈ tr₂, m.Step S → F m.before.world → F m.after) (henv : ∀ w w', S.env w w' → F w → F w') : F c.world := by
  refine h.inv_from (P := fun m => m.Step S → F m.before.world → F m.after) (fun _ w _ => F w) ?_ (fun _ _ _ _ hw _ => hw) ?_
    (fun _ w w' _ hw he => henv w w' he hw) rfl hop
  · rintro w w' ts₁ ts₂ c h o k r - - rfl
    exact hF
  · intro tr₂ w w' ts₁ ts₂ c h o k r _ hw he hP
    exact hP ⟨⟨ts₁, ts₂, k, rfl, rfl⟩, he⟩ hw

/-- **What a moment brings about and all later ones keep, the calls that start after it have found throughout.**  `E` is
what an operation tells where `F` holds. -/
theorem since {tr₁ tr₂ : List (Moment σ Call Op Res α)} {d : Moment σ Call Op Res α} {F : σ → Prop}
    {E : Event Op Res → Prop} (h : S.Trace w₀ (tr₁ ++ d :: tr₂) c) (hF : F d.after)
    (hop : ∀ m ∈ tr₂, m.Step S → F m.before.world → F m.after ∧ E m.event) (henv : ∀ w w', S.env w w' → F w → F w') :
    F c.world ∧ ∀ t ∈ c.threads.drop d.before.threads.length, ∀ e ∈ t.did, E e := by
  refine h.inv_from (P := fun m => m.Step S → F m.before.world → F m.after ∧ E m.event)
    (fun _ w ts => F w ∧ ∀ t ∈ ts.drop d.before.threads.length, ∀ e ∈ t.did, E e) ?_ ?_ ?_ ?_ rfl hop
  · rintro w w' ts₁ ts₂ c h o k r - - rfl
    refine ⟨hF, fun t ht => ?_⟩
    rw [List.drop_eq_nil_of_le (by simp)] at ht
    exact absurd ht List.not_mem_nil
  · rintro tr₂ w ts c ⟨hw, hts⟩ -
    refine ⟨hw, fun t ht e he => ?_⟩
    rw [List.drop_append] at ht
    rcases List.mem_append.1 ht with ht | ht
    · exact hts t ht e he
    · rw [List.mem_singleton.1 (List.mem_of_mem_drop ht)] at he
      exact absurd he List.not_mem_nil
  · rintro tr₂ w w' ts₁ ts₂ c h o k r - ⟨hw, hts⟩ he hP
    obtain ⟨hw', hE⟩ := hP ⟨⟨ts₁, ts₂, k, rfl, rfl⟩, he⟩ hw
    refine ⟨hw', fun t ht e hm => ?_⟩
    rcases mem_drop_step (a := ⟨c, h, .call o k⟩) ht with hold | ⟨rfl, hold⟩
    · exact hts t hold e hm
    · rcases List.mem_append.1 hm with hm | hm
      · exact hts ⟨c, h, .call o k⟩ hold e hm
      · rw [List.mem_singleton.1 hm]
        exact hE
  · rintro tr₂ w w' ts ⟨hw, hts⟩ he
    exact ⟨henv w w' he hw, hts⟩

end Sys.Trace

/-! ## The history of a program -/

/-- However a program ends, what was behind it still is. -/
theorem Prog.Ends.grows : ∀ (p : Prog Op Res α) (h : List (Event Op Res)), p.Ends (fun h' _ => h <+: h') h
  | .ret _, _ => List.prefix_rfl
  | .call o k, h => fun r => (Prog.Ends.grows (k r) (h ++ [⟨o, r⟩])).mono fun _ _ hp => (List.prefix_append h _).trans hp

theorem Prog.Obeys.grows {P : List (Event Op Res) → Op → Prop} {Q : List (Event Op Res) → α → Prop} :
    ∀ {p : Prog Op Res α} {h : List (Event Op Res)}, p.Obeys P Q h → p.Obeys P (fun h' a => h <+: h' ∧ Q h' a) h
  | .ret _, _, hp => ⟨List.prefix_rfl, hp⟩
  | .call _ _, h, hp =>
    ⟨hp.1, fun r => (Prog.Obeys.grows (hp.2 r)).mono fun _ _ hq => ⟨(List.prefix_append h _).trans hq.1, hq.2⟩⟩

/-- Two facts about the ends of a program. -/
theorem Prog.Ends.and {Q Q' : List (Event Op Res) → α → Prop} :
    ∀ {p : Prog Op Res α} {h : List (Event Op Res)}, p.Ends Q h → p.Ends Q' h → p.Ends (fun h a => Q h a ∧ Q' h a) h
  | .ret _, _, hp, hp' => ⟨hp, hp'⟩
  | .call _ _, _, hp, hp' => fun r => Prog.Ends.and (hp r) (hp' r)

theorem Prog.Ends.ite {Q : List (Event Op Res) → α → Prop} {p : Prop} [Decidable p] {p₁ p₂ : Prog Op Res α}
    {h : List (Event Op Res)} (h₁ : p₁.Ends Q h) (h₂ : p₂.Ends Q h) : (if p then p₁ else p₂).Ends Q h := by
  by_cases hp : p
  · rwa [if_pos hp]
  · rwa [if_neg hp]

theorem Prog.After.mono {P P' : List (Event Op Res) → Op → Prop} (hP : ∀ h o, P h o → P' h o) :
    ∀ {p : Prog Op Res α} {h : List (Event Op Res)}, p.After P h → p.After P' h
  | .ret _, _, _ => trivial
  | .call o _, h, hp => ⟨hP h o hp.1, fun r => Prog.After.mono hP (hp.2 r)⟩

theorem Prog.Obeys.ite {P : List (Event Op Res) → Op → Prop} {Q : List (Event Op Res) → α → Prop} {p : Prop} [Decidable p]
    {p₁ p₂ : Prog Op Res α} {h : List (Event Op Res)} (h₁ : p₁.Obeys P Q h) (h₂ : p₂.Obeys P Q h) :
    (if p then p₁ else p₂).Obeys P Q h := by
  by_cases hp : p
  · rwa [if_pos hp]
  · rwa [if_neg hp]

end Conc
