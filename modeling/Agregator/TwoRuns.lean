/-!
# TwoRuns — what a sequence of requests tells of a state

Two runs of a deterministic server on states that are related.  When every request keeps the relation and answers alike, so does a
sequence (`answers_eq`); when some request tells related states apart and all keep the relation, the sequence does (`answers_ne`).
-/
namespace TwoRuns

variable {ρ σ α : Type} (step : ρ → σ → α × σ)

/-- The answers to some requests, one after the other. -/
def answers : List ρ → σ → List α
  | [], _ => []
  | r :: rs, s => (step r s).1 :: answers rs (step r s).2

variable {step}

/-- **Requests that keep a relation and answer alike, whatever came before them.** -/
theorem answers_eq {R : σ → σ → Prop} {P : ρ → σ → Prop}
    (hstep : ∀ r s s', R s s' → P r s → (step r s).1 = (step r s').1 ∧ R (step r s).2 (step r s').2)
    (hkeep : ∀ r r' s, P r s → P r (step r' s).2) :
    ∀ (rs : List ρ) {s s' : σ}, R s s' → (∀ r ∈ rs, P r s) → answers step rs s = answers step rs s'
  | [], _, _, _, _ => rfl
  | r :: rs, s, s', hR, hP => by
    obtain ⟨hanswer, hR'⟩ := hstep r s s' hR (hP r List.mem_cons_self)
    have hrest := answers_eq hstep hkeep rs hR' fun r' hr' => hkeep r' r s (hP r' (List.mem_cons_of_mem _ hr'))
    simp only [answers, hanswer, hrest]

/-- **A request that tells two states apart**, among requests after which they are still apart. -/
theorem answers_ne {D : σ → σ → Prop} (hkeep : ∀ r s s', D s s' → D (step r s).2 (step r s').2) {r : ρ}
    (htell : ∀ s s', D s s' → (step r s).1 ≠ (step r s').1) :
    ∀ {rs : List ρ}, r ∈ rs → ∀ {s s' : σ}, D s s' → answers step rs s ≠ answers step rs s'
  | r' :: rs, hr, s, s', hD => by
    intro h
    obtain ⟨hhead, htail⟩ := List.cons.inj h
    rcases List.mem_cons.1 hr with rfl | hr
    · exact htell s s' hD hhead
    · exact answers_ne hkeep htell hr (hkeep r' s s' hD) htail

end TwoRuns
