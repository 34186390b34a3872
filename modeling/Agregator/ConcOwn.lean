import Agregator.ConcTrace
/-!
# ConcOwn — what a call knows of what it alone owns

A call draws something no other call draws, a session or a transaction, and what it knows of the shared state rests on that.
A step of one call may then change what this call knows, as long as it leaves alone what calls that share nothing with it know.
-/
namespace Conc

variable {Op : Type} {Res : Op → Type} {α σ Call : Type}

/-- **What every call knows goes on being so.**  `K` is what a call knows after a history, `P` what it has behind it before an
operation, and `Apart` says of two histories that they share nothing. -/
theorem Sys.Reach.known {S : Sys σ Call Op Res α} {ok : Sys.Cond σ Call Op Res α} {w₀ : σ} {I : σ → Prop}
    {K : Call → σ → List (Event Op Res) → Prop} {Apart : List (Event Op Res) → List (Event Op Res) → Prop}
    {P : Call → List (Event Op Res) → Op → Prop} (hp : ∀ c, (S.prog c).After (P c) [])
    (hapart : ∀ w ts₁ t ts₂, S.Reach ok w₀ ⟨w, ts₁ ++ t :: ts₂⟩ → ∀ t' ∈ ts₁ ++ ts₂, Apart t.did t'.did)
    (h0 : I w₀) (hstart : ∀ c w, I w → S.ready c w → K c w [])
    (hop : ∀ w w' c h o r, I w → K c w h → P c h o → S.exec o w r w' →
      I w' ∧ K c w' (h ++ [⟨o, r⟩]) ∧ ∀ c' h', Apart h h' → K c' w h' → K c' w' h')
    (henv : ∀ w w', I w → S.env w w' → I w' ∧ ∀ c h, K c w h → K c w' h) {p : Config σ Call Op Res α} (h : S.Reach ok w₀ p) :
    I p.world ∧ ∀ t ∈ p.threads, K t.call p.world t.did := by
  induction h with
  | init => exact ⟨h0, by simp⟩
  | step hr hs ih =>
    obtain ⟨hI, hts⟩ := ih
    cases hs with
    | start w ts c hready =>
      refine ⟨hI, fun t ht => ?_⟩
      rcases List.mem_append.1 ht with ht | ht
      · exact hts t ht
      · rw [List.mem_singleton.1 ht]
        exact hstart c w hI hready
    | perform w w' ts₁ ts₂ c h o k r he ho =>
      have hprior := ((hr.after hp) ⟨c, h, .call o k⟩ (by simp)).1.1
      obtain ⟨hI', hown, hothers⟩ := hop w w' c h o r hI (hts ⟨c, h, .call o k⟩ (by simp)) hprior he
      have hrest : ∀ t ∈ ts₁ ++ ts₂, K t.call w' t.did := by
        intro t ht
        refine hothers _ _ (hapart w ts₁ ⟨c, h, .call o k⟩ ts₂ hr t ht) (hts t ?_)
        rcases List.mem_append.1 ht with ht | ht
        · exact List.mem_append_left _ ht
        · exact List.mem_append_right _ (List.mem_cons_of_mem _ ht)
      refine ⟨hI', fun t ht => ?_⟩
      rcases List.mem_append.1 ht with ht | ht
      · exact hrest t (List.mem_append_left _ ht)
      rcases List.mem_cons.1 ht with rfl | ht
      · exact hown
      · exact hrest t (List.mem_append_right _ ht)
    | env w w' ts he =>
      obtain ⟨hI', hK⟩ := henv w w' hI he
      exact ⟨hI', fun t ht => hK _ _ (hts t ht)⟩

end Conc
