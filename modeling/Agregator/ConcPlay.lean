import Agregator.ConcMoments
/-!
# ConcPlay — runs by a schedule

A schedule says whose turn it is.  Played on a pool it computes the moments of a run (`Sys.Trace.play`).
-/
namespace Conc

variable {Op : Type} {Res : Op → Type} {α σ Call Env : Type}

/-- A turn of a schedule: a call starts, or the call at a place of the pool performs its next operation. -/
inductive Move (Call Env : Type) where
  | start (c : Call)
  | step (i : ℕ) (env : Env)

/-- A turn, if it can be taken. -/
def Move.take (prog : Call → Prog Op Res α) (run : Env → (o : Op) → σ → Option (Res o × σ)) :
    Move Call Env → Config σ Call Op Res α → Option (List (Moment σ Call Op Res α) × Config σ Call Op Res α)
  | .start c, p => some ([], ⟨p.world, p.threads ++ [⟨c, [], prog c⟩]⟩)
  | .step i env, p =>
    match p.threads[i]? with
    | some ⟨c, h, .call o k⟩ =>
      match run env o p.world with
      | some (r, w') => some ([⟨p, ⟨c, h, .call o k⟩, o, r, w'⟩], ⟨w', p.threads.set i ⟨c, h ++ [⟨o, r⟩], k r⟩⟩)
      | none => none
    | _ => none

def play (prog : Call → Prog Op Res α) (run : Env → (o : Op) → σ → Option (Res o × σ)) :
    List (Move Call Env) → Config σ Call Op Res α → Option (List (Moment σ Call Op Res α) × Config σ Call Op Res α)
  | [], p => some ([], p)
  | m :: ms, p =>
    match m.take prog run p with
    | none => none
    | some (tr, p) => (play prog run ms p).map fun next => (tr ++ next.1, next.2)

/-- An entry of a list, with what is before it and after it. -/
theorem take_cons_drop {τ : Type} {ts : List τ} {i : ℕ} {t : τ} (h : ts[i]? = some t) :
    ts = ts.take i ++ t :: ts.drop (i + 1) ∧ ∀ t', ts.set i t' = ts.take i ++ t' :: ts.drop (i + 1) := by
  obtain ⟨hi, rfl⟩ := List.getElem?_eq_some_iff.1 h
  constructor
  · rw [List.getElem_cons_drop, List.take_append_drop]
  · intro t'
    rw [List.set_eq_take_append_cons_drop, if_pos hi]

/-- The call at a place of the pool is one of those that have started since the pool had so many. -/
theorem mem_drop_of_place {τ : Type} {ts : List τ} {n i : ℕ} {t : τ} (h : ts[i]? = some t) (hn : n ≤ i) : t ∈ ts.drop n := by
  refine List.mem_of_getElem? (i := i - n) ?_
  rwa [List.getElem?_drop, Nat.add_sub_cancel' hn]

namespace Sys.Trace

variable {S : Sys σ Call Op Res α} {w₀ : σ} {run : Env → (o : Op) → σ → Option (Res o × σ)}

theorem take (hex : ∀ env o w r w', run env o w = some (r, w') → S.exec o w r w')
    {tr tr' : List (Moment σ Call Op Res α)} {p p' : Config σ Call Op Res α} (h : S.Trace w₀ tr p) {m : Move Call Env}
    (hready : ∀ c w, m = .start c → S.ready c w) (hm : m.take S.prog run p = some (tr', p')) : S.Trace w₀ (tr ++ tr') p' := by
  obtain ⟨w, ts⟩ := p
  cases m with
  | start c =>
    obtain ⟨rfl, rfl⟩ := Prod.mk.inj (Option.some.inj hm)
    rw [List.append_nil]
    exact h.start c (hready c w rfl)
  | step i env =>
    unfold Move.take at hm
    dsimp only at hm
    split at hm
    · rename_i c did o k hget
      split at hm
      · rename_i r w' hrun
        obtain ⟨rfl, rfl⟩ := Prod.mk.inj (Option.some.inj hm)
        obtain ⟨hts, hset⟩ := take_cons_drop hget
        rw [hset]
        have hstep := (hts ▸ h).perform w' (ts.take i) (ts.drop (i + 1)) r (hex env o w r w' hrun)
        rw [← hts] at hstep
        exact hstep
      · cases hm
    · cases hm

/-- **What a schedule computes is a run.** -/
theorem play (hex : ∀ env o w r w', run env o w = some (r, w') → S.exec o w r w') :
    ∀ {ms : List (Move Call Env)} {tr tr' : List (Moment σ Call Op Res α)} {p p' : Config σ Call Op Res α}, S.Trace w₀ tr p →
      (∀ c w, .start c ∈ ms → S.ready c w) → play S.prog run ms p = some (tr', p') → S.Trace w₀ (tr ++ tr') p'
  | [], tr, _, p, _, h, _, hp => by
    obtain ⟨rfl, rfl⟩ := Prod.mk.inj (Option.some.inj hp)
    rwa [List.append_nil]
  | m :: ms, tr, _, p, _, h, hready, hp => by
    unfold Conc.play at hp
    split at hp
    · cases hp
    · rename_i tr₁ p₁ hm
      obtain ⟨⟨tr₂, p₂⟩, hrest, heq⟩ := Option.map_eq_some_iff.1 hp
      obtain ⟨rfl, rfl⟩ := Prod.mk.inj heq
      rw [← List.append_assoc]
      have hfirst := take hex h (fun c w hc => hready c w (hc ▸ List.mem_cons_self)) hm
      exact Sys.Trace.play hex hfirst (fun c w hc => hready c w (List.mem_cons_of_mem _ hc)) hrest

end Sys.Trace

/-- A schedule that can be played to an end with a property is a run to that end. -/
theorem Sys.Trace.played_to {S : Sys σ Call Op Res α} {w₀ : σ} {run : Env → (o : Op) → σ → Option (Res o × σ)}
    (hready : ∀ c w, S.ready c w) (hex : ∀ env o w r w', run env o w = some (r, w') → S.exec o w r w')
    (ms : List (Move Call Env)) {Q : List (Moment σ Call Op Res α) × Config σ Call Op Res α → Bool}
    (h : (Conc.play S.prog run ms ⟨w₀, []⟩).any Q = true) : ∃ tr p, S.Trace w₀ tr p ∧ Q (tr, p) = true := by
  obtain ⟨⟨tr, p⟩, hp, hQ⟩ := (Option.any_eq_true _ _).1 h
  exact ⟨tr, p, Sys.Trace.play hex .init (fun c w _ => hready c w) hp, hQ⟩

/-- The same where only the calls of the schedule can start, with some of its moments told apart from the rest. -/
theorem Sys.Trace.played_at {S : Sys σ Call Op Res α} {w₀ : σ} {run : Env → (o : Op) → σ → Option (Res o × σ)}
    (hex : ∀ env o w r w', run env o w = some (r, w') → S.exec o w r w') (ms : List (Move Call Env))
    (hready : ∀ c w, .start c ∈ ms → S.ready c w) (i : ℕ)
    {Q : List (Moment σ Call Op Res α) → Moment σ Call Op Res α → List (Moment σ Call Op Res α) → Bool}
    (h : (Conc.play S.prog run ms ⟨w₀, []⟩).any (fun x => x.1[i]?.any fun d => Q (x.1.take i) d (x.1.drop (i + 1))) = true) :
    ∃ tr₁ d tr₂ p, S.Trace w₀ (tr₁ ++ d :: tr₂) p ∧ Q tr₁ d tr₂ = true := by
  obtain ⟨⟨tr, p⟩, hp, hQ⟩ := (Option.any_eq_true _ _).1 h
  obtain ⟨d, hd, hQ⟩ := (Option.any_eq_true _ _).1 hQ
  have htr : tr = tr.take i ++ d :: tr.drop (i + 1) := (take_cons_drop hd).1
  have ht : S.Trace w₀ tr p := Sys.Trace.play hex .init hready hp
  rw [htr] at ht
  exact ⟨_, d, _, p, ht, hQ⟩

end Conc
