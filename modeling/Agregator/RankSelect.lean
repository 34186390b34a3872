import Mathlib.Data.List.Induction
/-!
# RankSelect — keeping the latest entry of the highest rank

A register that takes an entry unless it holds one of a higher rank.  After any sequence of entries it holds one of the
highest rank among them; when only one entry of a set has the highest rank, the register holds that one whatever the order
and the repetitions (`latest_eq_of_mem_iff`).
-/
namespace Rank

variable {α : Type} {rank : α → ℕ} {l l' : List α} {m x : α}

/-- The register takes `x` unless it holds an entry of a higher rank. -/
def adopt (rank : α → ℕ) (held : Option α) (x : α) : Option α :=
  match held with
  | none => some x
  | some c => if rank c ≤ rank x then some x else some c

/-- What the register holds after the entries, in this order. -/
def latest (rank : α → ℕ) (l : List α) : Option α := l.foldl (adopt rank) none

theorem latest_snoc (l : List α) (x : α) : latest rank (l ++ [x]) = adopt rank (latest rank l) x := by
  simp [latest, List.foldl_append]

theorem latest_cases (rank : α → ℕ) (l : List α) :
    (l = [] ∧ latest rank l = none) ∨ ∃ m, latest rank l = some m ∧ m ∈ l ∧ ∀ x ∈ l, rank x ≤ rank m := by
  induction l using List.reverseRecOn with
  | nil => exact .inl ⟨rfl, rfl⟩
  | append_singleton l x ih =>
    right
    rw [latest_snoc]
    rcases ih with ⟨rfl, hnone⟩ | ⟨m, hm, hmem, hmax⟩
    · rw [hnone]
      exact ⟨x, rfl, by simp, by simp⟩
    · rw [hm]
      by_cases h : rank m ≤ rank x
      · refine ⟨x, if_pos h, by simp, fun y hy => ?_⟩
        rcases List.mem_append.1 hy with hy | hy
        · exact Nat.le_trans (hmax y hy) h
        · obtain rfl := List.mem_singleton.1 hy
          exact Nat.le_refl _
      · refine ⟨m, if_neg h, by simp [hmem], fun y hy => ?_⟩
        rcases List.mem_append.1 hy with hy | hy
        · exact hmax y hy
        · rw [List.mem_singleton.1 hy]
          omega

/-- **The register holds an entry of the highest rank.** -/
theorem latest_max (h : latest rank l = some m) : m ∈ l ∧ ∀ x ∈ l, rank x ≤ rank m := by
  rcases latest_cases rank l with ⟨-, hnone⟩ | ⟨m', hm', hmax⟩
  · rw [hnone] at h
    cases h
  · rw [hm'] at h
    cases h
    exact hmax

theorem latest_eq_none : latest rank l = none ↔ l = [] := by
  rcases latest_cases rank l with ⟨hl, hnone⟩ | ⟨m, hm, hmem, -⟩
  · simp [hl, latest]
  · constructor
    · intro h
      rw [hm] at h
      cases h
    · rintro rfl
      cases hmem

/-- The only entry of the highest rank is the one that is held. -/
theorem latest_of_top (hm : m ∈ l) (htop : ∀ x ∈ l, rank m ≤ rank x → x = m) : latest rank l = some m := by
  rcases latest_cases rank l with ⟨rfl, -⟩ | ⟨m', hm', hmem, hmax⟩
  · cases hm
  · rw [hm', htop m' hmem (hmax m hm)]

/-- Of the entries of a set, one has the highest rank and no other has the same. -/
def Decided (rank : α → ℕ) (l : List α) : Prop := ∀ a ∈ l, ∀ b ∈ l, rank a = rank b → a ≠ b → ∃ c ∈ l, rank a < rank c

/-- **The order and the repetitions of the entries do not matter** where one has the highest rank. -/
theorem latest_eq_of_mem_iff (hd : Decided rank l) (h : ∀ x, x ∈ l ↔ x ∈ l') : latest rank l = latest rank l' := by
  rcases latest_cases rank l with ⟨rfl, hnone⟩ | ⟨m, hm, hmem, hmax⟩
  · have hnil : l' = [] := List.eq_nil_iff_forall_not_mem.2 fun x hx => List.not_mem_nil ((h x).2 hx)
    rw [hnil]
  · rw [hm]
    refine (latest_of_top ((h m).1 hmem) fun x hx hrank => ?_).symm
    have hxl := (h x).2 hx
    by_contra hne
    obtain ⟨c, hc, hlt⟩ := hd x hxl m hmem (Nat.le_antisymm (hmax x hxl) hrank) hne
    have := hmax c hc
    omega

end Rank
