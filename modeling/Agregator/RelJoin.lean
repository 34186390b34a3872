import Mathlib.Data.List.Dedup
import Mathlib.Data.List.Sort
import Agregator.RelTable
/-!
# RelJoin — joins, groups, and what is put into an array by them

A left join keeps every row of its left side, one without a partner once and with nothing; grouping takes the keys there are,
in their order, each with its rows.  Rows that carry their position put an array together again (`scatter_get`).
-/
namespace Rel

variable {α β γ κ : Type}

/-! ## Joins -/

/-- `LEFT JOIN … ON`. -/
def leftJoin (on : α → β → Bool) (l : List α) (r : List β) : List (α × Option β) :=
  l.flatMap fun a =>
    match r.filter (on a) with
    | [] => [(a, none)]
    | bs => bs.map fun b => (a, some b)

variable {on : α → β → Bool} {l : List α} {r : List β}

theorem mem_leftJoin {a : α} {b : Option β} :
    (a, b) ∈ leftJoin on l r ↔ a ∈ l ∧ ((b = none ∧ ∀ x ∈ r, on a x = false) ∨ ∃ x ∈ r, on a x = true ∧ b = some x) := by
  unfold leftJoin
  rw [List.mem_flatMap]
  constructor
  · rintro ⟨a', ha', hab⟩
    split at hab
    · rename_i hnil
      cases List.mem_singleton.1 hab
      exact ⟨ha', .inl ⟨rfl, fun x hx => by simpa using List.filter_eq_nil_iff.1 hnil x hx⟩⟩
    · obtain ⟨x, hx, heq⟩ := List.mem_map.1 hab
      cases heq
      obtain ⟨hx, hon⟩ := List.mem_filter.1 hx
      exact ⟨ha', .inr ⟨x, hx, hon, rfl⟩⟩
  · rintro ⟨ha, hb⟩
    refine ⟨a, ha, ?_⟩
    rcases hb with ⟨rfl, hnone⟩ | ⟨x, hx, hon, rfl⟩
    · have hnil : r.filter (on a) = [] := List.filter_eq_nil_iff.2 fun x hx => by simp [hnone x hx]
      rw [hnil]
      exact List.mem_singleton.2 rfl
    · have hmem : x ∈ r.filter (on a) := List.mem_filter.2 ⟨hx, hon⟩
      split
      · rename_i hnil
        rw [hnil] at hmem
        cases hmem
      · exact List.mem_map.2 ⟨x, hmem, rfl⟩

/-- Every row of the left side is there. -/
theorem leftJoin_left {a : α} (ha : a ∈ l) : ∃ b, (a, b) ∈ leftJoin on l r := by
  by_cases hsome : ∃ x ∈ r, on a x = true
  · obtain ⟨x, hx, hon⟩ := hsome
    exact ⟨some x, mem_leftJoin.2 ⟨ha, .inr ⟨x, hx, hon, rfl⟩⟩⟩
  · push Not at hsome
    exact ⟨none, mem_leftJoin.2 ⟨ha, .inl ⟨rfl, fun x hx => by simpa using hsome x hx⟩⟩⟩

/-! ## Groups -/

section Groups

variable [LinearOrder κ]

/-- `GROUP BY key ORDER BY key`. -/
def groupBy (key : γ → κ) (rows : List γ) : List (κ × List γ) :=
  ((rows.map key).dedup.insertionSort (· ≤ ·)).map fun k => (k, rows.filter fun x => decide (key x = k))

variable {key : γ → κ} {rows : List γ}

theorem groupBy_keys : (groupBy key rows).map Prod.fst = (rows.map key).dedup.insertionSort (· ≤ ·) := by
  unfold groupBy
  rw [List.map_map]
  exact List.map_id _

theorem groupBy_nodup : ((groupBy key rows).map Prod.fst).Nodup := by
  rw [groupBy_keys]
  exact (List.perm_insertionSort _ _).nodup_iff.2 (List.nodup_dedup _)

theorem mem_groupBy {k : κ} {g : List γ} :
    (k, g) ∈ groupBy key rows ↔ (∃ x ∈ rows, key x = k) ∧ g = rows.filter fun x => decide (key x = k) := by
  unfold groupBy
  simp only [List.mem_map, List.mem_insertionSort, List.mem_dedup, Prod.mk.injEq]
  constructor
  · rintro ⟨k', hk', rfl, rfl⟩
    exact ⟨hk', rfl⟩
  · rintro ⟨hk, rfl⟩
    exact ⟨k, hk, rfl, rfl⟩

end Groups

/-! ## Positions -/

/-- What is written at positions into an array; a position outside of it is passed over. -/
def scatter (out : List β) (rows : List (ℕ × β)) : List β := rows.foldl (fun out p => out.set p.1 p.2) out

theorem scatter_length : ∀ (rows : List (ℕ × β)) (out : List β), (scatter out rows).length = out.length
  | [], _ => rfl
  | p :: rows, out => by
    have ih := scatter_length rows (out.set p.1 p.2)
    rw [List.length_set] at ih
    exact ih

theorem scatter_other : ∀ {rows : List (ℕ × β)} {out : List β} {i : ℕ}, i ∉ rows.map Prod.fst → (scatter out rows)[i]? = out[i]?
  | [], _, _, _ => rfl
  | p :: rows, out, i, h => by
    rw [List.map_cons, List.mem_cons, not_or] at h
    have ih : (scatter (out.set p.1 p.2) rows)[i]? = (out.set p.1 p.2)[i]? := scatter_other h.2
    exact ih.trans (List.getElem?_set_ne (Ne.symm h.1))

/-- **Each position holds what is written at it**, when none is written twice. -/
theorem scatter_get : ∀ {rows : List (ℕ × β)} {out : List β} {i : ℕ} {b : β}, (rows.map Prod.fst).Nodup → (i, b) ∈ rows →
    i < out.length → (scatter out rows)[i]? = some b
  | [], _, _, _, _, hmem, _ => absurd hmem List.not_mem_nil
  | p :: rows, out, i, b, hnodup, hmem, hi => by
    rw [List.map_cons, List.nodup_cons] at hnodup
    rcases List.mem_cons.1 hmem with rfl | hmem
    · have hother : (scatter (out.set i b) rows)[i]? = (out.set i b)[i]? := scatter_other hnodup.1
      exact hother.trans (List.getElem?_set_self hi)
    · have ih : (scatter (out.set p.1 p.2) rows)[i]? = some b := scatter_get hnodup.2 hmem (by rwa [List.length_set])
      exact ih

/-! ## Insertions that succeed -/

/-- **Rows can all be inserted** exactly when each passes the check and none clashes with a row before it. -/
theorem Table.insertAll_ok_iff {S : Schema α} : ∀ {rs : List α} {t : Table S}, (∃ t', t.insertAll rs = .ok t') ↔
    (∀ r ∈ rs, S.check r = true ∧ ∀ x ∈ t.rows, S.clash x r = false) ∧ rs.Pairwise fun a b => S.clash a b = false
  | [], t => by simp [Table.insertAll]
  | r :: rs, t => by
    unfold Table.insertAll
    cases hins : t.insert r with
    | error v =>
      refine ⟨fun ⟨t', ht'⟩ => (nomatch ht'), fun hall => ?_⟩
      obtain ⟨hc, hu⟩ := hall.1 r List.mem_cons_self
      obtain ⟨t', ht'⟩ := t.insert_ok hc hu
      rw [hins] at ht'
      cases ht'
    | ok t₁ =>
      dsimp only
      have hrows := Table.insert_rows hins
      have hfirst := Table.of_insert_ok hins
      rw [Table.insertAll_ok_iff, List.pairwise_cons, List.forall_mem_cons, hrows]
      constructor
      · rintro ⟨hall, hpair⟩
        refine ⟨⟨hfirst, fun x hx => ⟨(hall x hx).1, fun y hy => (hall x hx).2 y (List.mem_append_left _ hy)⟩⟩, fun x hx => ?_, hpair⟩
        exact (hall x hx).2 r (List.mem_append_right _ (List.mem_singleton.2 rfl))
      · rintro ⟨⟨-, hall⟩, hr, hpair⟩
        refine ⟨fun x hx => ⟨(hall x hx).1, fun y hy => ?_⟩, hpair⟩
        rcases List.mem_append.1 hy with hy | hy
        · exact (hall x hx).2 y hy
        · rw [List.mem_singleton.1 hy]
          exact hr x hx

end Rel
