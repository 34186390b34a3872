import Mathlib.Data.List.Sort
import Mathlib.Data.Prod.Lex
import Mathlib.Logic.Equiv.Basic
/-!
# RelOrder — what `ORDER BY` settles, and rows collected under a key

The answer to a query holds its rows in an order of their keys; rows of one key may come in any order.  The answer is settled
exactly when no two rows have one key (`OrderBy.settled_iff`).  Rows ordered by their group first, collected by group, are the
rows of each group in the order of the rest.
-/
namespace Rel

variable {α κ γ : Type}

/-- `ORDER BY key`. -/
structure OrderBy [LinearOrder κ] (key : α → κ) where
  run : List α → List α
  perm : ∀ l, (run l).Perm l
  sorted : ∀ l, (run l).Pairwise fun a b => key a ≤ key b

namespace OrderBy

section Settled

variable [LinearOrder κ] {key : α → κ}

/-- Rows of one key as they were stored. -/
def stable (key : α → κ) : OrderBy key where
  run l := l.insertionSort fun a b => key a ≤ key b
  perm _ := List.perm_insertionSort _ _
  sorted l := by
    have htotal : Std.Total fun a b : α => key a ≤ key b := ⟨fun a b => le_total (key a) (key b)⟩
    have htrans : IsTrans α fun a b => key a ≤ key b := ⟨fun _ _ _ => le_trans⟩
    exact List.pairwise_insertionSort _ l

@[simp] theorem mem_run {o : OrderBy key} {l : List α} {a : α} : a ∈ o.run l ↔ a ∈ l := (o.perm l).mem_iff

/-- **Rows of different keys have one order.** -/
theorem eq_run {o : OrderBy key} {l rows : List α} (hperm : rows.Perm l) (hsorted : rows.Pairwise fun a b => key a ≤ key b)
    (hkeys : ∀ a ∈ l, ∀ b ∈ l, key a = key b → a = b) : rows = o.run l := by
  refine List.Perm.eq_of_pairwise (fun a b ha hb hab hba => ?_) hsorted (o.sorted l) (hperm.trans (o.perm l).symm)
  exact hkeys a (hperm.mem_iff.1 ha) b (mem_run.1 hb) (le_antisymm hab hba)

variable [DecidableEq α]

/-- The order with two rows of one key in each other's place. -/
def swapped (o : OrderBy key) {a b : α} (hkey : key a = key b) : OrderBy key where
  run l := if l.Nodup ∧ (a ∈ l ↔ b ∈ l) then (o.run l).map (Equiv.swap a b) else o.run l
  perm l := by
    split
    · rename_i h
      have hnodup : (o.run l).Nodup := (o.perm l).nodup_iff.2 h.1
      refine (List.perm_ext_iff_of_nodup (hnodup.map (Equiv.swap a b).injective) h.1).2 fun x => ?_
      rw [List.mem_map]
      constructor
      · rintro ⟨y, hy, rfl⟩
        rw [mem_run] at hy
        by_cases hya : y = a
        · rw [hya, Equiv.swap_apply_left]
          exact h.2.1 (hya ▸ hy)
        by_cases hyb : y = b
        · rw [hyb, Equiv.swap_apply_right]
          exact h.2.2 (hyb ▸ hy)
        · rwa [Equiv.swap_apply_of_ne_of_ne hya hyb]
      · intro hx
        refine ⟨Equiv.swap a b x, mem_run.2 ?_, Equiv.swap_apply_self a b x⟩
        by_cases hxa : x = a
        · rw [hxa, Equiv.swap_apply_left]
          exact h.2.1 (hxa ▸ hx)
        by_cases hxb : x = b
        · rw [hxb, Equiv.swap_apply_right]
          exact h.2.2 (hxb ▸ hx)
        · rwa [Equiv.swap_apply_of_ne_of_ne hxa hxb]
    · exact o.perm l
  sorted l := by
    have hsame : ∀ x, key (Equiv.swap a b x) = key x := by
      intro x
      by_cases hxa : x = a
      · rw [hxa, Equiv.swap_apply_left, hkey]
      by_cases hxb : x = b
      · rw [hxb, Equiv.swap_apply_right, hkey]
      · rw [Equiv.swap_apply_of_ne_of_ne hxa hxb]
    split
    · rw [List.pairwise_map]
      exact (o.sorted l).imp fun h => by rwa [hsame, hsame]
    · exact o.sorted l

/-- **An answer is settled** exactly when no two of its rows have one key. -/
theorem settled_iff {l : List α} (hl : l.Nodup) :
    (∀ o o' : OrderBy key, o.run l = o'.run l) ↔ ∀ a ∈ l, ∀ b ∈ l, key a = key b → a = b := by
  constructor
  · intro hsame a ha b hb hkey
    have heq := hsame (stable key) ((stable key).swapped hkey)
    have hboth : l.Nodup ∧ (a ∈ l ↔ b ∈ l) := ⟨hl, by simp [ha, hb]⟩
    have hrun : ((stable key).swapped hkey).run l = ((stable key).run l).map (Equiv.swap a b) := if_pos hboth
    rw [hrun] at heq
    -- what is at the place of the first row is the second one as well
    obtain ⟨i, hi, hget⟩ := List.getElem_of_mem (mem_run.2 ha : a ∈ (stable key).run l)
    have hmap := List.getElem_of_eq heq hi
    rw [List.getElem_map, hget, Equiv.swap_apply_left] at hmap
    exact hmap
  · intro hkeys o o'
    exact eq_run (o.perm l) (o.sorted l) hkeys

end Settled

end OrderBy

/-! ## Rows collected -/

section Collect

variable [DecidableEq γ]

/-- Rows under their keys, each behind those before it. -/
def collect (group : α → γ) (rows : List α) : γ → List α :=
  rows.foldl (fun m r => Function.update m (group r) (m (group r) ++ [r])) fun _ => []

theorem foldl_collect (group : α → γ) (k : γ) : ∀ (rows : List α) (m : γ → List α),
    rows.foldl (fun m r => Function.update m (group r) (m (group r) ++ [r])) m k = m k ++ rows.filter fun r => group r = k
  | [], m => (List.append_nil _).symm
  | r :: rows, m => by
    rw [List.foldl_cons, foldl_collect group k rows]
    by_cases hk : group r = k
    · rw [← hk, Function.update_self, List.filter_cons_of_pos (by simp), List.append_assoc]
      rfl
    · rw [Function.update_of_ne (Ne.symm hk), List.filter_cons_of_neg (by simpa using hk)]

theorem collect_eq (group : α → γ) (rows : List α) (k : γ) : collect group rows k = rows.filter fun r => group r = k :=
  foldl_collect group k rows _

theorem collect_map {β : Type} {f : α → β} {group : β → γ} (rows : List α) (k : γ) :
    collect group (rows.map f) k = (collect (group ∘ f) rows k).map f := by
  rw [collect_eq, collect_eq, List.filter_map]
  rfl

end Collect

namespace OrderBy

variable [LinearOrder γ] [LinearOrder κ] {group : α → γ} {key : α → κ} {rows : List α} {ks : List γ} {k : γ}

theorem collect_perm {o : OrderBy fun a => toLex (group a, key a)} (hk : k ∈ ks) :
    (collect group (o.run (rows.filter fun a => group a ∈ ks)) k).Perm (rows.filter fun a => group a = k) := by
  rw [collect_eq]
  refine ((o.perm _).filter _).trans ?_
  rw [List.filter_filter]
  refine List.Perm.of_eq (List.filter_congr fun a _ => ?_)
  by_cases ha : group a = k
  · simp [ha, hk]
  · simp [ha]

theorem collect_sorted {o : OrderBy fun a => toLex (group a, key a)} (l : List α) :
    (collect group (o.run l) k).Pairwise fun a b => key a ≤ key b := by
  rw [collect_eq, List.pairwise_filter]
  refine (o.sorted l).imp fun {a b} hab ha hb => ?_
  rw [decide_eq_true_iff] at ha hb
  rcases Prod.Lex.toLex_le_toLex.1 hab with hlt | ⟨-, hle⟩
  · rw [ha, hb] at hlt
    exact absurd hlt (lt_irrefl _)
  · exact hle

/-- **A group that is collected** is what a query for it alone answers, when its rows have different keys. -/
theorem collect_run {o : OrderBy fun a => toLex (group a, key a)} {o' : OrderBy key} (hk : k ∈ ks)
    (hkeys : ∀ a ∈ rows, ∀ b ∈ rows, group a = k → group b = k → key a = key b → a = b) :
    collect group (o.run (rows.filter fun a => group a ∈ ks)) k = o'.run (rows.filter fun a => group a = k) := by
  refine eq_run (collect_perm hk) (collect_sorted _) fun a ha b hb => ?_
  obtain ⟨ha, hga⟩ := List.mem_filter.1 ha
  obtain ⟨hb, hgb⟩ := List.mem_filter.1 hb
  exact hkeys a ha b hb (of_decide_eq_true hga) (of_decide_eq_true hgb)

end OrderBy

end Rel
