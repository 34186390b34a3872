import Mathlib.Data.List.Sort
/-!
# Keyset — pages by the key of the last row

A page is what comes after a cursor in the order of a key, up to a limit; one row more is read to see whether there is a next
page, whose cursor is the key of the last row.  Following the cursors visits every row once (`follow_eq`).
-/
namespace Keyset

variable {α κ : Type} [LinearOrder κ] (key : α → κ)

def sorted (rows : List α) : List α := rows.insertionSort fun a b => key a ≤ key b

/-- The rows after a cursor, in their order. -/
def after (rows : List α) : Option κ → List α
  | none => sorted key rows
  | some k => sorted key (rows.filter fun r => decide (k < key r))

/-- A page, and the cursor of the next one. -/
def page (rows : List α) (limit : ℕ) (cursor : Option κ) : List α × Option κ :=
  let found := (after key rows cursor).take (limit + 1)
  if limit < found.length then (found.take limit, (found.take limit).getLast?.map key) else (found, none)

/-- The pages from a cursor on, if there are at most so many. -/
def follow {χ : Type} (page : Option χ → List α × Option χ) : ℕ → Option χ → Option (List α)
  | 0, _ => none
  | n + 1, cursor =>
    match page cursor with
    | (rows, none) => some rows
    | (rows, some k) => (follow page n (some k)).map (rows ++ ·)

variable {key}

theorem mem_sorted {rows : List α} {a : α} : a ∈ sorted key rows ↔ a ∈ rows := List.mem_insertionSort _

theorem mem_of_mem_after {rows : List α} {cursor : Option κ} {a : α} (h : a ∈ after key rows cursor) : a ∈ rows := by
  cases cursor with
  | none => exact mem_sorted.1 h
  | some k => exact (List.mem_filter.1 (mem_sorted.1 h)).1

theorem length_sorted (rows : List α) : (sorted key rows).length = rows.length := List.length_insertionSort _ _

theorem perm_sorted (rows : List α) : (sorted key rows).Perm rows := List.perm_insertionSort _ _

/-- Rows of different keys stand in the strict order of their keys. -/
theorem pairwise_sorted {rows : List α} (hkey : rows.Pairwise fun a b => key a ≠ key b) :
    (sorted key rows).Pairwise fun a b => key a < key b := by
  have : IsTrans α fun a b => key a ≤ key b := ⟨fun _ _ _ => le_trans⟩
  have : Std.Total fun a b : α => key a ≤ key b := ⟨fun a b => le_total (key a) (key b)⟩
  have hle : (sorted key rows).Pairwise fun a b => key a ≤ key b := List.pairwise_insertionSort _ _
  have hne : (sorted key rows).Pairwise fun a b => key a ≠ key b :=
    (perm_sorted rows).symm.pairwise hkey fun h => h.symm
  exact (hle.and hne).imp fun h => lt_of_le_of_ne h.1 h.2

/-- Rows that stand in the strict order of their keys are left as they are. -/
theorem sorted_of_pairwise {rows : List α} (h : rows.Pairwise fun a b => key a < key b) : sorted key rows = rows := by
  have : Std.Irrefl fun a b : α => key a < key b := ⟨fun _ => lt_irrefl _⟩
  have : Std.Antisymm fun a b : α => key a < key b := ⟨fun _ _ h h' => absurd h' (lt_asymm h)⟩
  exact List.Pairwise.eq_of_mem_iff (pairwise_sorted (h.imp ne_of_lt)) h fun a => mem_sorted

/-- **The rows a limit lets through** are those that fewer rows than the limit stand before. -/
theorem mem_take_sorted {rows : List α} (hkey : rows.Pairwise fun a b => key a ≠ key b) {n : ℕ} {a : α} :
    a ∈ (sorted key rows).take n ↔ a ∈ rows ∧ (rows.filter fun b => decide (key b < key a)).length < n := by
  have hperm : (sorted key rows).Perm rows := perm_sorted rows
  have hlt := pairwise_sorted hkey
  by_cases ha : a ∈ rows
  swap
  · simp only [ha, false_and, iff_false]
    exact fun h => ha (mem_sorted.1 (List.mem_of_mem_take h))
  obtain ⟨pre, post, hs⟩ := List.append_of_mem (hperm.mem_iff.2 ha)
  rw [hs] at hlt
  obtain ⟨-, hpost, hpre⟩ := List.pairwise_append.1 hlt
  have hafter := (List.pairwise_cons.1 hpost).1
  -- what stands before the row is what has a smaller key
  have hlen : (rows.filter fun b => decide (key b < key a)).length = pre.length := by
    rw [← (hperm.filter _).length_eq, hs, List.filter_append, List.filter_cons_of_neg (by simp),
      List.filter_eq_self.2 fun b hb => decide_eq_true (hpre b hb a List.mem_cons_self),
      List.filter_eq_nil_iff.2 fun b hb => by simpa using le_of_lt (hafter b hb), List.append_nil]
  rw [hlen, hs, List.take_append]
  simp only [ha, true_and]
  constructor
  · intro h
    by_contra hn
    rw [Nat.sub_eq_zero_of_le (Nat.le_of_not_lt hn), List.take_zero, List.append_nil] at h
    exact lt_irrefl _ (hpre a (List.mem_of_mem_take h) a List.mem_cons_self)
  · intro h
    obtain ⟨k, hk⟩ := Nat.exists_eq_add_of_lt h
    rw [show n - pre.length = k + 1 by omega, List.take_succ_cons]
    exact List.mem_append_right _ List.mem_cons_self

/-- **What comes after a row that has been reached.** -/
theorem after_last {rows pre post : List α} {last : α} {cursor : Option κ} (hkey : rows.Pairwise fun a b => key a ≠ key b)
    (h : after key rows cursor = pre ++ last :: post) : after key rows (some (key last)) = post := by
  have : Std.Irrefl fun a b : α => key a < key b := ⟨fun _ => lt_irrefl _⟩
  have : Std.Antisymm fun a b : α => key a < key b := ⟨fun _ _ h h' => absurd h' (lt_asymm h)⟩
  have hsorted : (pre ++ last :: post).Pairwise fun a b => key a < key b := by
    rw [← h]
    cases cursor with
    | none => exact pairwise_sorted hkey
    | some k => exact pairwise_sorted (hkey.filter _)
  obtain ⟨-, hpost, hpre⟩ := List.pairwise_append.1 hsorted
  obtain ⟨hlast, hpost⟩ := List.pairwise_cons.1 hpost
  refine List.Pairwise.eq_of_mem_iff (pairwise_sorted (hkey.filter _)) hpost fun a => ?_
  rw [after, mem_sorted, List.mem_filter, decide_eq_true_eq]
  -- whatever is after the last row was after the cursor before
  have hmem : a ∈ rows ∧ key last < key a ↔ a ∈ pre ++ last :: post ∧ key last < key a := by
    refine and_congr_left fun hlt => ?_
    rw [← h]
    cases cursor with
    | none => exact mem_sorted.symm
    | some k =>
      have hk : k < key last := by
        have hin : last ∈ after key rows (some k) := by
          rw [h]
          exact List.mem_append_right _ List.mem_cons_self
        simpa using (List.mem_filter.1 (mem_sorted.1 hin)).2
      rw [after, mem_sorted, List.mem_filter, decide_eq_true_eq, and_iff_left (lt_trans hk hlt)]
  rw [hmem]
  constructor
  · rintro ⟨ha, hlt⟩
    rcases List.mem_append.1 ha with ha | ha
    · exact absurd hlt (lt_asymm (hpre a ha last List.mem_cons_self))
    · rcases List.mem_cons.1 ha with rfl | ha
      · exact absurd hlt (lt_irrefl _)
      · exact ha
  · exact fun ha => ⟨List.mem_append_right _ (List.mem_cons_of_mem _ ha), hlast a ha⟩

/-- **A page is the beginning of what comes after its cursor**, all of it or with a cursor for the rest. -/
theorem page_cases {rows : List α} {limit : ℕ} (hkey : rows.Pairwise fun a b => key a ≠ key b) (hlimit : 1 ≤ limit)
    (cursor : Option κ) :
    page key rows limit cursor = (after key rows cursor, none) ∨
      ∃ l last, page key rows limit cursor = (l, some (key last)) ∧ l.getLast? = some last ∧
        after key rows cursor = l ++ after key rows (some (key last)) := by
  generalize hall : after key rows cursor = all
  by_cases hlt : limit < all.length
  · obtain ⟨l, hl, last, hlast⟩ : ∃ l, all.take limit = l ∧ ∃ last, l.getLast? = some last := by
      refine ⟨_, rfl, ?_⟩
      cases hg : (all.take limit).getLast? with
      | none =>
        have hnil := congrArg List.length (List.getLast?_eq_none_iff.1 hg)
        rw [List.length_take, List.length_nil] at hnil
        omega
      | some last => exact ⟨last, rfl⟩
    obtain ⟨pre, hpre⟩ := List.getLast?_eq_some_iff.1 hlast
    refine .inr ⟨l, last, ?_, hlast, ?_⟩
    · have hfound : limit < (all.take (limit + 1)).length := by
        rw [List.length_take]
        omega
      unfold page
      rw [hall]
      simp only [hfound, if_true]
      rw [List.take_take, min_eq_left (Nat.le_succ limit), hl, hlast]
      rfl
    · have hsplit : all = pre ++ last :: all.drop limit := by
        conv_lhs => rw [← List.take_append_drop limit all, hl, hpre]
        simp
      rw [after_last hkey (hall.trans hsplit), ← hl]
      exact (List.take_append_drop limit all).symm
  · refine .inl ?_
    have hfound : all.take (limit + 1) = all := List.take_of_length_le (by omega)
    unfold page
    rw [hall]
    simp only [hfound, hlt, if_false]

/-- **Following the cursors visits what comes after the first one, once and in its order.** -/
theorem follow_eq {rows : List α} {limit : ℕ} (hkey : rows.Pairwise fun a b => key a ≠ key b) (hlimit : 1 ≤ limit) :
    ∀ (n : ℕ) (cursor : Option κ), (after key rows cursor).length < n →
      follow (page key rows limit) n cursor = some (after key rows cursor)
  | 0, _, h => absurd h (Nat.not_lt_zero _)
  | n + 1, cursor, h => by
    rw [follow]
    rcases page_cases hkey hlimit cursor with hp | ⟨l, last, hp, hlast, hall⟩
    · rw [hp]
    · rw [hp, hall]
      have hpos := List.length_pos_of_mem (List.mem_of_getLast? hlast)
      have hlen := congrArg List.length hall
      rw [List.length_append] at hlen
      simp only
      rw [follow_eq hkey hlimit n (some (key last)) (by omega)]
      rfl

end Keyset
