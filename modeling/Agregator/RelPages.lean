import Agregator.RelOrder
import Mathlib.Algebra.Order.Group.Nat
import Mathlib.Data.List.Count
import Mathlib.Data.List.Pairwise
/-!
# RelPages — a listing read page by page

Every page is a query of its own, and rows of one key come in whatever order the database takes them in.  A row comes at a place
between the number of rows before its key and the number of rows up to it, and at either end in some order (`OrderBy.first`,
`OrderBy.last`).  The pages hold every row once, whatever the orders, exactly when the rows of one key come on one page
(`OrderBy.pages_perm_iff`).
-/
namespace Rel
namespace OrderBy

variable {α κ γ : Type} [LinearOrder κ] [LinearOrder γ] {key : α → κ} {rows : List α} {a : α}

/-- `LIMIT limit OFFSET offset`. -/
def page (o : OrderBy key) (limit offset : ℕ) (rows : List α) : List α := ((o.run rows).drop offset).take limit

/-- The first pages, of `n` rows each. -/
def pages (o : ℕ → OrderBy key) (n count : ℕ) (rows : List α) : List α :=
  (List.range count).flatMap fun k => (o k).page n (k * n) rows

/-! ## The place of a row -/

/-- The rows before those of the key. -/
def below (key : α → κ) (rows : List α) (a : α) : ℕ := rows.countP fun x => key x < key a

/-- The rows up to those of the key. -/
def upTo (key : α → κ) (rows : List α) (a : α) : ℕ := rows.countP fun x => key x ≤ key a

/-- **A row comes among those of its key.** -/
theorem place (o : OrderBy key) {i : ℕ} (h : (o.run rows)[i]? = some a) : below key rows a ≤ i ∧ i < upTo key rows a := by
  obtain ⟨hi, hget⟩ := List.getElem?_eq_some_iff.1 h
  have hsorted := o.sorted rows
  have hsplit : o.run rows = (o.run rows).take i ++ a :: (o.run rows).drop (i + 1) := by
    rw [← hget, List.getElem_cons_drop, List.take_append_drop]
  have hlen : ((o.run rows).take i).length = i := by
    rw [List.length_take]
    omega
  rw [hsplit] at hsorted
  obtain ⟨-, hafter, hbefore⟩ := List.pairwise_append.1 hsorted
  constructor
  · have hnone : (a :: (o.run rows).drop (i + 1)).countP (fun x => decide (key x < key a)) = 0 := by
      rw [List.countP_eq_zero]
      intro x hx
      rcases List.mem_cons.1 hx with rfl | hx
      · simp
      · simpa using List.rel_of_pairwise_cons hafter hx
    have hle := List.countP_le_length (p := fun x => decide (key x < key a)) (l := (o.run rows).take i)
    unfold below
    rw [← (o.perm rows).countP_eq, hsplit, List.countP_append, hnone]
    omega
  · have hall : ((o.run rows).take i).countP (fun x => decide (key x ≤ key a)) = i := by
      rw [List.countP_eq_length.2, hlen]
      intro x hx
      simpa using hbefore x hx a List.mem_cons_self
    unfold upTo
    rw [← (o.perm rows).countP_eq, hsplit, List.countP_append, List.countP_cons_of_pos (by simp), hall]
    omega

/-! ## The rows of a page -/

/-- A row is on the page of its place. -/
theorem mem_page {o : OrderBy key} {n k : ℕ} (hn : 0 < n) :
    a ∈ o.page n (k * n) rows ↔ ∃ i, (o.run rows)[i]? = some a ∧ i / n = k := by
  unfold page
  rw [List.mem_iff_getElem?]
  constructor
  · rintro ⟨i, hi⟩
    by_cases hlt : i < n
    · rw [List.getElem?_take_of_lt hlt, List.getElem?_drop] at hi
      exact ⟨k * n + i, hi, by rw [Nat.mul_comm, Nat.mul_add_div hn, Nat.div_eq_of_lt hlt, Nat.add_zero]⟩
    · rw [List.getElem?_take_eq_none (by omega)] at hi
      cases hi
  · rintro ⟨i, hi, rfl⟩
    refine ⟨i % n, ?_⟩
    rw [List.getElem?_take_of_lt (Nat.mod_lt i hn), List.getElem?_drop, Nat.div_add_mod']
    exact hi

theorem nodup_page (o : OrderBy key) (limit offset : ℕ) (hrows : rows.Nodup) : (o.page limit offset rows).Nodup :=
  (((o.perm rows).nodup_iff.2 hrows).sublist (List.drop_sublist _ _)).sublist (List.take_sublist _ _)

theorem exists_place (o : OrderBy key) (ha : a ∈ rows) : ∃ i : ℕ, (o.run rows)[i]? = some a :=
  List.mem_iff_getElem?.1 (mem_run.2 ha)

theorem lt_of_place {o : OrderBy key} {i : ℕ} (h : (o.run rows)[i]? = some a) : i < rows.length := by
  rw [← (o.perm rows).length_eq]
  exact (List.getElem?_eq_some_iff.1 h).1

theorem place_lt {n count i : ℕ} (hn : 0 < n) (hcount : rows.length ≤ count * n) (h : i < rows.length) : i / n < count :=
  (Nat.div_lt_iff_lt_mul hn).2 (h.trans_le hcount)

theorem mem_pages {o : ℕ → OrderBy key} {n count : ℕ} : a ∈ pages o n count rows ↔ ∃ k < count, a ∈ (o k).page n (k * n) rows := by
  simp [pages]

theorem length_pages (o : ℕ → OrderBy key) (n count : ℕ) (rows : List α) : (pages o n count rows).length ≤ count * n := by
  unfold pages
  induction count with
  | zero => simp
  | succ count ih =>
    rw [List.range_succ, List.flatMap_append, List.length_append, List.flatMap_singleton, Nat.succ_mul]
    have hpage : ((o count).page n (count * n) rows).length ≤ n := by
      rw [page, List.length_take]
      omega
    omega

theorem eq_of_mem_page {o : ℕ → OrderBy key} {n count k l : ℕ} (h : (pages o n count rows).Nodup) (hk : k < count) (hl : l < count)
    (hak : a ∈ (o k).page n (k * n) rows) (hal : a ∈ (o l).page n (l * n) rows) : k = l := by
  have hpair := (List.nodup_flatMap.1 h).2
  rw [List.pairwise_iff_getElem] at hpair
  by_contra hne
  rcases Nat.lt_or_gt_of_ne hne with hlt | hlt
  · exact hpair k l (by simpa using hk) (by simpa using hl) hlt (by simpa using hak) (by simpa using hal)
  · exact hpair l k (by simpa using hl) (by simpa using hk) hlt (by simpa using hal) (by simpa using hak)

/-! ## The ends -/

/-- Rows of one key in the order of something else. -/
def ofLex {f : α → γ} (o : OrderBy fun x => toLex (key x, f x)) : OrderBy key where
  run := o.run
  perm := o.perm
  sorted l := (o.sorted l).imp fun h => by
    rcases Prod.Lex.toLex_le_toLex.1 h with h | h
    · exact h.le
    · exact h.1.le

variable [DecidableEq α]

/-- The row first among those of its key. -/
def first (key : α → κ) (a : α) : OrderBy key := (stable fun x => toLex (key x, decide (x ≠ a))).ofLex

/-- The row last among those of its key. -/
def last (key : α → κ) (a : α) : OrderBy key := (stable fun x => toLex (key x, decide (x = a))).ofLex

theorem countP_ne_add {p : α → Bool} (ha : p a = true) (rows : List α) :
    rows.countP (fun x => p x && decide (x ≠ a)) + rows.count a = rows.countP p := by
  induction rows with
  | nil => rfl
  | cons x rows ih =>
    by_cases hx : x = a
    · rw [hx, List.countP_cons_of_neg (by simp), List.count_cons_self, List.countP_cons_of_pos ha]
      omega
    · rw [List.count_cons_of_ne hx]
      by_cases hp : p x = true
      · rw [List.countP_cons_of_pos (by simp [hp, hx]), List.countP_cons_of_pos hp]
        omega
      · rw [List.countP_cons_of_neg (by simp [hp]), List.countP_cons_of_neg hp]
        exact ih

theorem first_place (hrows : rows.Nodup) {i : ℕ} (h : ((first key a).run rows)[i]? = some a) : i = below key rows a := by
  obtain ⟨hlow, -⟩ := place (first key a) h
  obtain ⟨-, hhigh⟩ := place (stable fun x => toLex (key x, decide (x ≠ a))) h
  have hcount := countP_ne_add (p := fun x => decide (toLex (key x, decide (x ≠ a)) ≤ toLex (key a, decide (a ≠ a)))) (a := a)
    (by simp) rows
  have hbelow : rows.countP (fun x => decide (toLex (key x, decide (x ≠ a)) ≤ toLex (key a, decide (a ≠ a))) && decide (x ≠ a)) =
      below key rows a := by
    refine List.countP_congr fun x _ => ?_
    by_cases hx : x = a
    · simp [hx]
    · simp [Prod.Lex.toLex_le_toLex, hx]
  have hone := List.nodup_iff_count_le_one.1 hrows a
  have hhigh : i < rows.countP fun x => decide (toLex (key x, decide (x ≠ a)) ≤ toLex (key a, decide (a ≠ a))) := hhigh
  omega

theorem last_place (ha : a ∈ rows) (hrows : rows.Nodup) {i : ℕ} (h : ((last key a).run rows)[i]? = some a) :
    i = upTo key rows a - 1 := by
  obtain ⟨-, hhigh⟩ := place (last key a) h
  obtain ⟨hlow, -⟩ := place (stable fun x => toLex (key x, decide (x = a))) h
  have hcount := countP_ne_add (p := fun x => decide (key x ≤ key a)) (a := a) (by simp) rows
  have hbelow : below (fun x => toLex (key x, decide (x = a))) rows a =
      rows.countP fun x => decide (key x ≤ key a) && decide (x ≠ a) := by
    refine List.countP_congr fun x _ => ?_
    by_cases hx : x = a
    · simp [hx]
    · simp [Prod.Lex.toLex_lt_toLex, hx, le_iff_lt_or_eq]
  have := List.count_eq_one_of_mem hrows ha
  unfold upTo at hhigh ⊢
  omega

/-! ## All pages -/

/-- The rows of one key come on one page. -/
def Unsplit (key : α → κ) (n : ℕ) (rows : List α) : Prop := ∀ a ∈ rows, below key rows a / n = (upTo key rows a - 1) / n

instance (key : α → κ) (n : ℕ) (rows : List α) : Decidable (Unsplit key n rows) :=
  inferInstanceAs (Decidable (∀ a ∈ rows, below key rows a / n = (upTo key rows a - 1) / n))

omit [DecidableEq α] in
/-- Where keys are not split, the page of a row is that of its key in any order. -/
theorem Unsplit.page_eq {n i : ℕ} (h : Unsplit key n rows) {o : OrderBy key} (hi : (o.run rows)[i]? = some a) :
    i / n = below key rows a / n := by
  have hkey := h a (mem_run.1 (List.mem_of_getElem? hi))
  obtain ⟨hlow, hhigh⟩ := place o hi
  have := Nat.div_le_div_right (c := n) hlow
  have := Nat.div_le_div_right (c := n) (Nat.le_sub_one_of_lt hhigh)
  omega

theorem unsplit_of_perm {n count : ℕ} (hn : 0 < n) (hcount : rows.length ≤ count * n) (hrows : rows.Nodup)
    (hperm : ∀ o : ℕ → OrderBy key, (pages o n count rows).Perm rows) : Unsplit key n rows := by
  intro a ha
  by_contra hsplit
  -- the first of its key on the page of the first place, the last of its key on that of the last
  let o : ℕ → OrderBy key := fun k => if k = below key rows a / n then first key a else last key a
  have hfirst : o (below key rows a / n) = first key a := if_pos rfl
  have hlast : o ((upTo key rows a - 1) / n) = last key a := if_neg (Ne.symm hsplit)
  obtain ⟨i, hi⟩ := exists_place (first key a) ha
  obtain ⟨j, hj⟩ := exists_place (last key a) ha
  obtain rfl := first_place hrows hi
  obtain rfl := last_place ha hrows hj
  have hlow : below key rows a / n < count := place_lt hn hcount (lt_of_place hi)
  have hhigh : (upTo key rows a - 1) / n < count := place_lt hn hcount (lt_of_place hj)
  refine hsplit (eq_of_mem_page ((hperm o).nodup_iff.2 hrows) hlow hhigh (a := a) ?_ ?_)
  · rw [hfirst]
    exact (mem_page hn).2 ⟨_, hi, rfl⟩
  · rw [hlast]
    exact (mem_page hn).2 ⟨_, hj, rfl⟩

omit [DecidableEq α] in
theorem Unsplit.pages_nodup {n count : ℕ} (hn : 0 < n) (hrows : rows.Nodup) (h : Unsplit key n rows) (o : ℕ → OrderBy key) :
    (pages o n count rows).Nodup := by
  unfold pages
  rw [List.nodup_flatMap]
  constructor
  · intro k _
    exact nodup_page (o k) _ _ hrows
  · refine List.nodup_range.imp ?_
    intro k l hkl a hk hl
    obtain ⟨i, hi, rfl⟩ := (mem_page hn).1 hk
    obtain ⟨j, hj, rfl⟩ := (mem_page hn).1 hl
    exact hkl ((h.page_eq hi).trans (h.page_eq hj).symm)

/-- **The pages hold every row once, whatever the orders, exactly when the rows of one key come on one page.** -/
theorem pages_perm_iff {n count : ℕ} (hn : 0 < n) (hcount : rows.length ≤ count * n) (hrows : rows.Nodup) :
    (∀ o : ℕ → OrderBy key, (pages o n count rows).Perm rows) ↔ Unsplit key n rows := by
  constructor
  · exact unsplit_of_perm hn hcount hrows
  · intro hkeys o
    rw [List.perm_ext_iff_of_nodup (hkeys.pages_nodup hn hrows o) hrows]
    intro a
    rw [mem_pages]
    constructor
    · rintro ⟨k, -, hk⟩
      obtain ⟨i, hi, -⟩ := (mem_page hn).1 hk
      exact mem_run.1 (List.mem_of_getElem? hi)
    · intro ha
      obtain ⟨i, hi⟩ := exists_place (o (below key rows a / n)) ha
      have hpage := hkeys.page_eq hi
      exact ⟨_, hpage ▸ place_lt hn hcount (lt_of_place hi), (mem_page hn).2 ⟨i, hi, hpage⟩⟩

end OrderBy
end Rel
