import Mathlib.Data.List.Basic
import Mathlib.Data.List.Pairwise
import Mathlib.Algebra.BigOperators.Group.List.Basic
import Mathlib.Algebra.Order.BigOperators.Group.List
import Mathlib.Algebra.Order.Group.Int
import Mathlib.Algebra.GroupWithZero.Nat
import Mathlib.Algebra.Ring.Int.Defs
/-!
# RelTable — tables whose rows keep their declared constraints

A table is a list of rows in the order of insertion.  Its schema has a check for one row and says which two rows cannot
stand together: a unique index, a partial unique index and an exclusion constraint are all of the second kind.  A
`Table` carries the proof that its rows keep both, so a statement that would break one is an error and never a state.
-/
namespace Rel

variable {α : Type}

structure Schema (α : Type) where
  check : α → Bool
  clash : α → α → Bool
  clash_comm : ∀ a b, clash a b = clash b a

inductive Violation where
  | check
  | unique
deriving DecidableEq, Repr

@[ext] structure Table (S : Schema α) where
  rows    : List α
  checked : ∀ r ∈ rows, S.check r = true
  noClash : rows.Pairwise fun a b => S.clash a b = false

namespace Table

variable {S : Schema α}

def empty (S : Schema α) : Table S := ⟨[], by simp, by simp⟩

/-- The first row with a property. -/
def get (t : Table S) (p : α → Bool) : Option α := t.rows.find? p

/-- The rows with a property. -/
def select (t : Table S) (p : α → Bool) : List α := t.rows.filter p

/-- The sum of an expression over the rows with a property. -/
def sum (t : Table S) (p : α → Bool) (f : α → ℤ) : ℤ := ((t.select p).map f).sum

/-- `INSERT`: the check of the row comes first, then the indexes. -/
def insert (t : Table S) (r : α) : Except Violation (Table S) :=
  if hc : S.check r = true then
    if hu : ∀ x ∈ t.rows, S.clash x r = false then
      .ok ⟨t.rows ++ [r], by
        intro x hx
        rcases List.mem_append.1 hx with hx | hx
        · exact t.checked x hx
        · rw [List.mem_singleton.1 hx]
          exact hc, by
        refine List.pairwise_append.2 ⟨t.noClash, by simp, fun a ha b hb => ?_⟩
        rw [List.mem_singleton.1 hb]
        exact hu a ha⟩
    else .error .unique
  else .error .check

/-- `UPDATE … SET f WHERE p`. -/
def update (t : Table S) (p : α → Bool) (f : α → α) : Except Violation (Table S) :=
  if hc : ∀ r ∈ t.rows.map (fun r => if p r then f r else r), S.check r = true then
    if hu : (t.rows.map (fun r => if p r then f r else r)).Pairwise fun a b => S.clash a b = false then
      .ok ⟨_, hc, hu⟩
    else .error .unique
  else .error .check

/-- `UPDATE` of columns that no constraint looks at. -/
def rewrite (t : Table S) (f : α → α) (hc : ∀ r, S.check (f r) = S.check r) (hu : ∀ a b, S.clash (f a) (f b) = S.clash a b) :
    Table S where
  rows := t.rows.map f
  checked r hr := by
    obtain ⟨x, hx, rfl⟩ := List.mem_map.1 hr
    rw [hc]
    exact t.checked x hx
  noClash := List.pairwise_map.2 (t.noClash.imp fun h => by rwa [hu])

/-- Several `INSERT`s in one transaction. -/
def insertAll (t : Table S) : List α → Except Violation (Table S)
  | [] => .ok t
  | r :: rs =>
    match t.insert r with
    | .error v => .error v
    | .ok t => t.insertAll rs

/-- `DELETE … WHERE p`. -/
def delete (t : Table S) (p : α → Bool) : Table S :=
  ⟨t.rows.filter (fun r => !p r), fun r hr => t.checked r (List.mem_filter.1 hr).1, t.noClash.filter _⟩

/-! ## Keys -/

/-- **Two rows that clash are one row.** -/
theorem eq_of_clash (t : Table S) {a b : α} (ha : a ∈ t.rows) (hb : b ∈ t.rows) (h : S.clash a b = true) : a = b := by
  by_contra hne
  have : Std.Symm fun x y => S.clash x y = false := ⟨fun x y hxy => by rw [S.clash_comm, hxy]⟩
  have hab := t.noClash.forall ha hb hne
  rw [h] at hab
  cases hab

/-- **A condition that only rows clashing with `r` can meet singles `r` out.** -/
theorem split_key (t : Table S) {r : α} (hr : r ∈ t.rows) {p : α → Bool} (hk : ∀ x, p x = true → S.clash x r = true) :
    ∃ l₁ l₂, t.rows = l₁ ++ r :: l₂ ∧ (∀ x ∈ l₁, p x = false) ∧ ∀ x ∈ l₂, p x = false := by
  obtain ⟨l₁, l₂, hrows⟩ := List.append_of_mem hr
  have hp := t.noClash
  rw [hrows, List.pairwise_append] at hp
  obtain ⟨-, h2, h3⟩ := hp
  refine ⟨l₁, l₂, hrows, fun x hx => ?_, fun x hx => ?_⟩
  · have hxr := h3 x hx r (by simp)
    by_contra hpx
    rw [hk x (by simpa using hpx)] at hxr
    cases hxr
  · have hrx := (List.pairwise_cons.1 h2).1 x hx
    by_contra hpx
    rw [S.clash_comm, hk x (by simpa using hpx)] at hrx
    cases hrx

/-- **The lookup of a key finds its row.** -/
theorem get_key (t : Table S) {r : α} (hr : r ∈ t.rows) {p : α → Bool} (hp : p r = true)
    (hk : ∀ x, p x = true → S.clash x r = true) : t.get p = some r := by
  obtain ⟨l₁, l₂, hrows, h1, -⟩ := t.split_key hr hk
  have hnone : l₁.find? p = none := List.find?_eq_none.2 (fun x hx => by simp [h1 x hx])
  simp [get, hrows, List.find?_append, hnone, hp]

/-- **The selection of a key is its row alone.** -/
theorem select_key (t : Table S) {r : α} (hr : r ∈ t.rows) {p : α → Bool} (hp : p r = true)
    (hk : ∀ x, p x = true → S.clash x r = true) : t.select p = [r] := by
  obtain ⟨l₁, l₂, hrows, h1, h2⟩ := t.split_key hr hk
  have hnil : ∀ l : List α, (∀ x ∈ l, p x = false) → l.filter p = [] := fun l hl =>
    List.filter_eq_nil_iff.2 (fun x hx => by simp [hl x hx])
  simp [select, hrows, List.filter_append, hnil l₁ h1, hnil l₂ h2, hp]

theorem get_mem {t : Table S} {p : α → Bool} {r : α} (h : t.get p = some r) : r ∈ t.rows ∧ p r = true :=
  ⟨List.mem_of_find?_eq_some h, List.find?_some h⟩

theorem get_eq_none {t : Table S} {p : α → Bool} : t.get p = none ↔ ∀ r ∈ t.rows, p r = false := by
  simp [get, List.find?_eq_none]

/-- What meets a condition that only one row can meet. -/
theorem select_one (t : Table S) {p : α → Bool} (hk : ∀ a b, p a = true → p b = true → S.clash a b = true) :
    t.select p = (t.get p).toList := by
  cases hg : t.get p with
  | none => exact List.filter_eq_nil_iff.2 fun r hr => by simp [get_eq_none.1 hg r hr]
  | some r =>
    obtain ⟨hr, hp⟩ := get_mem hg
    exact t.select_key hr hp fun x hx => hk x r hx hp

/-- A second condition on the one row. -/
theorem get_and (t : Table S) {p q : α → Bool} (hk : ∀ a b, p a = true → p b = true → S.clash a b = true) :
    (t.get fun r => p r && q r) = (t.get p).filter q := by
  cases hg : t.get p with
  | none => exact get_eq_none.2 fun r hr => by rw [get_eq_none.1 hg r hr, Bool.false_and]
  | some r =>
    obtain ⟨hr, hp⟩ := get_mem hg
    cases hq : q r with
    | true =>
      rw [Option.filter_some_pos hq]
      exact t.get_key hr (by rw [hp, hq]; rfl) fun x hx => hk x r (Bool.and_eq_true_iff.1 hx).1 hp
    | false =>
      rw [Option.filter_some_neg (by simp [hq])]
      refine get_eq_none.2 fun x hx => ?_
      by_contra h
      obtain ⟨hpx, hqx⟩ := Bool.and_eq_true_iff.1 (Bool.not_eq_false _ ▸ h)
      rw [t.eq_of_clash hx hr (hk x r hpx hp), hq] at hqx
      cases hqx

/-! ## Insertion -/

theorem insert_ok (t : Table S) {r : α} (hc : S.check r = true) (hu : ∀ x ∈ t.rows, S.clash x r = false) :
    ∃ t', t.insert r = .ok t' := by
  unfold insert
  rw [dif_pos hc, dif_pos hu]
  exact ⟨_, rfl⟩

theorem insert_rows {t t' : Table S} {r : α} (h : t.insert r = .ok t') : t'.rows = t.rows ++ [r] := by
  unfold insert at h
  split at h
  · split at h
    · cases h
      rfl
    · cases h
  · cases h

theorem insertAll_rows : ∀ {rs : List α} {t t' : Table S}, t.insertAll rs = .ok t' → t'.rows = t.rows ++ rs
  | [], t, t', h => by
    cases h
    rw [List.append_nil]
  | r :: rs, t, t', h => by
    unfold insertAll at h
    split at h
    · cases h
    · rename_i t₁ h₁
      rw [insertAll_rows h, insert_rows h₁, List.append_assoc, List.singleton_append]

/-- A row that is in the table after its insertion passed the check and clashes with no row before it. -/
theorem of_insert_ok {t t' : Table S} {r : α} (h : t.insert r = .ok t') :
    S.check r = true ∧ ∀ x ∈ t.rows, S.clash x r = false := by
  unfold insert at h
  split at h
  · rename_i hc
    split at h
    · rename_i hu
      exact ⟨hc, hu⟩
    · cases h
  · cases h

theorem of_insert_unique {t : Table S} {r : α} (h : t.insert r = .error .unique) :
    S.check r = true ∧ ∃ x ∈ t.rows, S.clash x r = true := by
  unfold insert at h
  split at h
  · rename_i hc
    split at h
    · cases h
    · rename_i hu
      push Not at hu
      obtain ⟨x, hx, hxr⟩ := hu
      exact ⟨hc, x, hx, by simpa using hxr⟩
  · cases h

theorem insert_unique (t : Table S) {r x : α} (hc : S.check r = true) (hx : x ∈ t.rows) (h : S.clash x r = true) :
    t.insert r = .error .unique := by
  unfold insert
  rw [dif_pos hc, dif_neg]
  intro hu
  rw [hu x hx] at h
  cases h

theorem insert_check (t : Table S) {r : α} (hc : S.check r = false) : t.insert r = .error .check := by
  unfold insert
  rw [dif_neg (by simp [hc])]

theorem sum_insert {t t' : Table S} {r : α} (h : t.insert r = .ok t') (p : α → Bool) (f : α → ℤ) :
    t'.sum p f = t.sum p f + if p r then f r else 0 := by
  unfold sum select
  rw [insert_rows h, List.filter_append, List.map_append, List.sum_append]
  cases hp : p r <;> simp [hp]

theorem select_insert {t t' : Table S} {r : α} (h : t.insert r = .ok t') (p : α → Bool) :
    t'.select p = t.select p ++ if p r then [r] else [] := by
  unfold select
  rw [insert_rows h, List.filter_append]
  cases hp : p r <;> simp [hp]

/-- A sum over a table in which one row has taken the place of another. -/
theorem sum_replace {t t' : Table S} {l₁ l₂ : List α} {r r' : α} (h : t.rows = l₁ ++ r :: l₂)
    (h' : t'.rows = l₁ ++ r' :: l₂) (p : α → Bool) (f : α → ℤ) :
    t'.sum p f = t.sum p f - (if p r then f r else 0) + if p r' then f r' else 0 := by
  unfold sum select
  rw [h, h']
  simp only [List.filter_append, List.filter_cons, List.map_append, List.sum_append]
  cases p r <;> cases p r' <;> simp <;> omega

/-- Of rows that all clash with one another there is at most one. -/
theorem select_le_one (t : Table S) {p : α → Bool} (h : ∀ a b, p a = true → p b = true → S.clash a b = true) :
    (t.select p).length ≤ 1 := by
  have hp := t.noClash.filter p
  unfold select
  cases hl : t.rows.filter p with
  | nil => simp
  | cons a l =>
    cases l with
    | nil => simp
    | cons b l =>
      rw [hl] at hp
      have ha : a ∈ t.rows.filter p := by simp [hl]
      have hb : b ∈ t.rows.filter p := by simp [hl]
      have hab := (List.pairwise_cons.1 hp).1 b (by simp)
      rw [h a b (List.mem_filter.1 ha).2 (List.mem_filter.1 hb).2] at hab
      cases hab

/-! ## Update -/

theorem update_rows {t t' : Table S} {p : α → Bool} {f : α → α} (h : t.update p f = .ok t') :
    t'.rows = t.rows.map (fun r => if p r then f r else r) := by
  unfold update at h
  split at h
  · split at h
    · cases h
      rfl
    · cases h
  · cases h

/-- **An update that changes no key succeeds**: its new rows pass the check and clash where the old ones did. -/
theorem update_ok (t : Table S) {p : α → Bool} {f : α → α} (hc : ∀ r ∈ t.rows, p r = true → S.check (f r) = true)
    (hu : ∀ a ∈ t.rows, ∀ b ∈ t.rows, S.clash a b = false →
      S.clash (if p a then f a else a) (if p b then f b else b) = false) : ∃ t', t.update p f = .ok t' := by
  unfold update
  rw [dif_pos, dif_pos]
  · exact ⟨_, rfl⟩
  · refine List.pairwise_map.2 (List.Pairwise.imp_of_mem ?_ t.noClash)
    exact fun ha hb hab => hu _ ha _ hb hab
  · intro r hr
    obtain ⟨x, hx, rfl⟩ := List.mem_map.1 hr
    cases hp : p x with
    | true => simpa [hp] using hc x hx hp
    | false => simpa [hp] using t.checked x hx

/-- A table of one row, updated. -/
theorem update_one {t : Table S} {r : α} (ht : t.rows = [r]) {p : α → Bool} {f : α → α} (hp : p r = true)
    (hc : S.check (f r) = true) : ∃ t', t.update p f = .ok t' ∧ t'.rows = [f r] := by
  unfold update
  rw [dif_pos, dif_pos]
  · exact ⟨_, rfl, by simp [ht, hp]⟩
  · simp [ht]
  · simp [ht, hp, hc]

/-- An update of one row, by its key. -/
theorem update_key {t t' : Table S} {p : α → Bool} {f : α → α} {r : α} (h : t.update p f = .ok t') (hp : p r = true)
    {l₁ l₂ : List α} (hrows : t.rows = l₁ ++ r :: l₂) (h1 : ∀ x ∈ l₁, p x = false) (h2 : ∀ x ∈ l₂, p x = false) :
    t'.rows = l₁ ++ f r :: l₂ := by
  have hid : ∀ l : List α, (∀ x ∈ l, p x = false) → l.map (fun r => if p r then f r else r) = l := by
    intro l hl
    conv_rhs => rw [← List.map_id l]
    exact List.map_congr_left (fun x hx => by simp [hl x hx])
  rw [update_rows h, hrows, List.map_append, List.map_cons, hid l₁ h1, hid l₂ h2]
  simp [hp]

/-- **An update that no row meets changes nothing.** -/
theorem update_none (t : Table S) {p : α → Bool} {f : α → α} (h : ∀ r ∈ t.rows, p r = false) : t.update p f = .ok t := by
  have hid : t.rows.map (fun r => if p r then f r else r) = t.rows := by
    conv_rhs => rw [← List.map_id t.rows]
    exact List.map_congr_left (fun x hx => by simp [h x hx])
  unfold update
  rw [dif_pos (by rw [hid]; exact t.checked), dif_pos (by rw [hid]; exact t.noClash)]
  exact congrArg Except.ok (Table.ext hid)

/-! ## Lookups after a statement -/

/-- **A lookup after an update** that leaves alone what the lookup goes by. -/
theorem get_update {t t' : Table S} {p q : α → Bool} {f : α → α} (h : t.update p f = .ok t')
    (hq : ∀ r, q (f r) = q r) : t'.get q = (t.get q).map fun r => if p r then f r else r := by
  unfold get
  rw [update_rows h, List.find?_map]
  congr 2
  funext r
  simp only [Function.comp]
  split
  · exact hq r
  · rfl

/-- A selection after an update that leaves alone what it goes by. -/
theorem select_update {t t' : Table S} {p q : α → Bool} {f : α → α} (h : t.update p f = .ok t')
    (hq : ∀ r, q (f r) = q r) : t'.select q = (t.select q).map fun r => if p r then f r else r := by
  unfold select
  rw [update_rows h, List.filter_map]
  congr 2
  funext r
  simp only [Function.comp]
  split
  · exact hq r
  · rfl

/-- **A selection after an update** of rows that it does not take, neither before nor after. -/
theorem select_update_others {t t' : Table S} {p q : α → Bool} {f : α → α} (h : t.update p f = .ok t')
    (hp : ∀ r ∈ t.rows, p r = true → q r = false ∧ q (f r) = false) : t'.select q = t.select q := by
  unfold select
  rw [update_rows h]
  generalize t.rows = l at hp
  induction l with
  | nil => rfl
  | cons r l ih =>
    have ih := ih fun x hx => hp x (List.mem_cons_of_mem _ hx)
    rw [List.map_cons, List.filter_cons, List.filter_cons, ih]
    cases hpr : p r with
    | false => simp
    | true =>
      obtain ⟨h1, h2⟩ := hp r List.mem_cons_self hpr
      simp [h1, h2]

/-- **A lookup by a key after a deletion** finds the row if it is not among those deleted. -/
theorem get_delete (t : Table S) {p q : α → Bool} (hk : ∀ a b, q a = true → q b = true → S.clash a b = true) :
    (t.delete p).get q = (t.get q).bind fun r => if p r then none else some r := by
  cases hg : t.get q with
  | none =>
    rw [get_eq_none] at hg
    exact get_eq_none.2 fun r hr => hg r (List.mem_filter.1 hr).1
  | some r =>
    obtain ⟨hr, hqr⟩ := get_mem hg
    have hone : ∀ x ∈ t.rows, q x = true → x = r := fun x hx hqx => t.eq_of_clash hx hr (hk x r hqx hqr)
    by_cases hp : p r = true
    · simp only [Option.bind_some, hp, if_true]
      refine get_eq_none.2 fun x hx => ?_
      obtain ⟨hx, hpx⟩ := List.mem_filter.1 hx
      by_contra hqx
      rw [hone x hx (by simpa using hqx), hp] at hpx
      cases hpx
    · simp only [Option.bind_some, hp]
      refine (t.delete p).get_key (List.mem_filter.2 ⟨hr, by simpa using hp⟩) hqr fun x hx => hk x r hx hqr

theorem delete_none (t : Table S) {p : α → Bool} (h : ∀ r ∈ t.rows, p r = false) : t.delete p = t := by
  refine Table.ext (List.filter_eq_self.2 fun r hr => ?_)
  rw [h r hr]
  rfl

theorem get_insert {t t' : Table S} {r : α} (h : t.insert r = .ok t') (q : α → Bool) :
    t'.get q = (t.get q).or (if q r then some r else none) := by
  unfold get
  rw [insert_rows h, List.find?_append]
  cases hq : q r <;> simp [hq]

end Table

/-! ## Comparing sums -/

/-- Entries with different keys, each covered by an entry of its key in a list of nonnegative ones. -/
theorem list_sum_le_of_key {α β κ : Type} (k : α → κ) (k' : β → κ) {f : α → ℤ} {g : β → ℤ} :
    ∀ (l : List α) (m : List β), l.Pairwise (fun a b => k a ≠ k b) → (∀ a ∈ l, ∃ b ∈ m, k' b = k a ∧ f a ≤ g b) →
      (∀ b ∈ m, 0 ≤ g b) → (l.map f).sum ≤ (m.map g).sum
  | [], m, _, _, hg => by
    simp only [List.map_nil, List.sum_nil]
    exact List.sum_nonneg (by simpa using hg)
  | a :: l, m, hk, hm, hg => by
    obtain ⟨b, hb, hkb, hab⟩ := hm a (by simp)
    obtain ⟨m₁, m₂, rfl⟩ := List.append_of_mem hb
    obtain ⟨hka, hkl⟩ := List.pairwise_cons.1 hk
    -- the others have their keys outside the entry taken
    have ih := list_sum_le_of_key k k' l (m₁ ++ m₂) hkl (fun x hx => by
      obtain ⟨y, hy, hyk, hxy⟩ := hm x (by simp [hx])
      refine ⟨y, ?_, hyk, hxy⟩
      have hne : y ≠ b := by
        rintro rfl
        exact hka x hx (hkb.symm.trans hyk)
      simpa [hne] using hy) (fun y hy => hg y (by simp at hy ⊢; tauto))
    simp only [List.map_append, List.map_cons, List.sum_append, List.sum_cons] at ih ⊢
    omega

/-- **A sum over the rows of one table is at most that over another's** in which each of them has a row of its key. -/
theorem Table.sum_le_of_key {α β κ : Type} {S : Schema α} {T : Schema β} {s : Table S} {t : Table T} {p : α → Bool}
    {q : β → Bool} (k : α → κ) (k' : β → κ) {f : α → ℤ} {g : β → ℤ} (hk : ∀ a b, k a = k b → S.clash a b = true)
    (h : ∀ a ∈ s.rows, p a = true → ∃ b ∈ t.rows, q b = true ∧ k' b = k a ∧ f a ≤ g b)
    (hg : ∀ b ∈ t.rows, 0 ≤ g b) : s.sum p f ≤ t.sum q g := by
  refine list_sum_le_of_key k k' _ _ ?_ ?_ (fun b hb => hg b (List.mem_filter.1 hb).1)
  · refine (s.noClash.filter p).imp fun hab heq => ?_
    rw [hk _ _ heq] at hab
    cases hab
  · intro a ha
    obtain ⟨ha, hp⟩ := List.mem_filter.1 ha
    obtain ⟨b, hb, hq, hkb, hab⟩ := h a ha hp
    exact ⟨b, List.mem_filter.2 ⟨hb, hq⟩, hkb, hab⟩

/-- What is sorted by a serial column comes in the order of the column. -/
theorem mergeSort_pairwise {α : Type} (key : α → ℤ) (l : List α) :
    (l.mergeSort fun a b => decide (key a ≤ key b)).Pairwise fun a b => key a ≤ key b := by
  refine (List.pairwise_mergeSort (fun a b c hab hbc => ?_) (fun a b => ?_) l).imp (by simp)
  · simp only [decide_eq_true_eq] at hab hbc ⊢
    omega
  · simp only [Bool.or_eq_true, decide_eq_true_eq]
    omega

/-- The next value of a serial column. -/
def nextSerial (ids : List ℤ) : ℤ := ids.foldr max 0 + 1

theorem lt_nextSerial {ids : List ℤ} {i : ℤ} (h : i ∈ ids) : i < nextSerial ids := by
  unfold nextSerial
  induction ids with
  | nil => cases h
  | cons j js ih =>
    simp only [List.foldr_cons]
    rcases List.mem_cons.1 h with rfl | h
    · omega
    · have := ih h
      omega

theorem nextSerial_pos (ids : List ℤ) : 0 < nextSerial ids := by
  have : 0 ≤ ids.foldr max 0 := by
    induction ids with
    | nil => simp
    | cons j js ih => simp only [List.foldr_cons]; omega
  unfold nextSerial
  omega

end Rel
