import Mathlib.Data.List.Infix
import Mathlib.Data.List.TakeWhile
import Mathlib.Data.Nat.Notation
/-!
# GoBytes — strings as Go has them

A string is bytes, UTF-8 or not.  White space is a set of words of bytes: a word is taken off either end as long as there is
one there (`trim_of_bare`, `bare_trim`), and a text joined at a byte of no word has the ends of its parts (`bare_intercalate`).
-/
namespace GoBytes

/-- The bytes of a literal. -/
def lit (s : String) : List UInt8 := s.toByteArray.data.toList

theorem forall_byte {P : UInt8 → Prop} (h : ∀ n < 256, P (UInt8.ofNat n)) (b : UInt8) : P b := by
  have hb := h b.toNat b.toNat_lt
  rwa [UInt8.ofNat_toNat] at hb

/-! ## The parts of a text -/

theorem splitOn_notMem {α : Type} [BEq α] [LawfulBEq α] (a : α) : ∀ (l x : List α), x ∈ l.splitOn a → a ∉ x
  | [], x, hx => by
    rw [List.splitOn_nil, List.mem_singleton] at hx
    rw [hx]
    exact List.not_mem_nil
  | b :: l, x, hx => by
    rw [List.splitOn_cons_eq_if_modifyHead] at hx
    by_cases hb : (b == a) = true
    · rw [if_pos hb, List.mem_cons] at hx
      obtain rfl | hx := hx
      · exact List.not_mem_nil
      · exact splitOn_notMem a l x hx
    · rw [if_neg hb] at hx
      cases hs : l.splitOn a with
      | nil => exact absurd hs (List.splitOn_ne_nil a l)
      | cons y ys =>
        rw [hs, List.modifyHead_cons, List.mem_cons] at hx
        obtain rfl | hx := hx
        · have hy := splitOn_notMem a l y (by rw [hs]; exact List.mem_cons_self)
          rw [List.mem_cons, not_or]
          refine ⟨?_, hy⟩
          rintro rfl
          exact hb BEq.rfl
        · exact splitOn_notMem a l x (by rw [hs]; exact List.mem_cons_of_mem _ hx)

section Until

variable {α : Type} [DecidableEq α] {c : α}

theorem takeWhile_ne_of_notMem {l : List α} (h : c ∉ l) : l.takeWhile (· != c) = l ∧ l.dropWhile (· != c) = [] := by
  have hall : ∀ b ∈ l, (b != c) = true := fun b hb => bne_iff_ne.2 fun he => h (he ▸ hb)
  exact ⟨List.takeWhile_eq_self_iff.2 hall, List.dropWhile_eq_nil_iff.2 hall⟩

theorem takeWhile_ne_append {a : List α} (h : c ∉ a) (b : List α) :
    (a ++ c :: b).takeWhile (· != c) = a ∧ (a ++ c :: b).dropWhile (· != c) = c :: b := by
  obtain ⟨htake, hdrop⟩ := takeWhile_ne_of_notMem h
  have hall : ∀ x ∈ a, (x != c) = true := fun x hx => bne_iff_ne.2 fun he => h (he ▸ hx)
  rw [List.takeWhile_append_of_pos hall, List.dropWhile_append_of_pos hall, List.takeWhile_cons_of_neg (by simp),
    List.dropWhile_cons_of_neg (by simp), List.append_nil]
  exact ⟨rfl, rfl⟩

end Until

/-! ## Texts between delimiters -/

section Delimiters

variable {α : Type} {c : α}

/-- A delimiter has its first byte nowhere else. -/
def IsDelimiter (c : α) (d : List α) : Prop := ∃ e, d = c :: e ∧ c ∉ e

instance [DecidableEq α] (c : α) : ∀ d : List α, Decidable (IsDelimiter c d)
  | [] => isFalse fun ⟨_, h, _⟩ => List.cons_ne_nil _ _ h.symm
  | b :: e =>
    decidable_of_iff (b = c ∧ c ∉ e) ⟨fun ⟨hb, he⟩ => ⟨e, by rw [hb], he⟩, fun ⟨_, h, he⟩ =>
      ⟨(List.cons.inj h).1, (List.cons.inj h).2 ▸ he⟩⟩

/-- A text before the first of a delimiter. -/
theorem append_inj_of_delimiter {d a a' b b' : List α} (hd : IsDelimiter c d) (ha : ¬ d <:+: a) (ha' : ¬ d <:+: a')
    (h : a ++ (d ++ b) = a' ++ (d ++ b')) : a = a' ∧ b = b' := by
  obtain ⟨e, rfl, he⟩ := hd
  have hback : ∀ {a t b b' : List α}, ¬ c :: e <:+: a ++ t → c :: e ++ b = t ++ (c :: e ++ b') → t = [] := by
    intro a t b b' hno heq
    cases t with
    | nil => rfl
    | cons d t =>
      rw [List.cons_append, List.cons_append] at heq
      obtain ⟨rfl, hrest⟩ := List.cons.inj heq
      rcases List.append_eq_append_iff.1 hrest with ⟨s, rfl, -⟩ | ⟨s, rfl, hs⟩
      · exact absurd ⟨a, s, by simp⟩ hno
      · cases s with
        | nil => exact absurd ⟨a, [], by simp⟩ hno
        | cons d s =>
          obtain ⟨rfl, -⟩ := List.cons.inj hs
          exact absurd (List.mem_append_right _ List.mem_cons_self) he
  rcases List.append_eq_append_iff.1 h with ⟨t, rfl, heq⟩ | ⟨t, rfl, heq⟩
  · have ht := hback ha' heq
    subst ht
    exact ⟨(List.append_nil a).symm, List.append_cancel_left heq⟩
  · have ht := hback ha heq
    subst ht
    exact ⟨List.append_nil a', (List.append_cancel_left heq).symm⟩

theorem not_infix_of_notMem {d a : List α} (hd : IsDelimiter c d) (ha : c ∉ a) : ¬ d <:+: a := by
  obtain ⟨e, rfl, -⟩ := hd
  exact fun h => ha (h.subset List.mem_cons_self)

theorem append_inj_of_notMem {d a a' b b' : List α} (hd : IsDelimiter c d) (ha : c ∉ a) (ha' : c ∉ a')
    (h : a ++ (d ++ b) = a' ++ (d ++ b')) : a = a' ∧ b = b' :=
  append_inj_of_delimiter hd (not_infix_of_notMem hd ha) (not_infix_of_notMem hd ha') h

/-- A text before the last of a delimiter. -/
theorem append_inj_of_last {d a a' b b' : List α} (hd : IsDelimiter c d) (hb : c ∉ b) (hb' : c ∉ b')
    (h : a ++ (d ++ b) = a' ++ (d ++ b')) : a = a' ∧ b = b' := by
  obtain ⟨e, rfl, he⟩ := hd
  have hback : ∀ {t b b' : List α}, c ∉ b → c :: e ++ b = t ++ (c :: e ++ b') → t = [] := by
    intro t b b' hno heq
    cases t with
    | nil => rfl
    | cons d t =>
      obtain ⟨-, hrest⟩ := List.cons.inj heq
      have hmem : c ∈ e ++ b := by
        rw [show e ++ b = t ++ (c :: e ++ b') from hrest]
        exact List.mem_append_right _ List.mem_cons_self
      rcases List.mem_append.1 hmem with hmem | hmem
      · exact absurd hmem he
      · exact absurd hmem hno
  rcases List.append_eq_append_iff.1 h with ⟨t, rfl, heq⟩ | ⟨t, rfl, heq⟩
  · have ht := hback hb heq
    subst ht
    exact ⟨(List.append_nil a).symm, List.append_cancel_left heq⟩
  · have ht := hback hb' heq
    subst ht
    exact ⟨List.append_nil a', (List.append_cancel_left heq).symm⟩

theorem infix_of_infix_append_cons {d a b : List α} (hd : c ∉ d) (h : d <:+: a ++ c :: b) : d <:+: a ∨ d <:+: b := by
  have hfront : ∀ {l : List α}, c ∉ l → l <+: c :: b → l = [] := by
    intro l hl hpre
    cases l with
    | nil => rfl
    | cons x l =>
      obtain ⟨rfl, -⟩ := List.cons_prefix_cons.1 hpre
      exact absurd List.mem_cons_self hl
  rcases List.infix_append_iff.1 h with h | h | ⟨l, l', rfl, hl, hl'⟩
  · exact .inl h
  · rcases List.infix_cons_iff.1 h with h | h
    · rw [hfront hd h]
      exact .inl List.nil_infix
    · exact .inr h
  · have hnil := hfront (fun hmem => hd (List.mem_append_right l hmem)) hl'
    subst hnil
    rw [List.append_nil]
    exact .inl hl.isInfix

theorem infix_of_infix_intercalate {d : List α} (hd : c ∉ d) (hne : d ≠ []) : ∀ {ls : List (List α)},
    d <:+: [c].intercalate ls → ∃ l ∈ ls, d <:+: l
  | [], h => absurd (List.infix_nil.1 h) hne
  | [l], h => ⟨l, List.mem_cons_self, by simpa using h⟩
  | l :: l' :: ls, h => by
    rw [List.intercalate_cons_cons, List.append_assoc, List.singleton_append] at h
    rcases infix_of_infix_append_cons hd h with h | h
    · exact ⟨l, List.mem_cons_self, h⟩
    · obtain ⟨x, hx, hwithin⟩ := infix_of_infix_intercalate hd hne h
      exact ⟨x, List.mem_cons_of_mem _ hx, hwithin⟩

/-- Parts without the byte they are joined at; no part and one empty part make the same text. -/
theorem intercalate_injective [DecidableEq α] {ls ls' : List (List α)} (hls : ∀ l ∈ ls, c ∉ l) (hls' : ∀ l ∈ ls', c ∉ l)
    (hone : ls ≠ [[]]) (hone' : ls' ≠ [[]]) (h : [c].intercalate ls = [c].intercalate ls') : ls = ls' := by
  have hsplit := congrArg (List.splitOn c) h
  by_cases hne : ls = []
  · by_cases hne' : ls' = []
    · rw [hne, hne']
    · rw [hne, List.splitOn_intercalate c hls' hne'] at hsplit
      exact absurd hsplit.symm hone'
  · by_cases hne' : ls' = []
    · rw [hne', List.splitOn_intercalate c hls hne] at hsplit
      exact absurd hsplit hone
    · rwa [List.splitOn_intercalate c hls hne, List.splitOn_intercalate c hls' hne'] at hsplit

end Delimiters

/-! ## First and last places -/

section Places

variable {α : Type} [DecidableEq α]

/-- A text up to the first place of another. -/
def beforeFirst (d : List α) : List α → Option (List α)
  | [] => if d = [] then some [] else none
  | b :: l => if d <+: b :: l then some [] else (beforeFirst d l).map (b :: ·)

/-- A text before and after the last of a byte. -/
def cutLast (c : α) : List α → Option (List α × List α)
  | [] => none
  | b :: l =>
    match cutLast c l with
    | some (x, y) => some (b :: x, y)
    | none => if b = c then some ([], l) else none

theorem beforeFirst_of_prefix {d l : List α} (h : d <+: l) : beforeFirst d l = some [] := by
  cases l with
  | nil => exact if_pos (List.prefix_nil.1 h)
  | cons b l => exact if_pos h

theorem of_beforeFirst {d : List α} : ∀ {l x : List α}, beforeFirst d l = some x → ∃ rest, l = x ++ (d ++ rest)
  | [], x, h => by
    unfold beforeFirst at h
    by_cases hd : d = []
    · rw [if_pos hd] at h
      cases h
      exact ⟨[], by rw [hd]; rfl⟩
    · rw [if_neg hd] at h
      cases h
  | b :: l, x, h => by
    unfold beforeFirst at h
    by_cases hpre : d <+: b :: l
    · rw [if_pos hpre] at h
      cases h
      obtain ⟨rest, hrest⟩ := hpre
      exact ⟨rest, hrest.symm⟩
    · rw [if_neg hpre] at h
      obtain ⟨y, hy, rfl⟩ := Option.map_eq_some_iff.1 h
      obtain ⟨rest, rfl⟩ := of_beforeFirst hy
      exact ⟨rest, rfl⟩

/-- The first place is no later than any. -/
theorem beforeFirst_le (d rest : List α) : ∀ y : List α, ∃ x, beforeFirst d (y ++ (d ++ rest)) = some x ∧ x.length ≤ y.length
  | [] => ⟨[], beforeFirst_of_prefix (List.prefix_append d rest), Nat.le_refl _⟩
  | b :: y => by
    by_cases hpre : d <+: b :: (y ++ (d ++ rest))
    · exact ⟨[], beforeFirst_of_prefix hpre, Nat.zero_le _⟩
    · obtain ⟨x, hx, hlen⟩ := beforeFirst_le d rest y
      refine ⟨b :: x, ?_, Nat.succ_le_succ hlen⟩
      rw [List.cons_append, beforeFirst, if_neg hpre, hx]
      rfl

/-- What follows the first place does not matter. -/
theorem beforeFirst_congr {d rest : List α} (rest' : List α) : ∀ {x : List α}, beforeFirst d (x ++ (d ++ rest)) = some x →
    beforeFirst d (x ++ (d ++ rest')) = some x
  | [], _ => beforeFirst_of_prefix (List.prefix_append d rest')
  | b :: x, h => by
    have hback : d <+: b :: (x ++ (d ++ rest')) → d <+: b :: (x ++ (d ++ rest)) := by
      intro hpre
      have hassoc : ∀ r : List α, b :: (x ++ (d ++ r)) = b :: (x ++ d) ++ r := fun r => by simp
      rw [hassoc] at hpre ⊢
      exact (List.prefix_of_prefix_length_le hpre (List.prefix_append _ rest') (by simp; omega)).trans (List.prefix_append _ rest)
    rw [List.cons_append, beforeFirst] at h ⊢
    by_cases hpre : d <+: b :: (x ++ (d ++ rest))
    · rw [if_pos hpre] at h
      cases h
    · rw [if_neg hpre] at h
      obtain ⟨y, hy, he⟩ := Option.map_eq_some_iff.1 h
      obtain ⟨-, rfl⟩ := List.cons.inj he
      rw [if_neg fun h' => hpre (hback h'), beforeFirst_congr rest' hy]
      rfl

theorem cutLast_of_notMem {c : α} : ∀ {l : List α}, c ∉ l → cutLast c l = none
  | [], _ => rfl
  | b :: l, h => by
    rw [List.mem_cons, not_or] at h
    rw [cutLast, cutLast_of_notMem h.2]
    exact if_neg fun he => h.1 he.symm

theorem cutLast_append {c : α} {y : List α} (h : c ∉ y) : ∀ x : List α, cutLast c (x ++ c :: y) = some (x, y)
  | [] => by
    rw [List.nil_append, cutLast, cutLast_of_notMem h]
    exact if_pos rfl
  | b :: x => by rw [List.cons_append, cutLast, cutLast_append h x]

theorem exists_of_mem {c : α} : ∀ {l : List α}, c ∈ l → ∃ x y, l = x ++ c :: y ∧ c ∉ y
  | b :: l, h => by
    by_cases hl : c ∈ l
    · obtain ⟨x, y, rfl, hy⟩ := exists_of_mem hl
      exact ⟨b :: x, y, rfl, hy⟩
    · obtain rfl | h := List.mem_cons.1 h
      · exact ⟨[], l, rfl, hl⟩
      · exact absurd h hl

/-- What is cut at the last of a byte. -/
theorem cutLast_cases (c : α) (l : List α) :
    (c ∉ l ∧ cutLast c l = none) ∨ ∃ x y, l = x ++ c :: y ∧ c ∉ y ∧ cutLast c l = some (x, y) := by
  by_cases h : c ∈ l
  · obtain ⟨x, y, rfl, hy⟩ := exists_of_mem h
    exact .inr ⟨x, y, rfl, hy, cutLast_append hy x⟩
  · exact .inl ⟨h, cutLast_of_notMem h⟩

end Places

/-! ## The first of each kind -/

section Firsts

variable {α : Type} {r : α → α → Bool}

theorem eraseDupsBy_sublist : ∀ l : List α, (l.eraseDupsBy r).Sublist l
  | [] => List.Sublist.refl []
  | a :: l => by
    rw [List.eraseDupsBy_cons]
    exact .cons_cons a ((eraseDupsBy_sublist _).trans List.filter_sublist)
termination_by l => l.length
decreasing_by exact Nat.lt_succ_of_le (List.length_filter_le _ l)

theorem eraseDupsBy_pairwise : ∀ l : List α, (l.eraseDupsBy r).Pairwise fun a b => r b a = false
  | [] => List.Pairwise.nil
  | a :: l => by
    rw [List.eraseDupsBy_cons, List.pairwise_cons]
    refine ⟨fun b hb => ?_, eraseDupsBy_pairwise _⟩
    exact of_decide_eq_true (List.mem_filter.1 ((eraseDupsBy_sublist _).subset hb)).2
termination_by l => l.length
decreasing_by exact Nat.lt_succ_of_le (List.length_filter_le _ l)

theorem eraseDupsBy_of_pairwise : ∀ {l : List α}, (l.Pairwise fun a b => r b a = false) → l.eraseDupsBy r = l
  | [], _ => rfl
  | a :: l, h => by
    have hkept : (l.filter fun b => decide (r b a = false)) = l :=
      List.filter_eq_self.2 fun b hb => decide_eq_true (List.rel_of_pairwise_cons h hb)
    rw [List.eraseDupsBy_cons, hkept, eraseDupsBy_of_pairwise h.of_cons]

end Firsts

section Words

variable {α : Type}

/-! ## The ends of a text -/

/-- A text with no word at either end. -/
structure Bare (words : List (List α)) (l : List α) : Prop where
  left : ∀ w ∈ words, ¬ w <+: l
  right : ∀ w ∈ words, ¬ w <:+ l

variable {words : List (List α)}

theorem bare_nil (hwords : ∀ w ∈ words, w ≠ []) : Bare words ([] : List α) where
  left w hw hpre := hwords w hw (List.prefix_nil.1 hpre)
  right w hw hsuf := hwords w hw (List.suffix_nil.1 hsuf)

theorem prefix_of_prefix_append_cons {w a b : List α} {c : α} (hc : c ∉ w) (h : w <+: a ++ c :: b) : w <+: a := by
  obtain ⟨rest, hrest⟩ := h
  rcases List.append_eq_append_iff.1 hrest with ⟨t, rfl, -⟩ | ⟨t, rfl, ht⟩
  · exact List.prefix_append w t
  · cases t with
    | nil => rw [List.append_nil]
    | cons d t =>
      obtain ⟨rfl, -⟩ := List.cons.inj ht
      exact absurd (List.mem_append_right _ List.mem_cons_self) hc

theorem suffix_of_suffix_append_cons {w a b : List α} {c : α} (hc : c ∉ w) (h : w <:+ a ++ c :: b) : w <:+ b := by
  have hrev : w.reverse <+: b.reverse ++ c :: a.reverse := by
    rw [← List.reverse_prefix] at h
    simpa using h
  exact List.reverse_prefix.1 (prefix_of_prefix_append_cons (by simpa using hc) hrev)

theorem bare_append_cons {a b : List α} {c : α} (hc : ∀ w ∈ words, c ∉ w) (ha : Bare words a) (hb : Bare words b) :
    Bare words (a ++ c :: b) where
  left w hw h := ha.left w hw (prefix_of_prefix_append_cons (hc w hw) h)
  right w hw h := hb.right w hw (suffix_of_suffix_append_cons (hc w hw) h)

theorem bare_intercalate {c : α} (hwords : ∀ w ∈ words, w ≠ []) (hc : ∀ w ∈ words, c ∉ w) : ∀ {ls : List (List α)},
    (∀ l ∈ ls, Bare words l) → Bare words ([c].intercalate ls)
  | [], _ => bare_nil hwords
  | [l], h => by simpa using h l List.mem_cons_self
  | l :: l' :: ls, h => by
    have ih : Bare words ([c].intercalate (l' :: ls)) :=
      bare_intercalate hwords hc fun x hx => h x (List.mem_cons_of_mem _ hx)
    rw [List.intercalate_cons_cons, List.append_assoc, List.singleton_append]
    exact bare_append_cons hc (h l List.mem_cons_self) ih

/-! ## Words taken off the ends -/

variable [DecidableEq α] (words)

def dropWords : ℕ → List α → List α
  | 0, l => l
  | n + 1, l =>
    match words.find? fun w => decide (w <+: l) with
    | none => l
    | some w => dropWords n (l.drop w.length)

def trimLeft (l : List α) : List α := dropWords words l.length l

def trimRight (l : List α) : List α := (trimLeft (words.map List.reverse) l.reverse).reverse

def trim (l : List α) : List α := trimRight words (trimLeft words l)

variable {words}

theorem dropWords_suffix : ∀ (n : ℕ) (l : List α), dropWords words n l <:+ l
  | 0, l => List.suffix_refl l
  | n + 1, l => by
    unfold dropWords
    split
    · exact List.suffix_refl l
    · next w hw => exact (dropWords_suffix n (l.drop w.length)).trans (List.drop_suffix _ _)

theorem not_prefix_dropWords (hwords : ∀ w ∈ words, w ≠ []) : ∀ {n : ℕ} {l : List α}, l.length ≤ n →
    ∀ w ∈ words, ¬ w <+: dropWords words n l
  | 0, l, hn, w, hw, hpre => by
    have hl : l = [] := List.eq_nil_of_length_eq_zero (by omega)
    subst hl
    exact hwords w hw (List.prefix_nil.1 hpre)
  | n + 1, l, hn, w, hw, hpre => by
    unfold dropWords at hpre
    split at hpre
    · next hnone =>
      rw [List.find?_eq_none] at hnone
      exact hnone w hw (decide_eq_true hpre)
    · next v hv =>
      have hmem := List.mem_of_find?_eq_some hv
      have hlen : 0 < v.length := List.length_pos_of_ne_nil (hwords v hmem)
      exact not_prefix_dropWords hwords (by rw [List.length_drop]; omega) w hw hpre

theorem dropWords_of_bare {l : List α} (h : ∀ w ∈ words, ¬ w <+: l) : ∀ n : ℕ, dropWords words n l = l
  | 0 => rfl
  | n + 1 => by
    have hnone : (words.find? fun w => decide (w <+: l)) = none := by
      rw [List.find?_eq_none]
      intro w hw
      simpa using h w hw
    rw [dropWords, hnone]

theorem trimLeft_final (l : List α) : trimLeft words l <:+ l := dropWords_suffix _ l

theorem trimRight_initial (l : List α) : trimRight words l <+: l := by
  have h : trimLeft (words.map List.reverse) l.reverse <:+ l.reverse := trimLeft_final l.reverse
  rwa [← List.reverse_prefix, List.reverse_reverse] at h

theorem trim_within (l : List α) : trim words l <:+: l :=
  (trimRight_initial _).isInfix.trans (trimLeft_final l).isInfix

theorem not_suffix_trimRight (hwords : ∀ w ∈ words, w ≠ []) (l : List α) : ∀ w ∈ words, ¬ w <:+ trimRight words l := by
  intro w hw hsuf
  have hback : ∀ v ∈ words.map List.reverse, v ≠ [] := by
    intro v hv
    obtain ⟨u, hu, rfl⟩ := List.mem_map.1 hv
    exact fun h => hwords u hu (List.reverse_eq_nil_iff.1 h)
  rw [← List.reverse_prefix, trimRight, List.reverse_reverse] at hsuf
  exact not_prefix_dropWords hback (Nat.le_refl _) w.reverse (List.mem_map_of_mem hw) hsuf

theorem bare_trim (hwords : ∀ w ∈ words, w ≠ []) (l : List α) : Bare words (trim words l) where
  left w hw hpre := not_prefix_dropWords hwords (Nat.le_refl _) w hw (hpre.trans (trimRight_initial _))
  right := not_suffix_trimRight hwords _

theorem trimRight_of_bare {l : List α} (h : ∀ w ∈ words, ¬ w <:+ l) : trimRight words l = l := by
  have hback : trimLeft (words.map List.reverse) l.reverse = l.reverse := by
    refine dropWords_of_bare ?_ _
    intro v hv hpre
    obtain ⟨w, hw, rfl⟩ := List.mem_map.1 hv
    exact h w hw (List.reverse_prefix.1 hpre)
  rw [trimRight, hback, List.reverse_reverse]

theorem trim_of_bare {l : List α} (h : Bare words l) : trim words l = l := by
  have hleft : trimLeft words l = l := dropWords_of_bare h.left _
  rw [trim, hleft, trimRight_of_bare h.right]

theorem dropWords_append_cons {c : α} (hc : ∀ w ∈ words, c ∉ w) (b : List α) : ∀ (n : ℕ) (a : List α),
    ∃ a', dropWords words n (a ++ c :: b) = a' ++ c :: b ∧ a' <:+ a
  | 0, a => ⟨a, rfl, List.suffix_refl a⟩
  | n + 1, a => by
    unfold dropWords
    split
    · exact ⟨a, rfl, List.suffix_refl a⟩
    · next w hw =>
      have hpre : w <+: a ++ c :: b := by simpa using List.find?_some hw
      have hwa := prefix_of_prefix_append_cons (hc w (List.mem_of_find?_eq_some hw)) hpre
      obtain ⟨a', ha', hsuf⟩ := dropWords_append_cons hc b n (a.drop w.length)
      exact ⟨a', by rw [List.drop_append_of_le_length hwa.length_le, ha'], hsuf.trans (List.drop_suffix _ _)⟩

/-- Nothing is taken off beyond a byte of no word. -/
theorem trim_append_cons {c : α} (hc : ∀ w ∈ words, c ∉ w) (a : List α) {b : List α} (hb : ∀ w ∈ words, ¬ w <:+ b) :
    ∃ a', trim words (a ++ c :: b) = a' ++ c :: b ∧ a' <:+ a := by
  obtain ⟨a', ha', hsuf⟩ := dropWords_append_cons hc b (a ++ c :: b).length a
  refine ⟨a', ?_, hsuf⟩
  rw [trim, trimLeft, ha']
  exact trimRight_of_bare fun w hw h => hb w hw (suffix_of_suffix_append_cons (hc w hw) h)

end Words

/-! ## White space -/

/-- The characters of `unicode.IsSpace`. -/
def spaces : List (List UInt8) :=
  ["\t", "\n", "\x0b", "\x0c", "\r", " ", "\u0085", "\u00a0", "\u1680", "\u2000", "\u2001", "\u2002", "\u2003", "\u2004",
    "\u2005", "\u2006", "\u2007", "\u2008", "\u2009", "\u200a", "\u2028", "\u2029", "\u202f", "\u205f", "\u3000"].map lit

/-- `strings.TrimSpace`. -/
def trimBytes (s : List UInt8) : List UInt8 := trim spaces s

theorem spaces_ne_nil : ∀ w ∈ spaces, w ≠ [] := by decide +kernel

theorem bare_trimBytes (s : List UInt8) : Bare spaces (trimBytes s) := bare_trim spaces_ne_nil s

theorem trimBytes_trimBytes (s : List UInt8) : trimBytes (trimBytes s) = trimBytes s := trim_of_bare (bare_trimBytes s)

end GoBytes
