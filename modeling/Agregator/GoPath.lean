import Mathlib.Data.Nat.Notation
import Mathlib.Tactic.SplitIfs
import Mathlib.Algebra.GroupWithZero.Nat
import Agregator.GoBytes
/-!
# GoPath — paths as `path.Clean` leaves them

A path is its elements between slashes.  Cleaning drops the empty ones and the dots, and takes an element away for each two dots
after it.  What is cleaned has no such element inside (`mem_elements`), a path without them is left as it is (`clean_of_neat`),
and plain elements at the end are kept (`elements_append`).
-/
namespace GoPath

def slash : UInt8 := 0x2F

def onedot : List UInt8 := [0x2E]

def dotdot : List UInt8 := [0x2E, 0x2E]

/-- The elements of a path. -/
def parts (p : List UInt8) : List (List UInt8) := p.splitOn slash

def unparts (es : List (List UInt8)) : List UInt8 := [slash].intercalate es

/-- One element after those that are kept, the last of them first. -/
def step (rooted : Bool) (kept : List (List UInt8)) (e : List UInt8) : List (List UInt8) :=
  if e = [] ∨ e = onedot then kept
  else if e = dotdot then
    match kept with
    | [] => if rooted then [] else [dotdot]
    | x :: rest => if x = dotdot then dotdot :: kept else rest
  else e :: kept

def elements (rooted : Bool) (es : List (List UInt8)) : List (List UInt8) := (es.foldl (step rooted) []).reverse

def isRooted (p : List UInt8) : Bool := p.head? == some slash

def elementsOf (p : List UInt8) : List (List UInt8) := elements (isRooted p) (parts p)

/-- `path.Clean`. -/
def clean (p : List UInt8) : List UInt8 :=
  if isRooted p then slash :: unparts (elementsOf p)
  else if elementsOf p = [] then onedot else unparts (elementsOf p)

/-- `strings.Trim` of slashes. -/
def trimSlashes (p : List UInt8) : List UInt8 := ((p.dropWhile (· == slash)).reverse.dropWhile (· == slash)).reverse

/-! ## Elements -/

theorem unparts_parts (p : List UInt8) : unparts (parts p) = p := List.intercalate_splitOn slash

theorem slash_notMem_parts {p e : List UInt8} (h : e ∈ parts p) : slash ∉ e := GoBytes.splitOn_notMem slash p e h

theorem parts_ne_nil (p : List UInt8) : parts p ≠ [] := List.splitOn_ne_nil slash p

theorem parts_unparts {es : List (List UInt8)} (hne : es ≠ []) (h : ∀ e ∈ es, slash ∉ e) : parts (unparts es) = es :=
  List.splitOn_intercalate slash h hne

theorem parts_append (a b : List UInt8) : parts (a ++ slash :: b) = parts a ++ parts b :=
  List.splitOn_append_cons_self a b

theorem parts_of_notMem {e : List UInt8} (h : slash ∉ e) : parts e = [e] := List.splitOn_eq_singleton h

theorem unparts_singleton (e : List UInt8) : unparts [e] = e := List.intercalate_singleton

theorem unparts_cons {e : List UInt8} {es : List (List UInt8)} (h : es ≠ []) : unparts (e :: es) = e ++ slash :: unparts es := by
  cases es with
  | nil => exact absurd rfl h
  | cons f es => rw [unparts, List.intercalate_cons_cons, List.append_assoc, List.singleton_append, unparts]

theorem unparts_append {a b : List (List UInt8)} (ha : a ≠ []) (hb : b ≠ []) :
    unparts (a ++ b) = unparts a ++ slash :: unparts b := by
  induction a with
  | nil => exact absurd rfl ha
  | cons e a ih =>
    by_cases hnil : a = []
    · subst hnil
      rw [List.singleton_append, unparts_cons hb, unparts_singleton]
    · have happ : a ++ b ≠ [] := fun h => hnil (List.append_eq_nil_iff.1 h).1
      rw [List.cons_append, unparts_cons happ, ih hnil, unparts_cons hnil, List.append_assoc, List.cons_append]

/-! ## Cleaning -/

/-- An element cleaning keeps wherever it is. -/
def PlainElement (e : List UInt8) : Prop := e ≠ [] ∧ e ≠ onedot ∧ e ≠ dotdot

theorem step_plain {r : Bool} {kept : List (List UInt8)} {e : List UInt8} (h : PlainElement e) : step r kept e = e :: kept := by
  unfold step
  rw [if_neg (by simp [h.1, h.2.1]), if_neg h.2.2]

theorem foldl_step_plain {r : Bool} : ∀ {es : List (List UInt8)} (kept : List (List UInt8)), (∀ e ∈ es, PlainElement e) →
    es.foldl (step r) kept = es.reverse ++ kept
  | [], kept, _ => rfl
  | e :: es, kept, h => by
    rw [List.foldl_cons, step_plain (h e List.mem_cons_self),
      foldl_step_plain (e :: kept) fun x hx => h x (List.mem_cons_of_mem _ hx), List.reverse_cons, List.append_assoc,
      List.singleton_append]

theorem elements_append {r : Bool} (a : List (List UInt8)) {es : List (List UInt8)} (h : ∀ e ∈ es, PlainElement e) :
    elements r (a ++ es) = elements r a ++ es := by
  rw [elements, List.foldl_append, foldl_step_plain _ h, List.reverse_append, List.reverse_reverse, elements]

theorem elements_of_plain {r : Bool} {es : List (List UInt8)} (h : ∀ e ∈ es, PlainElement e) : elements r es = es := by
  have happ := elements_append (r := r) [] h
  rwa [List.nil_append] at happ

theorem elements_nil_cons {r : Bool} (es : List (List UInt8)) : elements r ([] :: es) = elements r es := rfl

/-- **What one element does**: nothing, or it is kept, or it is two dots kept after such ones only, or it takes away the last. -/
theorem step_cases (r : Bool) (kept : List (List UInt8)) (e : List UInt8) :
    step r kept e = kept ∨ (PlainElement e ∧ step r kept e = e :: kept) ∨
      (e = dotdot ∧ step r kept e = dotdot :: kept ∧ ((r = false ∧ kept = []) ∨ ∃ rest, kept = dotdot :: rest)) ∨
      ∃ y, kept = y :: step r kept e := by
  unfold step
  by_cases hempty : e = [] ∨ e = onedot
  · exact .inl (if_pos hempty)
  · rw [if_neg hempty]
    by_cases hup : e = dotdot
    · rw [if_pos hup]
      cases kept with
      | nil =>
        cases r with
        | true => exact .inl rfl
        | false => exact .inr (.inr (.inl ⟨hup, rfl, .inl ⟨rfl, rfl⟩⟩))
      | cons y rest =>
        dsimp only
        by_cases hy : y = dotdot
        · rw [if_pos hy]
          exact .inr (.inr (.inl ⟨hup, rfl, .inr ⟨rest, by rw [hy]⟩⟩))
        · rw [if_neg hy]
          exact .inr (.inr (.inr ⟨y, rfl⟩))
    · rw [if_neg hup]
      exact .inr (.inl ⟨⟨fun he => hempty (.inl he), fun he => hempty (.inr he), hup⟩, rfl⟩)

/-- What is kept is neither empty nor a dot, is one of the elements or two dots, and below the root not two dots. -/
theorem mem_step {r : Bool} {kept : List (List UInt8)} {e x : List UInt8} (h : x ∈ step r kept e) :
    x ∈ kept ∨ (x = e ∧ PlainElement e) ∨ (x = dotdot ∧ r = false) := by
  rcases step_cases r kept e with hs | ⟨hplain, hs⟩ | ⟨-, hs, hk⟩ | ⟨y, hy⟩
  · rw [hs] at h
    exact .inl h
  · rw [hs] at h
    rcases List.mem_cons.1 h with rfl | h
    · exact .inr (.inl ⟨rfl, hplain⟩)
    · exact .inl h
  · rw [hs] at h
    rcases List.mem_cons.1 h with rfl | h
    · rcases hk with ⟨hr, -⟩ | ⟨rest, rfl⟩
      · exact .inr (.inr ⟨rfl, hr⟩)
      · exact .inl List.mem_cons_self
    · exact .inl h
  · rw [hy]
    exact .inl (List.mem_cons_of_mem _ h)

theorem mem_foldl_step {r : Bool} {x : List UInt8} : ∀ {es kept : List (List UInt8)}, x ∈ es.foldl (step r) kept →
    x ∈ kept ∨ (x ∈ es ∧ PlainElement x) ∨ (x = dotdot ∧ r = false)
  | [], kept, h => .inl h
  | e :: es, kept, h => by
    have hrest : x ∈ es.foldl (step r) (step r kept e) := h
    rcases mem_foldl_step hrest with hk | ⟨hmem, hplain⟩ | hup
    · rcases mem_step hk with hk | ⟨rfl, hplain⟩ | hup
      · exact .inl hk
      · exact .inr (.inl ⟨List.mem_cons_self, hplain⟩)
      · exact .inr (.inr hup)
    · exact .inr (.inl ⟨List.mem_cons_of_mem _ hmem, hplain⟩)
    · exact .inr (.inr hup)

theorem mem_elements {r : Bool} {es : List (List UInt8)} {x : List UInt8} (h : x ∈ elements r es) :
    (x ∈ es ∧ PlainElement x) ∨ (x = dotdot ∧ r = false) := by
  rcases mem_foldl_step (List.mem_reverse.1 h) with hk | hplain | hup
  · cases hk
  · exact .inl hplain
  · exact .inr hup

theorem pairwise_step {r : Bool} {kept : List (List UInt8)} (e : List UInt8)
    (h : kept.Pairwise fun y x => y = dotdot → x = dotdot) : (step r kept e).Pairwise fun y x => y = dotdot → x = dotdot := by
  rcases step_cases r kept e with hs | ⟨hplain, hs⟩ | ⟨-, hs, hk⟩ | ⟨y, hy⟩
  · rwa [hs]
  · rw [hs]
    exact List.pairwise_cons.2 ⟨fun x _ he => absurd he hplain.2.2, h⟩
  · rw [hs]
    refine List.pairwise_cons.2 ⟨fun x hx _ => ?_, h⟩
    rcases hk with ⟨-, rfl⟩ | ⟨rest, rfl⟩
    · cases hx
    · rcases List.mem_cons.1 hx with rfl | hx
      · rfl
      · exact (List.pairwise_cons.1 h).1 x hx rfl
  · rw [hy] at h
    exact (List.pairwise_cons.1 h).2

/-- Before two dots stand two dots only. -/
theorem pairwise_elements (r : Bool) (es : List (List UInt8)) : (elements r es).Pairwise fun x y => y = dotdot → x = dotdot := by
  have hfold : ∀ es kept : List (List UInt8), kept.Pairwise (fun y x => y = dotdot → x = dotdot) →
      (es.foldl (step r) kept).Pairwise fun y x => y = dotdot → x = dotdot := by
    intro es
    induction es with
    | nil => exact fun kept h => h
    | cons e es ih => exact fun kept h => ih _ (pairwise_step e h)
  rw [elements, List.pairwise_reverse]
  exact hfold es [] List.Pairwise.nil

theorem mem_elementsOf {p e : List UInt8} (h : e ∈ elementsOf p) :
    e ≠ [] ∧ e ≠ onedot ∧ slash ∉ e ∧ (isRooted p = true → e ≠ dotdot) := by
  rcases mem_elements h with ⟨hmem, hplain⟩ | ⟨rfl, hr⟩
  · exact ⟨hplain.1, hplain.2.1, slash_notMem_parts hmem, fun _ => hplain.2.2⟩
  · exact ⟨by decide, by decide, by decide, fun ht => by rw [hr] at ht; cases ht⟩

/-! ## Slashes at the ends -/

theorem unparts_ends {es : List (List UInt8)} (hne : es ≠ []) (h : ∀ e ∈ es, e ≠ [] ∧ slash ∉ e) :
    (∃ b l, unparts es = b :: l ∧ b ≠ slash) ∧ ∃ l b, unparts es = l ++ [b] ∧ b ≠ slash := by
  constructor
  · cases es with
    | nil => exact absurd rfl hne
    | cons e es =>
      obtain ⟨he, hslash⟩ := h e List.mem_cons_self
      obtain ⟨b, e, rfl⟩ := List.exists_cons_of_ne_nil he
      have hb : b ≠ slash := fun hb => hslash (hb ▸ List.mem_cons_self)
      by_cases hnil : es = []
      · subst hnil
        exact ⟨b, e, unparts_singleton _, hb⟩
      · exact ⟨b, e ++ slash :: unparts es, unparts_cons hnil, hb⟩
  · obtain ⟨init, e, rfl⟩ := List.eq_nil_or_concat es |>.resolve_left hne
    obtain ⟨he, hslash⟩ := h e (by simp)
    obtain ⟨e, b, rfl⟩ := List.eq_nil_or_concat e |>.resolve_left he
    have hb : b ≠ slash := fun hb => hslash (by simp [hb])
    by_cases hnil : init = []
    · subst hnil
      exact ⟨e, b, by simp [unparts_singleton], hb⟩
    · refine ⟨unparts init ++ slash :: e, b, ?_, hb⟩
      rw [List.concat_eq_append, unparts_append hnil (List.cons_ne_nil _ _), unparts_singleton]
      simp

theorem trimSlashes_unparts {es : List (List UInt8)} (hne : es ≠ []) (h : ∀ e ∈ es, e ≠ [] ∧ slash ∉ e) :
    trimSlashes (unparts es) = unparts es ∧ trimSlashes (slash :: unparts es) = unparts es := by
  obtain ⟨⟨b, l, hfront, hb⟩, l', b', hback, hb'⟩ := unparts_ends hne h
  have hdrop : (unparts es).dropWhile (· == slash) = unparts es := by
    rw [hfront, List.dropWhile_cons_of_neg (by simpa using hb)]
  have hlast : ((unparts es).reverse.dropWhile (· == slash)).reverse = unparts es := by
    rw [hback, List.reverse_append, List.reverse_singleton, List.singleton_append,
      List.dropWhile_cons_of_neg (by simpa using hb'), List.reverse_cons, List.reverse_reverse]
  constructor
  · rw [trimSlashes, hdrop, hlast]
  · rw [trimSlashes, List.dropWhile_cons_of_pos (by simp), hdrop, hlast]

/-- The elements of a path are what stands between the slashes of the cleaned one. -/
theorem parts_trimSlashes_clean {p : List UInt8} (h : elementsOf p ≠ []) : parts (trimSlashes (clean p)) = elementsOf p := by
  have hes : ∀ e ∈ elementsOf p, e ≠ [] ∧ slash ∉ e := fun e he => ⟨(mem_elementsOf he).1, (mem_elementsOf he).2.2.1⟩
  obtain ⟨hplain, hslash⟩ := trimSlashes_unparts h hes
  have hread := parts_unparts h fun e he => (hes e he).2
  unfold clean
  by_cases hr : isRooted p = true
  · rw [if_pos hr, hslash, hread]
  · rw [if_neg hr, if_neg h, hplain, hread]

theorem trimSlashes_clean_of_nil {p : List UInt8} (h : elementsOf p = []) :
    trimSlashes (clean p) = [] ∨ trimSlashes (clean p) = onedot := by
  unfold clean
  rw [h]
  by_cases hr : isRooted p = true
  · rw [if_pos hr]
    exact .inl (by decide)
  · rw [if_neg hr, if_pos rfl]
    exact .inr (by decide)

theorem parts_clean {p : List UInt8} (h : elementsOf p ≠ []) :
    parts (clean p) = if isRooted p then [] :: elementsOf p else elementsOf p := by
  have hread := parts_unparts h fun e he => (mem_elementsOf he).2.2.1
  unfold clean
  by_cases hr : isRooted p = true
  · have hroot : parts (slash :: unparts (elementsOf p)) = [] :: parts (unparts (elementsOf p)) := parts_append [] _
    rw [if_pos hr, if_pos hr, hroot, hread]
  · rw [if_neg hr, if_neg hr, if_neg h, hread]

/-- A cleaned path that begins with an element has the elements. -/
theorem elementsOf_of_parts_clean {p e : List UInt8} {es : List (List UInt8)} (h : parts (clean p) = e :: es) (he : e ≠ [])
    (hd : e ≠ onedot) : elementsOf p = e :: es := by
  by_cases hnil : elementsOf p = []
  · unfold clean at h
    rw [hnil] at h
    by_cases hr : isRooted p = true
    · rw [if_pos hr] at h
      exact absurd (List.cons.inj h).1.symm he
    · rw [if_neg hr, if_pos rfl] at h
      exact absurd (List.cons.inj h).1.symm hd
  · rw [parts_clean hnil] at h
    by_cases hr : isRooted p = true
    · rw [if_pos hr] at h
      exact absurd (List.cons.inj h).1.symm he
    · rwa [if_neg hr] at h

/-! ## Paths that are clean -/

theorem isRooted_iff {p : List UInt8} : isRooted p = true ↔ ∃ rest, p = slash :: rest := by
  cases p with
  | nil => simp [isRooted]
  | cons b p => simp [isRooted]

/-- A path of plain elements, with a slash before them or without one, is left as it is. -/
theorem clean_of_neat {p : List UInt8} {es : List (List UInt8)} (hne : es ≠ []) (hes : ∀ e ∈ es, PlainElement e)
    (h : parts p = es ∨ parts p = [] :: es) : elementsOf p = es ∧ clean p = p := by
  have hp := unparts_parts p
  rcases h with h | h
  · have hr : isRooted p ≠ true := by
      intro hr
      obtain ⟨rest, rfl⟩ := isRooted_iff.1 hr
      have happ := parts_append [] rest
      rw [List.nil_append, h, parts_of_notMem List.not_mem_nil] at happ
      rw [happ] at hes
      exact (hes [] List.mem_cons_self).1 rfl
    have helems : elementsOf p = es := by rw [elementsOf, h, elements_of_plain hes]
    refine ⟨helems, ?_⟩
    rw [clean, if_neg hr, helems, if_neg hne, ← h, hp]
  · have hpath : p = slash :: unparts es := by rw [← hp, h, unparts_cons hne, List.nil_append]
    have hr : isRooted p = true := isRooted_iff.2 ⟨_, hpath⟩
    have helems : elementsOf p = es := by rw [elementsOf, h, elements_nil_cons, elements_of_plain hes]
    refine ⟨helems, ?_⟩
    rw [clean, if_pos hr, helems, ← hpath]

/-! ## Lengths -/

/-- The length of elements with a slash after each. -/
def size (es : List (List UInt8)) : ℕ := (es.map fun e => e.length + 1).sum

theorem size_cons (e : List UInt8) (es : List (List UInt8)) : size (e :: es) = e.length + 1 + size es := by simp [size]

theorem length_unparts {es : List (List UInt8)} (h : es ≠ []) : (unparts es).length + 1 = size es := by
  induction es with
  | nil => exact absurd rfl h
  | cons e es ih =>
    by_cases hnil : es = []
    · subst hnil
      rw [unparts_singleton, size_cons]
      rfl
    · have hlen := ih hnil
      rw [unparts_cons hnil, size_cons, List.length_append, List.length_cons]
      omega

theorem size_parts (p : List UInt8) : size (parts p) = p.length + 1 := by
  rw [← length_unparts (parts_ne_nil p), unparts_parts]

theorem size_step (r : Bool) (kept : List (List UInt8)) (e : List UInt8) :
    size (step r kept e) ≤ size kept + (e.length + 1) := by
  rcases step_cases r kept e with hs | ⟨-, hs⟩ | ⟨he, hs, -⟩ | ⟨y, hy⟩
  · rw [hs]
    omega
  · rw [hs, size_cons]
    omega
  · rw [hs, size_cons, he]
    omega
  · have hsize := congrArg size hy
    rw [size_cons] at hsize
    omega

theorem size_foldl_step (r : Bool) : ∀ es kept : List (List UInt8), size (es.foldl (step r) kept) ≤ size kept + size es
  | [], kept => by simp [size]
  | e :: es, kept => by
    have hstep := size_step r kept e
    have hrest := size_foldl_step r es (step r kept e)
    rw [List.foldl_cons, size_cons]
    omega

theorem size_elements (r : Bool) (es : List (List UInt8)) : size (elements r es) ≤ size es := by
  have h := size_foldl_step r es []
  have hrev : size (elements r es) = size (es.foldl (step r) []) := by
    rw [elements, size, size, List.map_reverse, List.sum_reverse]
  rw [hrev]
  simpa [size] using h

/-- Plain elements at the end of a path are those of the cleaned one, and what is before them has not become longer. -/
theorem clean_append (x : List UInt8) {k : List UInt8} (hk : ∀ e ∈ parts k, PlainElement e) :
    clean (x ++ slash :: k) = k ∨ ∃ y, y.length ≤ x.length ∧ clean (x ++ slash :: k) = y ++ slash :: k := by
  have helems : elementsOf (x ++ slash :: k) = elements (isRooted (x ++ slash :: k)) (parts x) ++ parts k := by
    rw [elementsOf, parts_append, elements_append _ hk]
  have hne : elementsOf (x ++ slash :: k) ≠ [] := by
    rw [helems]
    exact fun h => parts_ne_nil k (List.append_eq_nil_iff.1 h).2
  have hone : unparts (parts k) = k := unparts_parts k
  unfold clean
  by_cases hr : isRooted (x ++ slash :: k) = true
  · rw [if_pos hr, helems, hr]
    right
    by_cases hfront : elements true (parts x) = []
    · exact ⟨[], Nat.zero_le _, by rw [hfront, List.nil_append, hone, List.nil_append]⟩
    · refine ⟨slash :: unparts (elements true (parts x)), ?_, ?_⟩
      · cases x with
        | nil => exact absurd rfl hfront
        | cons b x =>
          obtain ⟨rest, hrest⟩ := isRooted_iff.1 hr
          obtain ⟨rfl, -⟩ := List.cons.inj hrest
          have hparts : parts (slash :: x) = [] :: parts x := parts_append [] x
          have hlen := length_unparts hfront
          have hsize := size_elements true (parts x)
          rw [hparts, elements_nil_cons] at hlen ⊢
          rw [size_parts] at hsize
          rw [List.length_cons, List.length_cons]
          omega
      · rw [unparts_append hfront (parts_ne_nil k), hone, List.cons_append]
  · rw [if_neg hr, if_neg hne, helems]
    generalize isRooted (x ++ slash :: k) = r
    by_cases hfront : elements r (parts x) = []
    · exact .inl (by rw [hfront, List.nil_append, hone])
    · refine .inr ⟨unparts (elements r (parts x)), ?_, ?_⟩
      · have hlen := length_unparts hfront
        have hsize := size_elements r (parts x)
        rw [size_parts] at hsize
        omega
      · rw [unparts_append hfront (parts_ne_nil k), hone]

end GoPath
