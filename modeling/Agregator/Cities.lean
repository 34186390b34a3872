import Agregator.GoBytes
/-!
# Cities — the cities of a search within one field

`cities.Join` writes the cities into one field and `cities.Split` reads them again; both trim them, drop the empty ones and keep
the first of those that differ in case only, and so does the search (`EffectiveCities`).  `strings.ToLower` is given: nothing is
asked of it.
-/
namespace Agregator
namespace Cities

open GoBytes (lit trimBytes trimBytes_trimBytes Bare spaces bare_trimBytes)

/-- The byte between two cities. -/
def sep : UInt8 := 0x1E

/-- The cities kept so far and the keys seen. -/
structure Unique where
  out : List (List UInt8)
  seen : List (List UInt8)

variable (toLower : List UInt8 → List UInt8)

def Unique.add (st : Unique) (p : List UInt8) : Unique :=
  let t := trimBytes p
  if t = [] then st
  else
    let k := toLower t
    if k ∈ st.seen then st else ⟨st.out ++ [t], k :: st.seen⟩

/-- The loop of `Join`, of `Split` and of `normalizeCityList`. -/
def unique (parts : List (List UInt8)) : List (List UInt8) := (parts.foldl (Unique.add toLower) ⟨[], []⟩).out

def join (parts : List (List UInt8)) : List UInt8 :=
  let b := unique toLower parts
  if b = [] then [] else [sep].intercalate b

def split (s : List UInt8) : List (List UInt8) :=
  let s := trimBytes s
  if s = [] then [] else if sep ∉ s then [s] else unique toLower (s.splitOn sep)

def normalizeCityList (cities : List (List UInt8)) : List (List UInt8) := unique toLower cities

/-! ## What the loop keeps -/

/-- The cities of a list: trimmed, not empty, the first of each key. -/
def named (parts : List (List UInt8)) : List (List UInt8) :=
  ((parts.map trimBytes).filter (· ≠ [])).eraseDupsBy fun a b => toLower a == toLower b

theorem foldl_add (parts : List (List UInt8)) : ∀ st : Unique, (parts.foldl (Unique.add toLower) st).out =
    st.out ++ (((parts.map trimBytes).filter (· ≠ [])).filter fun t => toLower t ∉ st.seen).eraseDupsBy
      fun a b => toLower a == toLower b := by
  induction parts with
  | nil => exact fun st => (List.append_nil st.out).symm
  | cons p parts ih =>
    intro st
    rw [List.foldl_cons, ih, List.map_cons]
    by_cases hempty : trimBytes p = []
    · have hadd : Unique.add toLower st p = st := if_pos hempty
      rw [hadd, List.filter_cons_of_neg (by simpa using hempty)]
    · rw [List.filter_cons_of_pos (by simpa using hempty)]
      by_cases hseen : toLower (trimBytes p) ∈ st.seen
      · have hadd : Unique.add toLower st p = st := by
          unfold Unique.add
          rw [if_neg hempty, if_pos hseen]
        rw [hadd, List.filter_cons_of_neg (by simpa using hseen)]
      · have hadd : Unique.add toLower st p = ⟨st.out ++ [trimBytes p], toLower (trimBytes p) :: st.seen⟩ := by
          unfold Unique.add
          rw [if_neg hempty, if_neg hseen]
        have hkeys : ∀ l : List (List UInt8), (l.filter fun t => toLower t ∉ toLower (trimBytes p) :: st.seen) =
            (l.filter fun t => toLower t ∉ st.seen).filter fun t => (toLower t == toLower (trimBytes p)) = false := by
          intro l
          rw [List.filter_filter]
          refine List.filter_congr fun t _ => ?_
          simp [List.mem_cons]
        rw [hadd, hkeys, List.filter_cons_of_pos (by simpa using hseen), List.eraseDupsBy_cons, List.append_assoc,
          List.singleton_append]

theorem unique_eq (parts : List (List UInt8)) : unique toLower parts = named toLower parts := by
  rw [unique, foldl_add, named, List.nil_append, List.filter_eq_self.2 fun t _ => by simp]

/-- What the loop leaves as it is: trimmed cities, none of them empty, no two of one key. -/
structure Clean (l : List (List UInt8)) : Prop where
  bare : ∀ t ∈ l, Bare spaces t
  ne_nil : ∀ t ∈ l, t ≠ []
  keys : l.Pairwise fun a b => toLower a ≠ toLower b

theorem mem_named {parts : List (List UInt8)} {t : List UInt8} (h : t ∈ named toLower parts) :
    t ≠ [] ∧ ∃ p ∈ parts, trimBytes p = t := by
  obtain ⟨hmem, hne⟩ := List.mem_filter.1 ((GoBytes.eraseDupsBy_sublist _).subset h)
  exact ⟨of_decide_eq_true hne, List.mem_map.1 hmem⟩

theorem clean_named (parts : List (List UInt8)) : Clean toLower (named toLower parts) where
  bare t ht := by
    obtain ⟨-, p, -, rfl⟩ := mem_named toLower ht
    exact bare_trimBytes p
  ne_nil t ht := (mem_named toLower ht).1
  keys := (GoBytes.eraseDupsBy_pairwise _).imp fun h he => by simp [he] at h

theorem named_of_clean {l : List (List UInt8)} (h : Clean toLower l) : named toLower l = l := by
  have hmap : l.map trimBytes = l :=
    (List.map_congr_left fun t ht => GoBytes.trim_of_bare (h.bare t ht)).trans (List.map_id' l)
  have hfilter : (l.filter fun t => t ≠ []) = l := List.filter_eq_self.2 fun t ht => decide_eq_true (h.ne_nil t ht)
  rw [named, hmap, hfilter]
  exact GoBytes.eraseDupsBy_of_pairwise (h.keys.imp fun hne => by simpa using fun he => hne he.symm)

theorem notMem_named {parts : List (List UInt8)} (h : ∀ p ∈ parts, sep ∉ p) : ∀ t ∈ named toLower parts, sep ∉ t := by
  intro t ht hmem
  obtain ⟨-, p, hp, rfl⟩ := mem_named toLower ht
  exact h p hp ((GoBytes.trim_within p).subset hmem)

/-! ## The field -/

theorem sep_notMem_spaces : ∀ w ∈ spaces, sep ∉ w := by decide +kernel

/-- A field of clean cities is read as it was written. -/
theorem split_join_of_clean {l : List (List UInt8)} (h : Clean toLower l) (hsep : ∀ t ∈ l, sep ∉ t) :
    split toLower (join toLower l) = l := by
  have hjoin : join toLower l = [sep].intercalate l := by
    unfold join
    rw [unique_eq, named_of_clean toLower h]
    cases l with
    | nil => rfl
    | cons t l => exact if_neg (List.cons_ne_nil t l)
  have hbare : trimBytes ([sep].intercalate l) = [sep].intercalate l :=
    GoBytes.trim_of_bare (GoBytes.bare_intercalate GoBytes.spaces_ne_nil sep_notMem_spaces h.bare)
  rw [hjoin]
  unfold split
  dsimp only
  rw [hbare]
  match l, h, hsep with
  | [], _, _ => rfl
  | [t], h, hsep =>
    have hone : [sep].intercalate [t] = t := by simp
    rw [hone, if_neg (h.ne_nil t List.mem_cons_self), if_pos (hsep t List.mem_cons_self)]
  | t :: u :: l, h, hsep =>
    have hmem : sep ∈ [sep].intercalate (t :: u :: l) := by
      rw [List.intercalate_cons_cons]
      exact List.mem_append_left _ (List.mem_append_right _ List.mem_cons_self)
    rw [if_neg (List.ne_nil_of_mem hmem), if_neg (not_not_intro hmem), List.splitOn_intercalate sep hsep (List.cons_ne_nil t _),
      unique_eq, named_of_clean toLower h]

theorem join_named (parts : List (List UInt8)) : join toLower (named toLower parts) = join toLower parts := by
  unfold join
  rw [unique_eq, unique_eq, named_of_clean toLower (clean_named toLower parts)]

theorem split_join_of_sep_notMem {l : List (List UInt8)} (hsep : ∀ p ∈ l, sep ∉ p) :
    split toLower (join toLower l) = named toLower l := by
  rw [← join_named]
  exact split_join_of_clean toLower (clean_named toLower l) (notMem_named toLower hsep)

theorem split_clean (s : List UInt8) : Clean toLower (split toLower s) ∧ ∀ t ∈ split toLower s, sep ∉ t := by
  unfold split
  dsimp only
  by_cases hempty : trimBytes s = []
  · rw [if_pos hempty]
    exact ⟨⟨by simp, by simp, List.Pairwise.nil⟩, by simp⟩
  · rw [if_neg hempty]
    by_cases hsep : sep ∈ trimBytes s
    · rw [if_neg (not_not_intro hsep), unique_eq]
      exact ⟨clean_named toLower _, notMem_named toLower fun p hp => GoBytes.splitOn_notMem sep _ p hp⟩
    · rw [if_pos hsep]
      refine ⟨⟨?_, ?_, List.pairwise_singleton _ _⟩, ?_⟩ <;> intro t ht <;> rw [List.mem_singleton.1 ht]
      · exact bare_trimBytes s
      · exact hempty
      · exact hsep

/-- **The field of the cities**: without the separator in them, what is read of the field are the cities, trimmed, without the
empty ones and without those a former one differs from in case only; and what was read of any field is read of its own again. -/
theorem cities_codec :
    (∀ l : List (List UInt8), (∀ p ∈ l, sep ∉ p) → split toLower (join toLower l) = named toLower l) ∧
      ∀ s : List UInt8, split toLower (join toLower (split toLower s)) = split toLower s := by
  constructor
  · exact fun l => split_join_of_sep_notMem toLower
  · intro s
    obtain ⟨hclean, hsep⟩ := split_clean toLower s
    exact split_join_of_clean toLower hclean hsep

/-- The lower case of ASCII. -/
def asciiLower (s : List UInt8) : List UInt8 := s.map fun b => if 0x41 ≤ b ∧ b ≤ 0x5A then b + 0x20 else b

theorem penza_and_moskva : split asciiLower (join asciiLower [lit " Penza ", lit "", lit "PENZA", lit "Moskva"]) =
    [lit "Penza", lit "Moskva"] :=
  ((cities_codec asciiLower).1 _ (by decide)).trans (by decide +kernel)

/-- The search filters by the cities the gateway was asked for. -/
theorem effective_split_join {l : List (List UInt8)} (hsep : ∀ p ∈ l, sep ∉ p) :
    normalizeCityList toLower (split toLower (join toLower l)) = normalizeCityList toLower l := by
  rw [split_join_of_sep_notMem toLower hsep, normalizeCityList, normalizeCityList, unique_eq, unique_eq,
    named_of_clean toLower (clean_named toLower l)]

end Cities
end Agregator
