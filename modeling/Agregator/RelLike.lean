import Mathlib.Data.List.Infix
/-!
# RelLike — `LIKE` with an escape character

A pattern is read from the left: a percent sign stands for any text, an underscore for any character, and what comes after the
escape character for itself.  A pattern that ends with the escape character is an error.  A text in which every character that
means something is escaped is a pattern of that text alone (`likeParts_escaped`), and between percent signs of the texts that
contain it (`like_infix`).
-/
namespace Rel

/-- A part of a pattern. -/
inductive LikePart where
  | any
  | one
  | char (c : Char)
deriving DecidableEq, Repr

/-- What a character means that is not escaped. -/
def likePart (c : Char) : LikePart := if c = '%' then .any else if c = '_' then .one else .char c

/-- The parts of a pattern. -/
def likeParts (esc : Char) : List Char → Option (List LikePart)
  | [] => some []
  | [c] => if c = esc then none else some [likePart c]
  | c :: d :: cs => if c = esc then (likeParts esc cs).map (.char d :: ·) else (likeParts esc (d :: cs)).map (likePart c :: ·)

/-- Whether a text is one of the pattern. -/
def likeMatch : List LikePart → List Char → Bool
  | [], cs => cs.isEmpty
  | .any :: ps, cs => cs.tails.any (likeMatch ps)
  | .one :: _, [] => false
  | .one :: ps, _ :: cs => likeMatch ps cs
  | .char _ :: _, [] => false
  | .char d :: ps, c :: cs => c == d && likeMatch ps cs

/-- `subject LIKE pattern ESCAPE esc`. -/
def like (esc : Char) (subject pattern : String) : Except String Bool :=
  match likeParts esc pattern.toList with
  | none => .error "ERROR: LIKE pattern must not end with escape character (SQLSTATE 22025)"
  | some ps => .ok (likeMatch ps subject.toList)

variable {esc : Char} {ps : List LikePart} {cs text : List Char}

theorem likeMatch_any : likeMatch (.any :: ps) cs = true ↔ ∃ l r, cs = l ++ r ∧ likeMatch ps r = true := by
  have hany : likeMatch (.any :: ps) cs = cs.tails.any (likeMatch ps) := rfl
  rw [hany, List.any_eq_true]
  constructor
  · rintro ⟨r, hr, hmatch⟩
    obtain ⟨l, rfl⟩ := (List.mem_tails _ _).1 hr
    exact ⟨l, r, rfl, hmatch⟩
  · rintro ⟨l, r, rfl, hmatch⟩
    exact ⟨r, (List.mem_tails _ _).2 (List.suffix_append l r), hmatch⟩

theorem likeMatch_text : ∀ {text cs : List Char},
    likeMatch (text.map .char ++ ps) cs = true ↔ ∃ r, cs = text ++ r ∧ likeMatch ps r = true
  | [], cs => by simp
  | d :: text, [] => by simp [likeMatch]
  | d :: text, c :: cs => by
    rw [List.map_cons, List.cons_append, likeMatch, Bool.and_eq_true, beq_iff_eq, likeMatch_text]
    constructor
    · rintro ⟨rfl, r, rfl, hmatch⟩
      exact ⟨r, rfl, hmatch⟩
    · rintro ⟨r, heq, hmatch⟩
      obtain ⟨rfl, rfl⟩ := List.cons_eq_cons.1 heq
      exact ⟨rfl, r, rfl, hmatch⟩

/-- **A text between percent signs** is contained in what matches. -/
theorem likeMatch_infix : likeMatch (.any :: (text.map .char ++ [.any])) cs = true ↔ text <:+: cs := by
  rw [likeMatch_any]
  constructor
  · rintro ⟨l, r, rfl, hmatch⟩
    obtain ⟨r, rfl, -⟩ := likeMatch_text.1 hmatch
    exact ⟨l, r, by simp⟩
  · rintro ⟨l, r, rfl⟩
    refine ⟨l, text ++ r, by simp, likeMatch_text.2 ⟨r, rfl, ?_⟩⟩
    exact likeMatch_any.2 ⟨r, [], by simp, rfl⟩

/-! ## Escaped text -/

/-- A character as it is written to stand for itself. -/
def likeEscape (esc : Char) (c : Char) : List Char := if c = esc ∨ c = '%' ∨ c = '_' then [esc, c] else [c]

theorem likeParts_esc (d : Char) (cs : List Char) : likeParts esc (esc :: d :: cs) = (likeParts esc cs).map (.char d :: ·) := by
  rw [likeParts, if_pos rfl]

theorem likeParts_cons {c : Char} (hc : c ≠ esc) (cs : List Char) :
    likeParts esc (c :: cs) = (likeParts esc cs).map (likePart c :: ·) := by
  cases cs with
  | nil => simp [likeParts, hc]
  | cons d cs => rw [likeParts, if_neg hc]

theorem likeParts_escape (c : Char) (rest : List Char) :
    likeParts esc (likeEscape esc c ++ rest) = (likeParts esc rest).map (.char c :: ·) := by
  unfold likeEscape
  by_cases hc : c = esc ∨ c = '%' ∨ c = '_'
  · rw [if_pos hc]
    exact likeParts_esc c rest
  · rw [if_neg hc]
    simp only [not_or] at hc
    have hpart : likePart c = .char c := by simp [likePart, hc]
    rw [← hpart]
    exact likeParts_cons hc.1 rest

/-- **Escaped text stands for itself.** -/
theorem likeParts_escaped (rest : List Char) : ∀ text : List Char,
    likeParts esc (text.flatMap (likeEscape esc) ++ rest) = (likeParts esc rest).map (text.map .char ++ ·)
  | [] => by simp
  | c :: text => by
    rw [List.flatMap_cons, List.append_assoc, likeParts_escape, likeParts_escaped rest text, Option.map_map]
    rfl

theorem likeParts_infix (hesc : esc ≠ '%') (text : List Char) :
    likeParts esc ('%' :: (text.flatMap (likeEscape esc) ++ ['%'])) = some (.any :: (text.map .char ++ [.any])) := by
  have hend : likeParts esc ['%'] = some [.any] := likeParts_cons hesc.symm []
  rw [likeParts_cons hesc.symm, likeParts_escaped, hend]
  rfl

/-- **An escaped text between percent signs** is a pattern of the texts that contain it. -/
theorem like_infix (hesc : esc ≠ '%') (subject : String) {pattern : String} {text : List Char}
    (hpattern : pattern.toList = '%' :: (text.flatMap (likeEscape esc) ++ ['%'])) :
    like esc subject pattern = .ok (decide (text <:+: subject.toList)) := by
  unfold like
  rw [hpattern, likeParts_infix hesc]
  refine congrArg Except.ok ?_
  rw [Bool.eq_iff_iff, decide_eq_true_iff]
  exact likeMatch_infix

end Rel
