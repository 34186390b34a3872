import Mathlib.Data.List.Basic
import Mathlib.Data.Nat.Notation
import Mathlib.Data.Int.Notation
import Mathlib.Tactic.IntervalCases
import Mathlib.Tactic.SplitIfs
/-!
# GoJson — JSON texts as `encoding/json` writes and reads them

Strings with their escapes, numbers as texts, values to a depth, and bytes that need not be UTF-8.  An object of strings and
whole numbers is read as it was written (`parse_objectText`).
-/
namespace GoJson

/-! ## Bytes -/

/-- The text of bytes, the first of which are left out: a byte that begins no character stands for U+FFFD. -/
def decodeFrom : ℕ → List UInt8 → List Char
  | _, [] => []
  | k + 1, _ :: rest => decodeFrom k rest
  | 0, b :: rest =>
    match (b :: rest).toByteArray.utf8DecodeChar? 0 with
    | some c => c :: decodeFrom (c.utf8Size - 1) rest
    | none => '\uFFFD' :: decodeFrom 0 rest

def decodeText (bytes : List UInt8) : List Char := decodeFrom 0 bytes

def encodeText (l : List Char) : List UInt8 := l.flatMap String.utf8EncodeChar

theorem decodeFrom_length : ∀ bytes rest : List UInt8, decodeFrom bytes.length (bytes ++ rest) = decodeFrom 0 rest
  | [], _ => rfl
  | b :: bytes, rest => by
    rw [List.length_cons, List.cons_append, decodeFrom, decodeFrom_length bytes rest]

theorem decodeFrom_char (c : Char) (rest : List UInt8) :
    decodeFrom 0 (String.utf8EncodeChar c ++ rest) = c :: decodeFrom 0 rest := by
  cases hc : String.utf8EncodeChar c with
  | nil => exact absurd hc String.utf8EncodeChar_ne_nil
  | cons b bytes =>
    have hsize : c.utf8Size - 1 = bytes.length := by
      rw [← String.length_utf8EncodeChar, hc, List.length_cons, Nat.add_sub_cancel]
    have hread : (b :: (bytes ++ rest)).toByteArray.utf8DecodeChar? 0 = some c := by
      rw [← List.cons_append, ← hc, List.toByteArray_append]
      exact ByteArray.utf8DecodeChar?_utf8EncodeChar_append
    rw [List.cons_append, decodeFrom, hread]
    simp only [hsize, decodeFrom_length]

theorem decodeText_encodeText : ∀ l : List Char, decodeText (encodeText l) = l
  | [] => rfl
  | c :: l => by
    have ih := decodeText_encodeText l
    unfold decodeText encodeText at ih ⊢
    rw [List.flatMap_cons, decodeFrom_char, ih]

/-! ## Strings -/

/-- The letter of the short escape of a character. -/
def letter (c : Char) : Option Char :=
  if c = '"' then some '"'
  else if c = '\\' then some '\\'
  else if c.toNat = 8 then some 'b'
  else if c.toNat = 12 then some 'f'
  else if c = '\n' then some 'n'
  else if c = '\r' then some 'r'
  else if c = '\t' then some 't'
  else none

/-- The character a letter after a backslash stands for. -/
def ofLetter (e : Char) : Option Char :=
  if e = '"' ∨ e = '\\' ∨ e = '/' then some e
  else if e = 'b' then some (Char.ofNat 8)
  else if e = 'f' then some (Char.ofNat 12)
  else if e = 'n' then some '\n'
  else if e = 'r' then some '\r'
  else if e = 't' then some '\t'
  else none

/-- A character that is written by its number, control characters and what a page could take for markup. -/
def isNumbered (c : Char) : Bool :=
  decide (c.toNat < 0x20) || c == '<' || c == '>' || c == '&' || c.toNat == 0x2028 || c.toNat == 0x2029

/-- `\uXXXX`. -/
def unitText (n : ℕ) : List Char :=
  ['\\', 'u', Nat.digitChar (n / 4096 % 16), Nat.digitChar (n / 256 % 16), Nat.digitChar (n / 16 % 16), Nat.digitChar (n % 16)]

def escapeChar (c : Char) : List Char :=
  match letter c with
  | some e => ['\\', e]
  | none => if isNumbered c then unitText c.toNat else [c]

def quote (s : String) : List Char := '"' :: (s.toList.flatMap escapeChar ++ ['"'])

/-- What stands in a string: a character, or a UTF-16 unit by its number. -/
inductive Part
  | char (c : Char)
  | unit (n : ℕ)
deriving DecidableEq, Repr

def hexValue (c : Char) : Option ℕ :=
  if '0' ≤ c ∧ c ≤ '9' then some (c.toNat - 48)
  else if 'a' ≤ c ∧ c ≤ 'f' then some (c.toNat - 87)
  else if 'A' ≤ c ∧ c ≤ 'F' then some (c.toNat - 55)
  else none

/-- `getu4`. -/
def unitValue (a b c d : Char) : Option ℕ :=
  (hexValue a).bind fun a => (hexValue b).bind fun b => (hexValue c).bind fun c =>
    (hexValue d).map fun d => a * 4096 + b * 256 + c * 16 + d

/-- A string after its opening quote. -/
def lexString : List Char → Option (List Part × List Char)
  | [] => none
  | c :: rest =>
    if c = '"' then some ([], rest)
    else if c = '\\' then
      match rest with
      | [] => none
      | e :: rest =>
        if e = 'u' then
          match rest with
          | x :: y :: z :: w :: rest =>
            (unitValue x y z w).bind fun n => (lexString rest).map fun p => (.unit n :: p.1, p.2)
          | _ => none
        else (ofLetter e).bind fun c => (lexString rest).map fun p => (.char c :: p.1, p.2)
    else if c.toNat < 0x20 then none
    else (lexString rest).map fun p => (.char c :: p.1, p.2)

def isHigh (n : ℕ) : Bool := decide (0xD800 ≤ n) && decide (n < 0xDC00)

def isLow (n : ℕ) : Bool := decide (0xDC00 ≤ n) && decide (n < 0xE000)

/-- The characters of a string: two surrogates that belong together are one, any other stands for U+FFFD. -/
def decodeParts : List Part → List Char
  | [] => []
  | .char c :: ps => c :: decodeParts ps
  | .unit n :: ps =>
    if isHigh n || isLow n then
      match ps with
      | .unit m :: ps' =>
        if isHigh n && isLow m then Char.ofNat (0x10000 + (n - 0xD800) * 0x400 + (m - 0xDC00)) :: decodeParts ps'
        else '\uFFFD' :: decodeParts (.unit m :: ps')
      | ps => '\uFFFD' :: decodeParts ps
    else Char.ofNat n :: decodeParts ps

def readString (l : List Char) : Option (String × List Char) :=
  (lexString l).map fun p => (String.ofList (decodeParts p.1), p.2)

/-! ### What is quoted is read -/

theorem ofLetter_letter {c e : Char} (h : letter c = some e) : ofLetter e = some c ∧ e ≠ 'u' := by
  unfold letter at h
  split_ifs at h with h1 h2 h3 h4 h5 h6 h7
  · cases h; subst h1; decide
  · cases h; subst h2; decide
  · cases h
    have hc : c = Char.ofNat 8 := by rw [← h3, Char.ofNat_toNat]
    subst hc
    decide
  · cases h
    have hc : c = Char.ofNat 12 := by rw [← h4, Char.ofNat_toNat]
    subst hc
    decide
  · cases h; subst h5; decide
  · cases h; subst h6; decide
  · cases h; subst h7; decide

theorem hexValue_digitChar : ∀ i < 16, hexValue (Nat.digitChar i) = some i := by decide

theorem lexString_unitText {n : ℕ} (hn : n < 65536) (l : List Char) :
    lexString (unitText n ++ l) = (lexString l).map fun p => (.unit n :: p.1, p.2) := by
  have hvalue : unitValue (Nat.digitChar (n / 4096 % 16)) (Nat.digitChar (n / 256 % 16)) (Nat.digitChar (n / 16 % 16))
      (Nat.digitChar (n % 16)) = some n := by
    unfold unitValue
    rw [hexValue_digitChar _ (by omega), hexValue_digitChar _ (by omega), hexValue_digitChar _ (by omega),
      hexValue_digitChar _ (by omega)]
    simp only [Option.bind_some, Option.map_some, Option.some.injEq]
    omega
  simp only [unitText, List.cons_append, List.nil_append]
  rw [lexString, if_neg (by decide), if_pos rfl]
  simp only [if_true, hvalue, Option.bind_some]

/-- What is read of an escaped character. -/
def part (c : Char) : Part := if letter c = none ∧ isNumbered c = true then .unit c.toNat else .char c

theorem lt_of_isNumbered {c : Char} (h : isNumbered c = true) : c.toNat < 0xD800 := by
  simp only [isNumbered, Bool.or_eq_true, decide_eq_true_eq, beq_iff_eq] at h
  rcases h with ((((h | h) | h) | h) | h) | h
  · omega
  · subst h; decide
  · subst h; decide
  · subst h; decide
  · omega
  · omega

theorem lexString_escape (c : Char) (l : List Char) :
    lexString (escapeChar c ++ l) = (lexString l).map fun p => (part c :: p.1, p.2) := by
  unfold escapeChar
  cases hletter : letter c with
  | some e =>
    obtain ⟨hof, hu⟩ := ofLetter_letter hletter
    have hpart : part c = .char c := by simp [part, hletter]
    simp only [List.cons_append, List.nil_append]
    rw [lexString.eq_def, hpart]
    simp only [if_neg (show ¬ '\\' = '"' by decide), if_true, if_neg hu, hof, Option.bind_some]
  | none =>
    by_cases hnum : isNumbered c = true
    · have hpart : part c = .unit c.toNat := by simp [part, hletter, hnum]
      have hlt := lt_of_isNumbered hnum
      simp only [if_pos hnum]
      rw [lexString_unitText (by omega), hpart]
    · have hpart : part c = .char c := by simp [part, hnum]
      have hquote : c ≠ '"' := by
        rintro rfl
        simp [letter] at hletter
      have hslash : c ≠ '\\' := by
        rintro rfl
        simp [letter] at hletter
      have hlow : ¬ c.toNat < 0x20 := by
        intro hc
        simp [isNumbered, hc] at hnum
      simp only [if_neg hnum, List.cons_append, List.nil_append]
      rw [lexString.eq_def, hpart]
      simp only [if_neg hquote, if_neg hslash, if_neg hlow]

theorem lexString_quoted : ∀ s l : List Char, lexString (s.flatMap escapeChar ++ '"' :: l) = some (s.map part, l)
  | [], l => by
    rw [List.flatMap_nil, List.nil_append, lexString.eq_def, List.map_nil]
    simp only [if_true]
  | c :: s, l => by
    rw [List.flatMap_cons, List.append_assoc, lexString_escape, lexString_quoted s l, Option.map_some, List.map_cons]

theorem decodeParts_part (c : Char) (ps : List Part) : decodeParts (part c :: ps) = c :: decodeParts ps := by
  unfold part
  by_cases h : letter c = none ∧ isNumbered c = true
  · have hlt := lt_of_isNumbered h.2
    have hhigh : isHigh c.toNat = false := by
      simp only [isHigh, Bool.and_eq_false_iff, decide_eq_false_iff_not]
      omega
    have hlow : isLow c.toNat = false := by
      simp only [isLow, Bool.and_eq_false_iff, decide_eq_false_iff_not]
      omega
    rw [if_pos h, decodeParts.eq_def]
    simp only [hhigh, hlow, Bool.or_false, Bool.false_eq_true, if_false, Char.ofNat_toNat]
  · rw [if_neg h, decodeParts]

theorem decodeParts_map : ∀ s : List Char, decodeParts (s.map part) = s
  | [] => by rw [List.map_nil, decodeParts]
  | c :: s => by rw [List.map_cons, decodeParts_part, decodeParts_map s]

theorem readString_quoted (s : String) (l : List Char) :
    readString (s.toList.flatMap escapeChar ++ '"' :: l) = some (s, l) := by
  rw [readString, lexString_quoted, Option.map_some, decodeParts_map, String.ofList_toList]

/-! ## Numbers -/

/-- The digits at the beginning, of which there must be one. -/
def digits (l : List Char) : Option (List Char × List Char) :=
  if l.takeWhile Char.isDigit = [] then none else some (l.takeWhile Char.isDigit, l.dropWhile Char.isDigit)

/-- No digit stands behind a zero at the beginning. -/
def wholePart (l : List Char) : Option (List Char × List Char) :=
  if l.head? = some '0' then some (['0'], l.tail) else digits l

def fraction (l : List Char) : Option (List Char × List Char) :=
  if l.head? = some '.' then (digits l.tail).map fun p => ('.' :: p.1, p.2) else some ([], l)

def exponent : List Char → Option (List Char × List Char)
  | [] => some ([], [])
  | e :: l =>
    if e = 'e' ∨ e = 'E' then
      let sign := if l.head? = some '+' ∨ l.head? = some '-' then l.take 1 else []
      (digits (l.drop sign.length)).map fun p => (e :: sign ++ p.1, p.2)
    else some ([], e :: l)

/-- The text of a number. -/
def readNumber (l : List Char) : Option (String × List Char) :=
  let sign := if l.head? = some '-' then ['-'] else []
  (wholePart (l.drop sign.length)).bind fun a => (fraction a.2).bind fun b => (exponent b.2).map fun c =>
    (String.ofList (sign ++ a.1 ++ b.1 ++ c.1), c.2)

/-- A character that ends a number. -/
def EndsNumber (c : Char) : Prop := c.isDigit = false ∧ c ≠ '.' ∧ c ≠ 'e' ∧ c ≠ 'E'

theorem endsNumber_comma : EndsNumber ',' := by
  unfold EndsNumber
  decide

theorem endsNumber_brace : EndsNumber '}' := by
  unfold EndsNumber
  decide

theorem toDigits_head (n : ℕ) (l : List Char) : (Nat.toDigits 10 n ++ l).head? = (Nat.toDigits 10 n).head? :=
  List.head?_append_of_ne_nil _ Nat.toDigits_ne_nil

theorem toDigits_head_ne_zero (n : ℕ) (hn : 0 < n) : (Nat.toDigits 10 n).head? ≠ some '0' := by
  induction n using Nat.strongRecOn with
  | ind n ih =>
    by_cases hlt : n < 10
    · rw [Nat.toDigits_of_lt_base hlt, List.head?_cons]
      interval_cases n <;> decide
    · rw [Nat.toDigits_of_base_le (by decide) (by omega), toDigits_head]
      exact ih (n / 10) (by omega) (by omega)

theorem isDigit_toDigits (n : ℕ) : ∀ c ∈ Nat.toDigits 10 n, c.isDigit = true :=
  fun _ hc => Nat.isDigit_of_mem_toDigits (by decide) (by decide) hc

theorem digits_toDigits (n : ℕ) {c : Char} (hc : c.isDigit = false) (l : List Char) :
    digits (Nat.toDigits 10 n ++ c :: l) = some (Nat.toDigits 10 n, c :: l) := by
  have htake : (Nat.toDigits 10 n ++ c :: l).takeWhile Char.isDigit = Nat.toDigits 10 n := by
    rw [List.takeWhile_append_of_pos (isDigit_toDigits n), List.takeWhile_cons_of_neg (by simp [hc]), List.append_nil]
  have hdrop : (Nat.toDigits 10 n ++ c :: l).dropWhile Char.isDigit = c :: l := by
    rw [List.dropWhile_append_of_pos (isDigit_toDigits n), List.dropWhile_cons_of_neg (by simp [hc])]
  rw [digits, htake, hdrop, if_neg Nat.toDigits_ne_nil]

theorem wholePart_toDigits (n : ℕ) {c : Char} (hc : c.isDigit = false) (l : List Char) :
    wholePart (Nat.toDigits 10 n ++ c :: l) = some (Nat.toDigits 10 n, c :: l) := by
  unfold wholePart
  by_cases hn : n = 0
  · subst hn
    rw [Nat.toDigits_zero]
    rfl
  · rw [if_neg, digits_toDigits n hc]
    rw [toDigits_head]
    exact toDigits_head_ne_zero n (Nat.pos_of_ne_zero hn)

theorem fraction_end {c : Char} (hc : EndsNumber c) (l : List Char) : fraction (c :: l) = some ([], c :: l) := by
  rw [fraction, List.head?_cons, if_neg]
  intro h
  exact hc.2.1 (Option.some.inj h)

theorem exponent_end {c : Char} (hc : EndsNumber c) (l : List Char) : exponent (c :: l) = some ([], c :: l) := by
  rw [exponent, if_neg]
  rintro (h | h)
  · exact hc.2.2.1 h
  · exact hc.2.2.2 h

theorem toString_negSucc (m : ℕ) : (toString (Int.negSucc m)).toList = '-' :: Nat.toDigits 10 (m + 1) := by
  have hrepr : toString (Int.negSucc m) = "-" ++ Nat.repr (m + 1) := rfl
  rw [hrepr, String.toList_append, Nat.toList_repr]
  rfl

theorem readNumber_int (n : ℤ) {c : Char} (hc : EndsNumber c) (l : List Char) :
    readNumber ((toString n).toList ++ c :: l) = some (toString n, c :: l) := by
  have hread : ∀ m : ℕ, wholePart (Nat.toDigits 10 m ++ c :: l) = some (Nat.toDigits 10 m, c :: l) :=
    fun m => wholePart_toDigits m hc.1 l
  cases n with
  | ofNat m =>
    have htext : (toString (Int.ofNat m)).toList = Nat.toDigits 10 m := Nat.toList_repr
    have hsign : ¬ (Nat.toDigits 10 m ++ c :: l).head? = some '-' := by
      rw [List.head?_append_of_ne_nil _ Nat.toDigits_ne_nil]
      intro h
      exact absurd (isDigit_toDigits m '-' (List.mem_of_mem_head? h)) (by decide)
    unfold readNumber
    rw [htext]
    simp only [if_neg hsign, List.length_nil, List.drop_zero, hread, Option.bind_some, fraction_end hc, exponent_end hc,
      Option.map_some, List.nil_append, List.append_nil]
    rw [← htext, String.ofList_toList]
  | negSucc m =>
    have htext := toString_negSucc m
    unfold readNumber
    rw [htext]
    simp only [List.cons_append, List.head?_cons, if_true, List.length_cons, List.length_nil, List.drop_succ_cons,
      List.drop_zero, hread, Option.bind_some, fraction_end hc, exponent_end hc, Option.map_some, List.nil_append, List.append_nil]
    rw [← htext, String.ofList_toList]

/-! ## Values -/

/-- A value; a number is kept as its text, an object with all its members in order. -/
inductive Json
  | null
  | bool (b : Bool)
  | num (text : String)
  | str (s : String)
  | arr (items : List Json)
  | obj (members : List (String × Json))

def isSpace (c : Char) : Bool := c == ' ' || c == '\t' || c == '\n' || c == '\r'

def skip (l : List Char) : List Char := l.dropWhile isSpace

def word (w : List Char) (j : Json) (l : List Char) : Option (Json × List Char) :=
  if w.isPrefixOf l then some (j, l.drop w.length) else none

/-- A value that is neither an array nor an object. -/
def readScalar : List Char → Option (Json × List Char)
  | [] => none
  | c :: l =>
    if c = '"' then (readString l).map fun p => (.str p.1, p.2)
    else if c = 't' then word ['r', 'u', 'e'] (.bool true) l
    else if c = 'f' then word ['a', 'l', 's', 'e'] (.bool false) l
    else if c = 'n' then word ['u', 'l', 'l'] .null l
    else (readNumber (c :: l)).map fun p => (.num p.1, p.2)

section Lists

variable {α : Type} (item : List Char → Option (α × List Char)) (close : Char)

/-- What stands between commas, up to the closing bracket.  Each round takes a character away. -/
def separated : ℕ → List Char → Option (List α × List Char)
  | 0, _ => none
  | n + 1, l =>
    (item (skip l)).bind fun p =>
      match skip p.2 with
      | [] => none
      | c :: rest =>
        if c = ',' then (separated n rest).map fun q => (p.1 :: q.1, q.2)
        else if c = close then some ([p.1], rest)
        else none

def bracketed (l : List Char) : Option (List α × List Char) :=
  if (skip l).head? = some close then some ([], (skip l).tail) else separated item close l.length l

end Lists

def readMember (value : List Char → Option (Json × List Char)) (l : List Char) : Option ((String × Json) × List Char) :=
  if l.head? = some '"' then
    (readString l.tail).bind fun k =>
      if (skip k.2).head? = some ':' then (value (skip (skip k.2).tail)).map fun v => ((k.1, v.1), v.2) else none
  else none

/-- A value whose arrays and objects go no deeper than a number of levels. -/
def readValue : ℕ → List Char → Option (Json × List Char)
  | 0, l => readScalar l
  | d + 1, l =>
    if l.head? = some '[' then (bracketed (readValue d) ']' l.tail).map fun p => (.arr p.1, p.2)
    else if l.head? = some '{' then (bracketed (readMember (readValue d)) '}' l.tail).map fun p => (.obj p.1, p.2)
    else readScalar l

def maxNestingDepth : ℕ := 10000

def parse (l : List Char) : Option Json :=
  (readValue maxNestingDepth (skip l)).bind fun p => if skip p.2 = [] then some p.1 else none

/-! ## Objects of strings and whole numbers -/

inductive Scalar
  | str (s : String)
  | int (n : ℤ)
deriving DecidableEq, Repr

def Scalar.text : Scalar → List Char
  | .str s => quote s
  | .int n => (toString n).toList

def Scalar.json : Scalar → Json
  | .str s => .str s
  | .int n => .num (toString n)

def memberText (f : String × Scalar) : List Char := quote f.1 ++ ':' :: f.2.text

def membersText : List (String × Scalar) → List Char
  | [] => []
  | [f] => memberText f
  | f :: g :: fs => memberText f ++ ',' :: membersText (g :: fs)

def objectText (fs : List (String × Scalar)) : List Char := '{' :: (membersText fs ++ ['}'])

theorem skip_cons {c : Char} (hc : isSpace c = false) (l : List Char) : skip (c :: l) = c :: l :=
  List.dropWhile_cons_of_neg (by simp [hc])

/-- A whole number begins with a sign or a digit. -/
theorem toString_head (n : ℤ) : ∃ c l, (toString n).toList = c :: l ∧ (c = '-' ∨ c.isDigit = true) := by
  cases n with
  | ofNat m =>
    have htext : (toString (Int.ofNat m)).toList = Nat.toDigits 10 m := Nat.toList_repr
    cases hl : Nat.toDigits 10 m with
    | nil => exact absurd hl Nat.toDigits_ne_nil
    | cons c l => exact ⟨c, l, by rw [htext, hl], Or.inr (isDigit_toDigits m c (by rw [hl]; exact List.mem_cons_self))⟩
  | negSucc m => exact ⟨'-', Nat.toDigits 10 (m + 1), toString_negSucc m, Or.inl rfl⟩

theorem ne_of_sign_or_digit {a c : Char} (ha : a = '-' ∨ a.isDigit = true) (hsign : c ≠ '-') (hdigit : c.isDigit = false) :
    a ≠ c := by
  rintro rfl
  rcases ha with ha | ha
  · exact hsign ha
  · exact absurd ha (by simp [hdigit])

theorem readScalar_text (v : Scalar) {c : Char} (hc : EndsNumber c) (l : List Char) :
    readScalar (v.text ++ c :: l) = some (v.json, c :: l) := by
  cases v with
  | str s =>
    simp only [Scalar.text, quote, Scalar.json, List.cons_append, List.append_assoc, List.nil_append]
    rw [readScalar, if_pos rfl, readString_quoted, Option.map_some]
  | int n =>
    have hread := readNumber_int n hc l
    obtain ⟨a, rest, htext, ha⟩ := toString_head n
    have hquote : a ≠ '"' := ne_of_sign_or_digit ha (by decide) (by decide)
    have htrue : a ≠ 't' := ne_of_sign_or_digit ha (by decide) (by decide)
    have hfalse : a ≠ 'f' := ne_of_sign_or_digit ha (by decide) (by decide)
    have hnull : a ≠ 'n' := ne_of_sign_or_digit ha (by decide) (by decide)
    simp only [Scalar.text, Scalar.json]
    rw [htext, List.cons_append] at hread ⊢
    rw [readScalar, if_neg hquote, if_neg htrue, if_neg hfalse, if_neg hnull, hread, Option.map_some]

/-- A scalar begins with none of the brackets, and not with white space. -/
theorem text_head (v : Scalar) : ∃ c l, v.text = c :: l ∧ c ≠ '[' ∧ c ≠ '{' ∧ isSpace c = false := by
  cases v with
  | str s => exact ⟨'"', s.toList.flatMap escapeChar ++ ['"'], rfl, by decide, by decide, by decide⟩
  | int n =>
    obtain ⟨a, rest, htext, ha⟩ := toString_head n
    have harr : a ≠ '[' := ne_of_sign_or_digit ha (by decide) (by decide)
    have hobj : a ≠ '{' := ne_of_sign_or_digit ha (by decide) (by decide)
    have hspace : isSpace a = false := by
      by_contra hs
      simp only [isSpace, Bool.not_eq_false, Bool.or_eq_true, beq_iff_eq] at hs
      rcases hs with ((h | h) | h) | h <;> exact ne_of_sign_or_digit ha (by decide) (by decide) h
    exact ⟨a, rest, htext, harr, hobj, hspace⟩

theorem readValue_text (d : ℕ) (v : Scalar) {c : Char} (hc : EndsNumber c) (l : List Char) :
    readValue d (v.text ++ c :: l) = some (v.json, c :: l) := by
  have hread := readScalar_text v hc l
  cases d with
  | zero => rw [readValue, hread]
  | succ d =>
    obtain ⟨a, rest, htext, harr, hobj, -⟩ := text_head v
    rw [htext, List.cons_append] at hread ⊢
    rw [readValue, List.head?_cons, if_neg (by simpa using harr), if_neg (by simpa using hobj), hread]

theorem readMember_text (d : ℕ) (f : String × Scalar) {c : Char} (hc : EndsNumber c) (l : List Char) :
    readMember (readValue d) (memberText f ++ c :: l) = some ((f.1, f.2.json), c :: l) := by
  have hskip : skip (f.2.text ++ c :: l) = f.2.text ++ c :: l := by
    obtain ⟨a, rest, htext, -, -, hspace⟩ := text_head f.2
    rw [htext, List.cons_append, skip_cons hspace]
  simp only [memberText, quote, List.cons_append, List.append_assoc, List.nil_append]
  rw [readMember, List.head?_cons, if_pos rfl, List.tail_cons, readString_quoted, Option.bind_some]
  simp only [skip_cons (c := ':') (by decide), List.head?_cons, if_true, List.tail_cons, hskip, readValue_text d f.2 hc l,
    Option.map_some]

theorem skip_memberText (f : String × Scalar) (l : List Char) : skip (memberText f ++ l) = memberText f ++ l :=
  skip_cons (by decide) _

theorem separated_membersText (d : ℕ) (l : List Char) : ∀ (fs : List (String × Scalar)) (n : ℕ), fs ≠ [] → fs.length ≤ n →
    separated (readMember (readValue d)) '}' n (membersText fs ++ '}' :: l) = some (fs.map fun f => (f.1, f.2.json), l)
  | [], _, hne, _ => absurd rfl hne
  | _ :: _, 0, _, hn => absurd hn (by simp)
  | [f], n + 1, _, _ => by
    have hread := readMember_text d f endsNumber_brace l
    rw [separated, membersText, skip_memberText, hread, Option.bind_some, skip_cons (by decide)]
    simp only [if_neg (show ¬ '}' = ',' by decide), if_true, List.map_cons, List.map_nil]
  | f :: g :: fs, n + 1, _, hn => by
    have hread := readMember_text d f endsNumber_comma (membersText (g :: fs) ++ '}' :: l)
    have ih := separated_membersText d l (g :: fs) n (by simp) (by simpa using hn)
    rw [separated, membersText, List.append_assoc, List.cons_append, skip_memberText, hread, Option.bind_some,
      skip_cons (by decide)]
    simp only [if_true, ih, Option.map_some, List.map_cons]

theorem length_membersText : ∀ fs : List (String × Scalar), fs.length ≤ (membersText fs).length
  | [] => Nat.le_refl 0
  | [f] => by simp [membersText, memberText, quote]
  | f :: g :: fs => by
    have ih := length_membersText (g :: fs)
    simp only [membersText, List.length_append, List.length_cons] at ih ⊢
    omega

theorem bracketed_membersText (d : ℕ) (fs : List (String × Scalar)) (l : List Char) :
    bracketed (readMember (readValue d)) '}' (membersText fs ++ '}' :: l) = some (fs.map fun f => (f.1, f.2.json), l) := by
  unfold bracketed
  cases fs with
  | nil =>
    rw [membersText, List.nil_append, skip_cons (by decide), List.head?_cons, if_pos rfl, List.tail_cons, List.map_nil]
  | cons f fs =>
    have hlen := length_membersText (f :: fs)
    have hquote : ∃ rest, membersText (f :: fs) = '"' :: rest := by
      cases fs with
      | nil => exact ⟨_, rfl⟩
      | cons g fs => exact ⟨_, rfl⟩
    obtain ⟨rest, hrest⟩ := hquote
    have hhead : (skip (membersText (f :: fs) ++ '}' :: l)).head? ≠ some '}' := by
      rw [hrest, List.cons_append, skip_cons (by decide), List.head?_cons]
      decide
    rw [if_neg hhead]
    exact separated_membersText d l (f :: fs) _ (by simp) (by rw [List.length_append]; omega)

/-- **An object of strings and whole numbers is read as it was written.** -/
theorem parse_objectText (fs : List (String × Scalar)) :
    parse (objectText fs) = some (.obj (fs.map fun f => (f.1, f.2.json))) := by
  have hread : readValue maxNestingDepth (objectText fs) = some (.obj (fs.map fun f => (f.1, f.2.json)), []) := by
    rw [maxNestingDepth, readValue, objectText, List.head?_cons, if_neg (by decide), if_pos rfl, List.tail_cons,
      bracketed_membersText, Option.map_some]
  have hskip : skip (objectText fs) = objectText fs := skip_cons (by decide) _
  rw [parse, hskip, hread, Option.bind_some, if_pos (show skip [] = [] from rfl)]

/-! ## Structures -/

/-- A field of a structure by its name, and what a value makes of it; a value of another type does not fit. -/
structure StructField (σ : Type) where
  name : String
  set : Json → σ → Option σ

def foldChar (c : Char) : Char :=
  if c = 'ſ' then 'S' else if c = '\u212a' then 'K' else c.toUpper

def foldName (name : String) : List Char := name.toList.map foldChar

/-- The field of a key: that of its very name before one that differs in the case of letters. -/
def findField {σ : Type} (fields : List (StructField σ)) (key : String) : Option (StructField σ) :=
  match fields.find? fun f => f.name == key with
  | some f => some f
  | none => fields.find? fun f => foldName f.name == foldName key

def setMember {σ : Type} (fields : List (StructField σ)) (x : σ) (m : String × Json) : Option σ :=
  match findField fields m.1 with
  | none => some x
  | some f => f.set m.2 x

def decodeStruct {σ : Type} (fields : List (StructField σ)) (zero : σ) : Json → Option σ
  | .null => some zero
  | .obj members => members.foldlM (setMember fields) zero
  | _ => none

/-- `json.Unmarshal` into a structure. -/
def unmarshal {σ : Type} (fields : List (StructField σ)) (zero : σ) (bytes : List UInt8) : Option σ :=
  (parse (decodeText bytes)).bind (decodeStruct fields zero)

/-- A string field: `null` leaves it as it is. -/
def stringValue (old : String) : Json → Option String
  | .null => some old
  | .str s => some s
  | _ => none

theorem unmarshal_objectText {σ : Type} (fields : List (StructField σ)) (zero : σ) (fs : List (String × Scalar)) :
    unmarshal fields zero (encodeText (objectText fs)) = (fs.map fun f => (f.1, f.2.json)).foldlM (setMember fields) zero := by
  rw [unmarshal, decodeText_encodeText, parse_objectText, Option.bind_some, decodeStruct]

end GoJson
