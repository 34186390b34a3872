import Mathlib.Data.List.TakeWhile
import Mathlib.Data.Nat.Notation
/-!
# UrlOrigin — where a URL leads

The URL parser of browsers, as far as the origin: a text is resolved against the origin of a page.  Spaces and controls around
it and the tabs and newlines in it are dropped, and a backslash is a slash.  The parser of hosts, and that of the texts with a
scheme of their own, are given.
-/
namespace UrlOrigin

/-- The schemes of pages. -/
inductive Scheme where
  | http
  | https
deriving DecidableEq, Repr

def Scheme.defaultPort : Scheme → ℕ
  | http => 80
  | https => 443

/-- An origin; the port is left out where it is the default one. -/
structure Origin (H : Type) where
  scheme : Scheme
  host : H
  port : Option ℕ
deriving DecidableEq, Repr

/-- The parsers of a host, and of a text with a scheme. -/
structure Parser (H : Type) where
  host : List Char → Option H
  absolute : List Char → Option (Origin H)

/-! ## The text -/

def isC0OrSpace (c : Char) : Bool := decide (c.toNat ≤ 0x20)

def isTabOrNewline (c : Char) : Bool := c == '\t' || c == '\n' || c == '\r'

def isSlash (c : Char) : Bool := c == '/' || c == '\\'

/-- The end of an authority. -/
def isEnd (c : Char) : Bool := isSlash c || c == '?' || c == '#'

def stripEnd (l : List Char) : List Char := (l.reverse.dropWhile isC0OrSpace).reverse

def clean (l : List Char) : List Char := (stripEnd (l.dropWhile isC0OrSpace)).filter fun c => !isTabOrNewline c

def isSchemeChar (c : Char) : Bool := c.isAlphanum || c == '+' || c == '-' || c == '.'

def hasScheme : List Char → Bool
  | [] => false
  | c :: rest => c.isAlpha && (rest.dropWhile isSchemeChar).head? == some ':'

/-! ## The states of the parser -/

/-- The port state: a number up to 65535, or nothing. -/
def parsePort (scheme : Scheme) (digits : List Char) : Option (Option ℕ) :=
  if digits = [] then some none
  else if digits.all Char.isDigit then
    let n := Nat.ofDigitChars 10 digits 0
    if 65535 < n then none else if n = scheme.defaultPort then some none else some (some n)
  else none

/-- The host state: up to the first colon outside brackets. -/
def cutHost : Bool → List Char → List Char × Option (List Char)
  | _, [] => ([], none)
  | inside, c :: rest =>
    if c = ':' ∧ inside = false then ([], some rest)
    else
      let (host, port) := cutHost (if c = '[' then true else if c = ']' then false else inside) rest
      (c :: host, port)

/-- What stands after the last `@`. -/
def afterCredentials (l : List Char) : List Char := (l.reverse.takeWhile (· ≠ '@')).reverse

/-- The authority state and those after it, on the text up to the end of the authority. -/
def Parser.authority {H : Type} (P : Parser H) (scheme : Scheme) (l : List Char) : Option (H × Option ℕ) :=
  let (host, port) := cutHost false (afterCredentials l)
  if host = [] then none
  else
    match P.host host with
    | none => none
    | some h =>
      match port with
      | none => some (h, none)
      | some digits => (parsePort scheme digits).map fun p => (h, p)

/-- The text of the authority after some slashes. -/
def authorityText (l : List Char) : List Char := (l.dropWhile isSlash).takeWhile fun c => !isEnd c

variable {H : Type} (P : Parser H) (base : Origin H)

/-- The relative slash state, and the special authority ignore slashes state. -/
def Parser.relativeSlash : List Char → Option (Origin H)
  | [] => some base
  | c :: rest =>
    if isSlash c then (P.authority base.scheme (authorityText rest)).map fun a => ⟨base.scheme, a.1, a.2⟩ else some base

/-- The origin a text leads to from a page, if it is a URL. -/
def Parser.resolve (s : String) : Option (Origin H) :=
  let l := clean s.toList
  if hasScheme l then P.absolute l
  else
    match l with
    | [] => some base
    | c :: rest => if isSlash c then P.relativeSlash base rest else some base

/-! ## Texts that begin with a slash -/

theorem clean_slash (l : List Char) : clean ('/' :: l) = '/' :: (stripEnd l).filter fun c => !isTabOrNewline c := by
  have hstrip : stripEnd ('/' :: l) = '/' :: stripEnd l := by
    unfold stripEnd
    rw [List.reverse_cons, List.dropWhile_append]
    by_cases h : (l.reverse.dropWhile isC0OrSpace).isEmpty = true
    · rw [if_pos h, List.isEmpty_iff.1 h]
      rfl
    · rw [if_neg h, List.reverse_append]
      rfl
  unfold clean
  rw [List.dropWhile_cons_of_neg (by decide), hstrip, List.filter_cons_of_pos (by decide)]

/-- The first character that is no tab or newline. -/
def firstVisible (l : List Char) : Option Char := l.find? fun c => !isTabOrNewline c

/-- Dropping what trails takes away no slash. -/
theorem firstVisible_stripEnd (l : List Char) :
    ((stripEnd l).filter fun c => !isTabOrNewline c).head?.any isSlash = (firstVisible l).any isSlash := by
  have hl : l = stripEnd l ++ (l.reverse.takeWhile isC0OrSpace).reverse := by
    rw [stripEnd, ← List.reverse_append, List.takeWhile_append_dropWhile, List.reverse_reverse]
  have htrail : ∀ c ∈ (l.reverse.takeWhile isC0OrSpace).reverse, isSlash c = false := by
    intro c hc
    have hc := List.mem_takeWhile_imp (List.mem_reverse.1 hc)
    by_contra hs
    simp only [isSlash, Bool.not_eq_false, Bool.or_eq_true, beq_iff_eq] at hs
    rcases hs with rfl | rfl <;> exact absurd hc (by decide)
  rw [List.head?_filter]
  have hfind : firstVisible l = (firstVisible (stripEnd l)).or (firstVisible (l.reverse.takeWhile isC0OrSpace).reverse) := by
    rw [firstVisible, firstVisible, firstVisible, ← List.find?_append, ← hl]
  rw [hfind]
  unfold firstVisible
  cases hf : (stripEnd l).find? fun c => !isTabOrNewline c with
  | some c => rfl
  | none =>
    rw [Option.none_or]
    cases hw : ((l.reverse.takeWhile isC0OrSpace).reverse).find? fun c => !isTabOrNewline c with
    | none => rfl
    | some c =>
      rw [Option.any_some, htrail c (List.mem_of_find?_eq_some hw)]
      rfl

/-- **A text that begins with a slash leads away only past a second one**, tabs and newlines between them or not. -/
theorem Parser.resolve_slash [DecidableEq H] {s : String} {l : List Char} (hs : s.toList = '/' :: l) :
    P.resolve base s = some base ↔ (firstVisible l).any isSlash = false ∨
      P.authority base.scheme (authorityText (clean s.toList)) = some (base.host, base.port) := by
  have hclean : clean s.toList = '/' :: (stripEnd l).filter fun c => !isTabOrNewline c := by rw [hs, clean_slash]
  have hfirst := firstVisible_stripEnd l
  have hscheme : hasScheme (clean s.toList) = false := by
    rw [hclean]
    rfl
  unfold Parser.resolve
  simp only [hscheme, Bool.false_eq_true, if_false]
  rw [hclean, ← hfirst]
  generalize (stripEnd l).filter (fun c => !isTabOrNewline c) = rest
  show P.relativeSlash base rest = _ ↔ _
  cases rest with
  | nil => simp [Parser.relativeSlash]
  | cons c rest =>
    by_cases hc : isSlash c = true
    · have htext : authorityText ('/' :: c :: rest) = authorityText rest := by
        unfold authorityText
        rw [List.dropWhile_cons_of_pos (by decide), List.dropWhile_cons_of_pos hc]
      simp only [Parser.relativeSlash, hc, if_true, htext, List.head?_cons, Option.any_some, Bool.true_eq_false, false_or]
      obtain ⟨scheme, host, port⟩ := base
      cases P.authority scheme (authorityText rest) with
      | none => simp
      | some a => simp [Prod.ext_iff]
    · simp [Parser.relativeSlash, hc]

end UrlOrigin
