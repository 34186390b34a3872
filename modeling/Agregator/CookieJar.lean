import Mathlib.Data.Int.Notation
import Mathlib.Data.Nat.Notation
import Mathlib.Data.List.Basic
import Mathlib.Algebra.Order.Group.Int
/-!
# CookieJar — the cookies a browser keeps

The texts of values as `net/http` writes and reads them, and a jar that keeps a cookie until its age is up.  A value loses the
characters that have no place in a cookie (`read_receive`); a cookie that is too long is not kept.
-/
namespace CookieJar

/-! ## Values -/

/-- `validCookieValueByte`. -/
def isValueChar (c : Char) : Bool := decide (0x20 ≤ c.toNat) && decide (c.toNat < 0x7f) && c != '"' && c != ';' && c != '\\'

/-- What a cookie keeps of a value. -/
def kept (v : String) : String := String.ofList (v.toList.filter isValueChar)

/-- `sanitizeCookieValue`. -/
def sanitizeCookieValue (v : String) : String :=
  let v := kept v
  if v.toList.any fun c => c == ' ' || c == ',' then "\"" ++ v ++ "\"" else v

/-- `parseCookieValue`. -/
def parseCookieValue (raw : String) : Option String :=
  let l := raw.toList
  let l := if 1 < l.length ∧ l.head? = some '"' ∧ l.getLast? = some '"' then l.tail.dropLast else l
  if l.all isValueChar then some (String.ofList l) else none

theorem kept_chars (v : String) : ∀ c ∈ (kept v).toList, isValueChar c = true := by
  intro c hc
  rw [kept, String.toList_ofList] at hc
  exact (List.mem_filter.1 hc).2

theorem kept_of_chars {v : String} (h : ∀ c ∈ v.toList, isValueChar c = true) : kept v = v := by
  rw [kept, List.filter_eq_self.2 h, String.ofList_toList]

/-- **What is written is read**, less what a cookie does not keep. -/
theorem parseCookieValue_sanitize (v : String) : parseCookieValue (sanitizeCookieValue v) = some (kept v) := by
  have hall : (kept v).toList.all isValueChar = true := List.all_eq_true.2 (kept_chars v)
  unfold sanitizeCookieValue
  by_cases hq : ((kept v).toList.any fun c => c == ' ' || c == ',') = true
  · rw [if_pos hq]
    have hlist : ("\"" ++ kept v ++ "\"").toList = '"' :: ((kept v).toList ++ ['"']) := by simp
    have hlast : ('"' :: ((kept v).toList ++ ['"'])).getLast? = some '"' := by
      rw [← List.cons_append, List.getLast?_append]
      rfl
    have hquoted : 1 < ('"' :: ((kept v).toList ++ ['"'])).length ∧ ('"' :: ((kept v).toList ++ ['"'])).head? = some '"' ∧
        ('"' :: ((kept v).toList ++ ['"'])).getLast? = some '"' := ⟨by simp, rfl, hlast⟩
    unfold parseCookieValue
    simp only [hlist]
    rw [if_pos hquoted, List.tail_cons, List.dropLast_concat]
    simp [hall]
  · rw [if_neg hq]
    have hhead : (kept v).toList.head? ≠ some '"' := by
      intro hc
      exact absurd (kept_chars v '"' (List.mem_of_mem_head? hc)) (by decide)
    unfold parseCookieValue
    simp [hall, hhead]

/-! ## The jar -/

/-- A `Set-Cookie` header: a negative age takes the cookie away. -/
structure SetCookie (ν : Type) where
  name : ν
  value : String
  maxAge : ℤ
deriving DecidableEq, Repr

structure Stored where
  raw : String
  expires : ℤ
deriving DecidableEq, Repr

/-- The cookies by their names. -/
abbrev Jar (ν : Type) := ν → Option Stored

/-- The longest name and value a browser keeps. -/
def cookieLimit : ℕ := 4096

/-- `r.Cookie(name)` of a request at a time. -/
def read {ν : Type} (now : ℤ) (jar : Jar ν) (name : ν) : Option String :=
  (jar name).bind fun c => if now < c.expires then parseCookieValue c.raw else none

section Jar

variable {ν : Type} [DecidableEq ν] (text : ν → String)

def fits (name : ν) (value : String) : Bool := decide ((text name).length + (sanitizeCookieValue value).length ≤ cookieLimit)

/-- A cookie comes in at a time. -/
def receive (now : ℤ) (jar : Jar ν) (c : SetCookie ν) : Jar ν :=
  if c.maxAge < 0 then Function.update jar c.name none
  else if fits text c.name c.value then Function.update jar c.name (some ⟨sanitizeCookieValue c.value, now + c.maxAge⟩)
  else jar

variable {text} {now t : ℤ} {jar : Jar ν} {c : SetCookie ν} {name : ν}

theorem receive_other (h : c.name ≠ name) : receive text now jar c name = jar name := by
  unfold receive
  split_ifs
  · exact Function.update_of_ne (Ne.symm h) _ _
  · exact Function.update_of_ne (Ne.symm h) _ _
  · rfl

theorem receive_cleared (h : c.maxAge < 0) : receive text now jar c c.name = none := by
  rw [receive, if_pos h, Function.update_self]

theorem receive_kept (hage : 0 ≤ c.maxAge) (hfits : fits text c.name c.value = true) :
    receive text now jar c c.name = some ⟨sanitizeCookieValue c.value, now + c.maxAge⟩ := by
  rw [receive, if_neg (not_lt.2 hage), if_pos hfits, Function.update_self]

theorem receive_unfit (hage : 0 ≤ c.maxAge) (hfits : fits text c.name c.value = false) : receive text now jar c = jar := by
  rw [receive, if_neg (not_lt.2 hage), if_neg (by simp [hfits])]

end Jar

section Reading

variable {ν : Type} {now t : ℤ} {jar : Jar ν} {name : ν}

/-- A cookie that is kept is read until its age is up. -/
theorem read_stored {v : String} {expires : ℤ} (h : jar name = some ⟨sanitizeCookieValue v, expires⟩) :
    read now jar name = if now < expires then some (kept v) else none := by
  rw [read, h, Option.bind_some, parseCookieValue_sanitize]

/-- What is not there any more does not come back. -/
theorem read_none_later (h : read t jar name = none) (hle : t ≤ now) : read now jar name = none := by
  unfold read at h ⊢
  cases hj : jar name with
  | none => rfl
  | some c =>
    rw [hj, Option.bind_some] at h
    rw [Option.bind_some]
    by_cases hn : now < c.expires
    · rw [if_pos (lt_of_le_of_lt hle hn)] at h
      rw [if_pos hn, h]
    · rw [if_neg hn]

end Reading

end CookieJar
