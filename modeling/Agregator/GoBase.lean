import Agregator.SvcErr
import Mathlib.Data.List.Forall2
import Mathlib.Data.Nat.Notation
import Mathlib.Algebra.GroupWithZero.Nat
import Mathlib.Algebra.Ring.Int.Defs
/-!
# GoBase — text, machine integers, clock times and dates as Go has them

What the services use of `strings`, `time`, `int64`, `uuid` and the broker.  A location is given by what it is asked for: the instant of a
local date and time, and the local date of an instant.
-/
namespace Agregator

/-! ## Text and integers -/

/-- `unicode.IsSpace`. -/
def isSpace (c : Char) : Bool :=
  let n := c.toNat
  (9 ≤ n && n ≤ 13) || n == 32 || n == 0x85 || n == 0xA0 || n == 0x1680 || (0x2000 ≤ n && n ≤ 0x200a) || n == 0x2028 ||
    n == 0x2029 || n == 0x202f || n == 0x205f || n == 0x3000

/-- `strings.TrimSpace`. -/
def trimSpace (s : String) : String :=
  String.ofList ((s.toList.dropWhile isSpace).reverse.dropWhile isSpace).reverse

theorem toNat_of_isUUID {s : String} (h : isUUID s = true) : ∀ c ∈ s.toList,
    c.toNat = 45 ∨ (48 ≤ c.toNat ∧ c.toNat ≤ 57) ∨ (97 ≤ c.toNat ∧ c.toNat ≤ 102) := by
  intro c hc
  simp only [isUUID, Bool.and_eq_true, List.all_eq_true] at h
  obtain ⟨i, hi, rfl⟩ := List.getElem_of_mem hc
  have hci := h.2 (s.toList[i], i) (by simp [List.mk_mem_zipIdx_iff_getElem?, hi])
  dsimp only at hci
  split at hci
  · rw [beq_iff_eq.1 hci]
    exact .inl rfl
  · simp only [Bool.or_eq_true, Char.isDigit, Bool.and_eq_true, decide_eq_true_eq] at hci
    exact .inr hci

/-- A UUID has no space in it. -/
theorem isSpace_of_isUUID {s : String} (h : isUUID s = true) : ∀ c ∈ s.toList, isSpace c = false := by
  intro c hc
  have hrange := toNat_of_isUUID h c hc
  unfold isSpace
  dsimp only
  simp only [Bool.or_eq_false_iff, Bool.and_eq_false_iff, decide_eq_false_iff_not, beq_eq_false_iff_ne]
  omega

theorem trimSpace_of_isUUID {s : String} (h : isUUID s = true) : trimSpace s = s := by
  have hdrop : ∀ l : List Char, (∀ c ∈ l, isSpace c = false) → l.dropWhile isSpace = l := by
    intro l hl
    cases l with
    | nil => rfl
    | cons c l => rw [List.dropWhile_cons_of_neg (by simp [hl c List.mem_cons_self])]
  have hs := isSpace_of_isUUID h
  unfold trimSpace
  rw [hdrop _ hs, hdrop _ fun c hc => hs c (List.mem_reverse.1 hc), List.reverse_reverse, String.ofList_toList]

/-- `fmt.Sprintf` of a number with at least `width` digits. -/
def padded (width n : ℕ) : String :=
  let s := toString n
  String.ofList (List.replicate (width - s.length) '0') ++ s

/-- The value of an `int64` expression, which wraps. -/
def int64 (x : ℤ) : ℤ := Int.bmod x (2 ^ 64)

theorem int64_of_range {x : ℤ} (hlo : -2 ^ 63 ≤ x) (hhi : x < 2 ^ 63) : int64 x = x := by
  unfold int64
  exact Int.bmod_eq_of_le (by omega) (by omega)

theorem int64_range (x : ℤ) : -2 ^ 63 ≤ int64 x ∧ int64 x < 2 ^ 63 := by
  unfold int64
  have hlo := Int.le_bmod (x := x) (m := 2 ^ 64) (by decide)
  have hhi := Int.bmod_lt (x := x) (m := 2 ^ 64) (by decide)
  omega

theorem int64_int64_add (x y : ℤ) : int64 (int64 x + y) = int64 (x + y) := Int.bmod_add_bmod ..

theorem int64_add_int64 (x y : ℤ) : int64 (x + int64 y) = int64 (x + y) := Int.add_bmod_bmod ..

/-- The number a sequence of decimal digits stands for. -/
def digitsVal (cs : List Char) : Option ℕ :=
  if cs.all Char.isDigit then some (cs.foldl (fun n c => 10 * n + (c.toNat - 48)) 0) else none

/-- `strconv.Atoi`. -/
def atoi (s : String) : Option ℤ :=
  let bounded (x : ℤ) : Option ℤ := if -2 ^ 63 ≤ x ∧ x < 2 ^ 63 then some x else none
  let number (cs : List Char) : Option ℕ := if cs = [] then none else digitsVal cs
  match s.toList with
  | '-' :: cs => (number cs).bind fun n => bounded (-n)
  | '+' :: cs => (number cs).bind fun n => bounded n
  | cs => (number cs).bind fun n => bounded n

theorem atoi_range {s : String} {x : ℤ} (h : atoi s = some x) : -2 ^ 63 ≤ x ∧ x < 2 ^ 63 := by
  have hb : ∀ {n : Option ℕ} {f : ℕ → ℤ}, (n.bind fun n => if -2 ^ 63 ≤ f n ∧ f n < 2 ^ 63 then some (f n) else none) = some x →
      -2 ^ 63 ≤ x ∧ x < 2 ^ 63 := by
    intro n f h
    obtain ⟨m, -, hm⟩ := Option.bind_eq_some_iff.1 h
    by_cases hr : -2 ^ 63 ≤ f m ∧ f m < 2 ^ 63
    · rw [if_pos hr] at hm
      cases hm
      exact hr
    · rw [if_neg hr] at hm
      cases hm
  unfold atoi at h
  split at h <;> exact hb h

/-- `config.GetEnvInt`, of what the variable is set to: the empty text stands for a variable that is not set. -/
def getEnvInt (val : String) (fallback : ℤ) : ℤ :=
  if val ≠ "" then (atoi val).getD fallback else fallback

theorem getEnvInt_range {val : String} {fallback : ℤ} (h : -2 ^ 63 ≤ fallback ∧ fallback < 2 ^ 63) :
    -2 ^ 63 ≤ getEnvInt val fallback ∧ getEnvInt val fallback < 2 ^ 63 := by
  unfold getEnvInt
  by_cases hval : val = ""
  · rwa [if_neg (not_not_intro hval)]
  · rw [if_pos hval]
    cases ha : atoi val with
    | none => exact h
    | some x => exact atoi_range ha

/-- `uuid.Parse` of an identifier. -/
def parseUUID (s : String) : Except Err String :=
  if isUUID s then .ok s else .error (.plain "invalid UUID")

/-- What a computation that succeeds has gone through. -/
theorem Except.of_bind {ε α β : Type} {x : Except ε α} {f : α → Except ε β} {b : β} (h : (x >>= f) = .ok b) :
    ∃ a, x = .ok a ∧ f a = .ok b := by
  cases x with
  | error e => cases h
  | ok a => exact ⟨a, rfl, h⟩

theorem Except.bind_ok {ε α β : Type} {x : Except ε α} {f : α → Except ε β} (hx : ∃ a, x = .ok a)
    (hf : ∀ a, ∃ b, f a = .ok b) : ∃ b, x >>= f = .ok b := by
  obtain ⟨a, rfl⟩ := hx
  exact hf a

theorem Except.of_mapError {ε ε' α : Type} {f : ε → ε'} {x : Except ε α} {a : α} (h : x.mapError f = .ok a) : x = .ok a := by
  cases x with
  | error e => cases h
  | ok b =>
    cases h
    rfl

theorem Except.mapError_ok {ε ε' α : Type} {f : ε → ε'} {x : Except ε α} (hx : ∃ a, x = .ok a) : ∃ a, x.mapError f = .ok a := by
  obtain ⟨a, rfl⟩ := hx
  exact ⟨a, rfl⟩

/-- A list of results, when there is one for each. -/
theorem Except.mapM_ok_iff {α β ε : Type} {f : α → Except ε β} : ∀ {l : List α} {bs : List β},
    l.mapM f = .ok bs ↔ List.Forall₂ (fun a b => f a = .ok b) l bs
  | [], bs => by
    rw [List.mapM_nil, List.forall₂_nil_left_iff]
    exact ⟨fun h => (Except.ok.inj h).symm, fun h => congrArg _ h.symm⟩
  | a :: l, bs => by
    rw [List.mapM_cons, List.forall₂_cons_left_iff]
    constructor
    · intro h
      obtain ⟨b, hb, h⟩ := Except.of_bind h
      obtain ⟨rest, hrest, h⟩ := Except.of_bind h
      cases h
      exact ⟨b, rest, hb, Except.mapM_ok_iff.1 hrest, rfl⟩
    · rintro ⟨b, rest, hb, hrest, rfl⟩
      rw [hb, Except.mapM_ok_iff.2 hrest]
      rfl

theorem List.forall₂_exists {α β : Type} {R : α → β → Prop} : ∀ {l : List α}, (∀ a ∈ l, ∃ b, R a b) → ∃ bs, List.Forall₂ R l bs
  | [], _ => ⟨[], .nil⟩
  | a :: l, h => by
    obtain ⟨b, hb⟩ := h a List.mem_cons_self
    obtain ⟨bs, hbs⟩ := List.forall₂_exists fun x hx => h x (List.mem_cons_of_mem _ hx)
    exact ⟨b :: bs, .cons hb hbs⟩

theorem List.forall₂_left {α β : Type} {R : α → β → Prop} {l : List α} {bs : List β} (h : List.Forall₂ R l bs) :
    ∀ a ∈ l, ∃ b, R a b := by
  induction h with
  | nil => exact fun a ha => absurd ha List.not_mem_nil
  | cons hb _ ih => exact List.forall_mem_cons.2 ⟨⟨_, hb⟩, ih⟩

theorem List.forall₂_right {α β : Type} {R : α → β → Prop} {l : List α} {bs : List β} (h : List.Forall₂ R l bs) :
    ∀ b ∈ bs, ∃ a ∈ l, R a b := by
  induction h with
  | nil => exact fun b hb => absurd hb List.not_mem_nil
  | cons hb _ ih =>
    refine List.forall_mem_cons.2 ⟨⟨_, List.mem_cons_self, hb⟩, fun b hmem => ?_⟩
    obtain ⟨a, ha, hr⟩ := ih b hmem
    exact ⟨a, List.mem_cons_of_mem _ ha, hr⟩

/-- What becomes of a message. -/
inductive Answer where
  | ack
  | nak
deriving DecidableEq, Repr

/-! ## Times of day -/

/-- Minutes since midnight, below a day. -/
structure TimeOfDay where
  h : ℕ
  m : ℕ
deriving DecidableEq, Repr

namespace TimeOfDay

/-- `time.Parse("15:04", s)`: the hour may have one digit, the minute has two. -/
def parse (s : String) : Option TimeOfDay :=
  let build (hs ms : List Char) : Option TimeOfDay :=
    match digitsVal hs, digitsVal ms with
    | some h, some m => if h < 24 ∧ m < 60 then some ⟨h, m⟩ else none
    | _, _ => none
  match s.toList with
  | [h, ':', m, n] => build [h] [m, n]
  | [g, h, ':', m, n] => build [g, h] [m, n]
  | _ => none

def string (t : TimeOfDay) : String := padded 2 t.h ++ ":" ++ padded 2 t.m

def minutesSinceStart (t : TimeOfDay) : ℤ := t.h * 60 + t.m

/-- `none` when `other` is not later. -/
def minutesUntil (t other : TimeOfDay) : Option ℤ :=
  let diff := other.minutesSinceStart - t.minutesSinceStart
  if diff ≤ 0 then none else some diff

example : parse "18:05" = some ⟨18, 5⟩ := by decide

example : parse "24:00" = none := by decide

end TimeOfDay

/-! ## Dates -/

structure Date where
  year : ℕ
  month : ℕ
  day : ℕ
deriving DecidableEq, Repr

namespace Date

def isLeap (y : ℕ) : Bool := y % 4 == 0 && (y % 100 != 0 || y % 400 == 0)

def daysIn (y m : ℕ) : ℕ :=
  if m == 2 then if isLeap y then 29 else 28
  else if m == 4 || m == 6 || m == 9 || m == 11 then 30 else 31

/-- Days since the first of January of year 0, a Saturday. -/
def dayNumber (d : Date) : ℕ :=
  365 * d.year + (d.year + 3) / 4 - (d.year + 99) / 100 + (d.year + 399) / 400 +
    ((List.range (d.month - 1)).map fun i => daysIn d.year (i + 1)).sum + (d.day - 1)

/-- `time.Weekday`: Sunday is 0. -/
def weekday (d : Date) : ℕ := (d.dayNumber + 6) % 7

/-- `time.Parse("2006-01-02", s)`. -/
def parse (s : String) : Option Date :=
  match s.toList with
  | [a, b, c, d, '-', e, f, '-', g, h] =>
    match digitsVal [a, b, c, d], digitsVal [e, f], digitsVal [g, h] with
    | some y, some m, some k => if 1 ≤ m ∧ m ≤ 12 ∧ 1 ≤ k ∧ k ≤ daysIn y m then some ⟨y, m, k⟩ else none
    | _, _, _ => none
  | _ => none

def string (d : Date) : String := padded 4 d.year ++ "-" ++ padded 2 d.month ++ "-" ++ padded 2 d.day

/-- `pricing.IsWeekendDay`. -/
def isWeekendDay (d : Date) : Bool := d.weekday == 6 || d.weekday == 0

example : (⟨1970, 1, 1⟩ : Date).weekday = 4 := by decide

example : (⟨2024, 2, 29⟩ : Date).weekday = 4 := by decide

end Date

/-- `*time.Location`. -/
structure Location where
  instant : Date → TimeOfDay → Time
  dateAt : Time → Date

/-- `ToTimeIn`. -/
def TimeOfDay.toTimeIn (t : TimeOfDay) (d : Date) (loc : Location) : Time := loc.instant d t

end Agregator
