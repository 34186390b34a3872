import Mathlib.Algebra.Order.Field.Basic
import Mathlib.Algebra.Order.Ring.Abs
import Mathlib.Data.NNRat.Defs
import Mathlib.Data.Rat.Cast.Defs
import Mathlib.Tactic.FieldSimp
import Mathlib.Tactic.Linarith
import Mathlib.Tactic.NormNum
import Agregator.GoJson
/-!
# GoFormat — numbers as `fmt` writes them

`%d` of a whole number and `%.kf` of a floating-point one.  The digits of the latter are those of the nearest multiple of
`10 ^ -k`, of two that are equally near of the even one.  A number that is written the same is rounded to the same
(`text_injective`), and numbers rounded to the same are not further apart than one unit (`abs_sub_le_of_rounded`).
-/
namespace GoFormat

/-- A floating-point number. -/
inductive GoFloat where
  | nan
  | inf (neg : Bool)
  | fin (neg : Bool) (mag : ℚ≥0)
deriving DecidableEq

/-- What is written of it; a magnitude is counted in units of the last digit. -/
inductive Rounded where
  | nan
  | inf (neg : Bool)
  | fin (neg : Bool) (units : ℕ)
deriving DecidableEq

def nearest (x : ℚ≥0) : ℕ :=
  let q := x.num / x.den
  let r := x.num % x.den
  if 2 * r < x.den ∨ (2 * r = x.den ∧ q % 2 = 0) then q else q + 1

def GoFloat.rounded (k : ℕ) : GoFloat → Rounded
  | nan => .nan
  | inf neg => .inf neg
  | fin neg mag => .fin neg (nearest (mag * 10 ^ k))

/-- The last digits of a number, so many of them. -/
def lastDigits : ℕ → ℕ → List Char
  | 0, _ => []
  | k + 1, n => lastDigits k (n / 10) ++ [Nat.digitChar (n % 10)]

def sign (neg : Bool) : List Char := if neg then ['-'] else []

/-- The digits of a magnitude, with the dot. -/
def magnitude (k units : ℕ) : List Char := Nat.toDigits 10 (units / 10 ^ k) ++ '.' :: lastDigits k units

def Rounded.text (k : ℕ) : Rounded → List Char
  | nan => "NaN".toList
  | inf false => "+Inf".toList
  | inf true => "-Inf".toList
  | fin neg units => sign neg ++ magnitude k units

/-- `%.kf`, for `0 < k`. -/
def fixed (k : ℕ) (x : GoFloat) : List UInt8 := GoJson.encodeText ((x.rounded k).text k)

/-- `%d`. -/
def decimal (n : ℤ) : List UInt8 := GoJson.encodeText (toString n).toList

/-! ## What is written is what was rounded -/

theorem encodeText_injective {l l' : List Char} (h : GoJson.encodeText l = GoJson.encodeText l') : l = l' := by
  rw [← GoJson.decodeText_encodeText l, h, GoJson.decodeText_encodeText]

theorem toDigits_injective {n m : ℕ} (h : Nat.toDigits 10 n = Nat.toDigits 10 m) : n = m := by
  have hvalue := congrArg (fun l => Nat.ofDigitChars 10 l 0) h
  simpa [Nat.ofDigitChars_ten_toDigits] using hvalue

theorem digitChar_injective : ∀ i < 10, ∀ j < 10, Nat.digitChar i = Nat.digitChar j → i = j := by decide

theorem lastDigits_injective : ∀ {k n m : ℕ}, lastDigits k n = lastDigits k m → n % 10 ^ k = m % 10 ^ k
  | 0, n, m, _ => by omega
  | k + 1, n, m, h => by
    obtain ⟨hinit, hlast⟩ := List.append_inj' h rfl
    have hdigit : n % 10 = m % 10 :=
      digitChar_injective _ (Nat.mod_lt _ (by decide)) _ (Nat.mod_lt _ (by decide)) (List.head_eq_of_cons_eq hlast)
    have hrest := lastDigits_injective hinit
    have hsplit : ∀ x : ℕ, x % 10 ^ (k + 1) = x % 10 + 10 * (x / 10 % 10 ^ k) := fun x => by
      rw [Nat.pow_succ', Nat.mod_mul]
    rw [hsplit, hsplit, hdigit, hrest]

theorem digit_ne (n : ℕ) {c : Char} (hc : c.isDigit = false) : c ∉ Nat.toDigits 10 n := by
  intro h
  rw [GoJson.isDigit_toDigits n c h] at hc
  cases hc

theorem isDigit_digitChar : ∀ i < 10, (Nat.digitChar i).isDigit = true := by decide

theorem isDigit_lastDigits : ∀ (k n : ℕ), ∀ c ∈ lastDigits k n, c.isDigit = true
  | 0, _, c, h => by cases h
  | k + 1, n, c, h => by
    rcases List.mem_append.1 h with h | h
    · exact isDigit_lastDigits k _ c h
    · rw [List.mem_singleton.1 h]
      exact isDigit_digitChar _ (Nat.mod_lt _ (by decide))

theorem decimal_injective {n m : ℤ} (h : decimal n = decimal m) : n = m := by
  have htext := encodeText_injective h
  have hminus : ∀ x y : ℕ, '-' :: Nat.toDigits 10 x ≠ Nat.toDigits 10 y := fun x y he =>
    digit_ne y (by decide) (he ▸ List.mem_cons_self)
  have hnat : ∀ x : ℕ, (toString (Int.ofNat x)).toList = Nat.toDigits 10 x := fun x => Nat.toList_repr
  cases n with
  | ofNat x =>
    cases m with
    | ofNat y =>
      rw [hnat, hnat] at htext
      rw [toDigits_injective htext]
    | negSucc y =>
      rw [hnat, GoJson.toString_negSucc] at htext
      exact absurd htext.symm (hminus _ _)
  | negSucc x =>
    cases m with
    | ofNat y =>
      rw [hnat, GoJson.toString_negSucc] at htext
      exact absurd htext (hminus _ _)
    | negSucc y =>
      rw [GoJson.toString_negSucc, GoJson.toString_negSucc] at htext
      have hxy := toDigits_injective (List.cons.inj htext).2
      rw [Nat.succ.inj hxy]

theorem magnitude_injective {k n m : ℕ} (h : magnitude k n = magnitude k m) : n = m := by
  have hlasts : '.' ∉ lastDigits k n := fun hmem => absurd (isDigit_lastDigits k n _ hmem) (by decide)
  have hwhole : '.' ∉ Nat.toDigits 10 (n / 10 ^ k) := digit_ne _ (by decide)
  obtain ⟨hdigits, -, hlast⟩ := (List.append_cons_inj_of_notMem hwhole hlasts).1 h
  have hdiv := toDigits_injective hdigits
  have hmod := lastDigits_injective hlast
  calc n = 10 ^ k * (n / 10 ^ k) + n % 10 ^ k := (Nat.div_add_mod n _).symm
    _ = 10 ^ k * (m / 10 ^ k) + m % 10 ^ k := by rw [hdiv, hmod]
    _ = m := Nat.div_add_mod m _

theorem mem_magnitude {k n : ℕ} {c : Char} (h : c ∈ magnitude k n) : c = '.' ∨ c.isDigit = true := by
  rcases List.mem_append.1 h with h | h
  · exact .inr (GoJson.isDigit_toDigits _ c h)
  · rcases List.mem_cons.1 h with h | h
    · exact .inl h
    · exact .inr (isDigit_lastDigits _ _ c h)

theorem dot_mem_magnitude (k n : ℕ) : '.' ∈ magnitude k n := List.mem_append_right _ List.mem_cons_self

theorem minus_notMem_magnitude (k n : ℕ) : '-' ∉ magnitude k n := by
  intro h
  rcases mem_magnitude h with he | he
  · exact absurd he (by decide)
  · exact absurd he (by decide)

theorem signed_injective {s t : Bool} {k n m : ℕ} (h : sign s ++ magnitude k n = sign t ++ magnitude k m) : s = t ∧ n = m := by
  have hminus : ∀ n m : ℕ, magnitude k n ≠ '-' :: magnitude k m := fun n m he =>
    minus_notMem_magnitude k n (he ▸ List.mem_cons_self)
  cases s <;> cases t
  · exact ⟨rfl, magnitude_injective h⟩
  · exact absurd h (hminus n m)
  · exact absurd h.symm (hminus m n)
  · exact ⟨rfl, magnitude_injective (List.cons.inj h).2⟩

theorem text_injective {k : ℕ} : ∀ {x y : Rounded}, x.text k = y.text k → x = y := by
  have hdot : ∀ {l : List Char} (s : Bool) (n : ℕ), '.' ∉ l → sign s ++ magnitude k n ≠ l := fun s n hl he =>
    hl (he ▸ List.mem_append_right _ (dot_mem_magnitude k n))
  have hnan : '.' ∉ "NaN".toList := by decide
  have hplus : '.' ∉ "+Inf".toList := by decide
  have hminus : '.' ∉ "-Inf".toList := by decide
  have hne : "NaN".toList ≠ "+Inf".toList ∧ "NaN".toList ≠ "-Inf".toList ∧ "+Inf".toList ≠ "-Inf".toList := by decide
  intro x y h
  match x, y, h with
  | .nan, .nan, _ | .inf false, .inf false, _ | .inf true, .inf true, _ => rfl
  | .nan, .inf false, h => exact absurd h hne.1
  | .nan, .inf true, h => exact absurd h hne.2.1
  | .inf false, .nan, h => exact absurd h.symm hne.1
  | .inf true, .nan, h => exact absurd h.symm hne.2.1
  | .inf false, .inf true, h => exact absurd h hne.2.2
  | .inf true, .inf false, h => exact absurd h.symm hne.2.2
  | .nan, .fin t m, h => exact absurd h.symm (hdot t m hnan)
  | .inf false, .fin t m, h => exact absurd h.symm (hdot t m hplus)
  | .inf true, .fin t m, h => exact absurd h.symm (hdot t m hminus)
  | .fin s n, .nan, h => exact absurd h (hdot s n hnan)
  | .fin s n, .inf false, h => exact absurd h (hdot s n hplus)
  | .fin s n, .inf true, h => exact absurd h (hdot s n hminus)
  | .fin s n, .fin t m, h =>
    obtain ⟨rfl, rfl⟩ := signed_injective h
    rfl

theorem fixed_injective {k : ℕ} {x y : GoFloat} (h : fixed k x = fixed k y) : x.rounded k = y.rounded k :=
  text_injective (encodeText_injective h)

/-! ## The characters of a number -/

/-- What a number is written with. -/
def alphabet : List Char := "0123456789+-.NaInf".toList

theorem mem_alphabet_of_isDigit {c : Char} (h : c.isDigit = true) : c ∈ alphabet := by
  have hdigits : ∀ n < 58, 48 ≤ n → Char.ofNat n ∈ alphabet := by decide
  simp only [Char.isDigit, Bool.and_eq_true, decide_eq_true_eq] at h
  have hlo : 48 ≤ c.toNat := h.1
  have hhi : c.toNat ≤ 57 := h.2
  have hmem := hdigits c.toNat (by omega) hlo
  rwa [Char.ofNat_toNat] at hmem

theorem mem_alphabet_of_text {k : ℕ} : ∀ {x : Rounded} {c : Char}, c ∈ x.text k → c ∈ alphabet
  | .nan, _, h => (by decide : "NaN".toList ⊆ alphabet) h
  | .inf false, _, h => (by decide : "+Inf".toList ⊆ alphabet) h
  | .inf true, _, h => (by decide : "-Inf".toList ⊆ alphabet) h
  | .fin s n, c, h => by
    rcases List.mem_append.1 h with h | h
    · cases s with
      | false => cases h
      | true => exact (by decide : sign true ⊆ alphabet) h
    · rcases mem_magnitude h with rfl | h
      · decide
      · exact mem_alphabet_of_isDigit h

theorem mem_alphabet_of_toString {n : ℤ} {c : Char} (h : c ∈ (toString n).toList) : c ∈ alphabet := by
  cases n with
  | ofNat x =>
    have htext : (toString (Int.ofNat x)).toList = Nat.toDigits 10 x := Nat.toList_repr
    rw [htext] at h
    exact mem_alphabet_of_isDigit (GoJson.isDigit_toDigits x c h)
  | negSucc x =>
    rw [GoJson.toString_negSucc] at h
    rcases List.mem_cons.1 h with rfl | h
    · decide
    · exact mem_alphabet_of_isDigit (GoJson.isDigit_toDigits _ c h)

section Bytes

variable {b : UInt8} (hb : ∀ c ∈ alphabet, b ∉ String.utf8EncodeChar c)
include hb

theorem notMem_fixed (k : ℕ) (x : GoFloat) : b ∉ fixed k x := by
  intro h
  obtain ⟨c, hc, hmem⟩ := List.mem_flatMap.1 h
  exact hb c (mem_alphabet_of_text hc) hmem

theorem notMem_decimal (n : ℤ) : b ∉ decimal n := by
  intro h
  obtain ⟨c, hc, hmem⟩ := List.mem_flatMap.1 h
  exact hb c (mem_alphabet_of_toString hc) hmem

end Bytes

/-! ## Numbers of one text -/

theorem nearest_close (x : ℚ≥0) : |(x : ℚ) - nearest x| ≤ 1 / 2 := by
  have hden : (0 : ℚ) < x.den := by exact_mod_cast x.den_pos
  have hx : (x : ℚ) = x.num / x.den := NNRat.cast_def x
  have hsplit : (x.num : ℚ) = x.den * (x.num / x.den : ℕ) + (x.num % x.den : ℕ) := by
    exact_mod_cast (Nat.div_add_mod x.num x.den).symm
  have hr : (x.num % x.den : ℕ) < x.den := Nat.mod_lt _ x.den_pos
  have hfrac : (x : ℚ) = (x.num / x.den : ℕ) + (x.num % x.den : ℕ) / x.den := by
    rw [hx, hsplit]
    field_simp
  unfold nearest
  dsimp only
  generalize x.num / x.den = q at *
  generalize x.num % x.den = r at *
  rw [hfrac]
  split
  · next hdown =>
    have hle : (r : ℚ) / x.den ≤ 1 / 2 := by
      rw [div_le_div_iff₀ hden (by norm_num)]
      have : r * 2 ≤ 1 * x.den := by omega
      exact_mod_cast this
    have hpos : 0 ≤ (r : ℚ) / x.den := div_nonneg (Nat.cast_nonneg r) hden.le
    rw [add_sub_cancel_left, abs_of_nonneg hpos]
    exact hle
  · next hup =>
    have hge : 1 / 2 ≤ (r : ℚ) / x.den := by
      rw [div_le_div_iff₀ (by norm_num) hden]
      have : 1 * x.den ≤ r * 2 := by omega
      exact_mod_cast this
    have hlt : (r : ℚ) / x.den ≤ 1 := by
      rw [div_le_one hden]
      exact_mod_cast hr.le
    push_cast
    rw [abs_le]
    constructor <;> linarith

/-- **Numbers of one text** are of one sign and not further apart than one unit of the last digit. -/
theorem abs_sub_le_of_rounded {k : ℕ} {s t : Bool} {x y : ℚ≥0} (h : (GoFloat.fin s x).rounded k = (GoFloat.fin t y).rounded k) :
    s = t ∧ |(x : ℚ) - y| ≤ 1 / 10 ^ k := by
  unfold GoFloat.rounded at h
  obtain ⟨rfl, hunits⟩ := Rounded.fin.inj h
  refine ⟨rfl, ?_⟩
  have hx := nearest_close (x * 10 ^ k)
  have hy := nearest_close (y * 10 ^ k)
  rw [hunits] at hx
  have hpow : (0 : ℚ) < 10 ^ k := pow_pos (by norm_num) k
  have hscale : |(x : ℚ) - y| * 10 ^ k = |(x : ℚ) * 10 ^ k - y * 10 ^ k| := by
    rw [← sub_mul, abs_mul, abs_of_pos hpow]
  push_cast at hx hy
  rw [le_div_iff₀ hpow, hscale]
  rw [abs_le] at hx hy ⊢
  constructor <;> linarith [hx.1, hx.2, hy.1, hy.2]

end GoFormat
