import Mathlib.Data.Nat.Notation
/-!
# Base64 — base64 with the URL alphabet and without padding

Decoding passes over line ends and does not look at the bits that are left over, as the lenient decoders do.
-/
namespace Base64

def alphabet : List Char := "ABCDEFGHIJKLMNOPQRSTUVWXYZabcdefghijklmnopqrstuvwxyz0123456789-_".toList

def char (i : ℕ) : Char := alphabet.getD i 'A'

def value (c : Char) : Option ℕ := alphabet.findIdx? (· == c)

theorem value_char : ∀ i < 64, value (char i) = some i := by decide +kernel

/-- A line end is passed over. -/
def isText (c : Char) : Bool := c != '\n' && c != '\r'

theorem isText_char : ∀ i < 64, isText (char i) = true := by decide +kernel

/-! ## Six bits at a time -/

def split : List UInt8 → List ℕ
  | [] => []
  | [a] => [a.toNat / 4, a.toNat % 4 * 16]
  | [a, b] => [a.toNat / 4, a.toNat % 4 * 16 + b.toNat / 16, b.toNat % 16 * 4]
  | a :: b :: c :: rest =>
    a.toNat / 4 :: (a.toNat % 4 * 16 + b.toNat / 16) :: (b.toNat % 16 * 4 + c.toNat / 64) :: c.toNat % 64 :: split rest

def join : List ℕ → Option (List UInt8)
  | [] => some []
  | [_] => none
  | [a, b] => some [UInt8.ofNat (a * 4 + b / 16)]
  | [a, b, c] => some [UInt8.ofNat (a * 4 + b / 16), UInt8.ofNat (b % 16 * 16 + c / 4)]
  | a :: b :: c :: d :: rest =>
    (join rest).map fun bytes =>
      UInt8.ofNat (a * 4 + b / 16) :: UInt8.ofNat (b % 16 * 16 + c / 4) :: UInt8.ofNat (c % 4 * 64 + d) :: bytes

theorem split_lt : ∀ {bytes : List UInt8}, ∀ i ∈ split bytes, i < 64
  | [] => by simp [split]
  | [a] => by
    have ha := a.toNat_lt
    simp only [split, List.mem_cons, List.not_mem_nil, or_false]
    rintro i (rfl | rfl) <;> omega
  | [a, b] => by
    have ha := a.toNat_lt
    have hb := b.toNat_lt
    simp only [split, List.mem_cons, List.not_mem_nil, or_false]
    rintro i (rfl | rfl | rfl) <;> omega
  | a :: b :: c :: rest => by
    have ha := a.toNat_lt
    have hb := b.toNat_lt
    have hc := c.toNat_lt
    simp only [split, List.mem_cons]
    rintro i (rfl | rfl | rfl | rfl | hi)
    · omega
    · omega
    · omega
    · omega
    · exact split_lt i hi

theorem ofNat_eq {n : ℕ} {a : UInt8} (h : n = a.toNat) : UInt8.ofNat n = a := by
  rw [h, UInt8.ofNat_toNat]

theorem join_split : ∀ bytes : List UInt8, join (split bytes) = some bytes
  | [] => rfl
  | [a] => by
    have ha := ofNat_eq (a := a) (n := a.toNat / 4 * 4 + a.toNat % 4 * 16 / 16) (by omega)
    simp only [split, join, ha]
  | [a, b] => by
    have hb := b.toNat_lt
    have ha := ofNat_eq (a := a) (n := a.toNat / 4 * 4 + (a.toNat % 4 * 16 + b.toNat / 16) / 16) (by omega)
    have hb' := ofNat_eq (a := b) (n := (a.toNat % 4 * 16 + b.toNat / 16) % 16 * 16 + b.toNat % 16 * 4 / 4) (by omega)
    simp only [split, join, ha, hb']
  | a :: b :: c :: rest => by
    have hb := b.toNat_lt
    have hc := c.toNat_lt
    have ha := ofNat_eq (a := a) (n := a.toNat / 4 * 4 + (a.toNat % 4 * 16 + b.toNat / 16) / 16) (by omega)
    have hb' := ofNat_eq (a := b)
      (n := (a.toNat % 4 * 16 + b.toNat / 16) % 16 * 16 + (b.toNat % 16 * 4 + c.toNat / 64) / 4) (by omega)
    have hc' := ofNat_eq (a := c) (n := (b.toNat % 16 * 4 + c.toNat / 64) % 4 * 64 + c.toNat % 64) (by omega)
    simp only [split, join, join_split rest, Option.map_some, ha, hb', hc']

theorem split_length : ∀ bytes : List UInt8, (split bytes).length = (bytes.length * 4 + 2) / 3
  | [] => by simp [split]
  | [_] => by simp [split]
  | [_, _] => by simp [split]
  | _ :: _ :: _ :: rest => by
    simp only [split, List.length_cons, split_length rest]
    omega

/-! ## Text -/

def encode (bytes : List UInt8) : String := String.ofList ((split bytes).map char)

def decode (s : String) : Option (List UInt8) := ((s.toList.filter isText).mapM value).bind join

/-- **What is encoded is decoded.** -/
theorem decode_encode (bytes : List UInt8) : decode (encode bytes) = some bytes := by
  have hvalues : ∀ l : List ℕ, (∀ i ∈ l, i < 64) →
      ((l.map char).filter isText).mapM value = some l := by
    intro l
    induction l with
    | nil => exact fun _ => rfl
    | cons i l ih =>
      intro hl
      have hi := hl i List.mem_cons_self
      rw [List.map_cons, List.filter_cons_of_pos (isText_char i hi), List.mapM_cons, value_char i hi,
        ih fun j hj => hl j (List.mem_cons_of_mem _ hj)]
      rfl
  unfold decode encode
  rw [String.toList_ofList, hvalues _ split_lt]
  exact join_split bytes

/-- The characters of an encoded text are those of the alphabet. -/
theorem encode_chars {bytes : List UInt8} {P : Char → Prop} (h : ∀ i < 64, P (char i)) : ∀ c ∈ (encode bytes).toList, P c := by
  intro c hc
  rw [encode, String.toList_ofList] at hc
  obtain ⟨i, hi, rfl⟩ := List.mem_map.1 hc
  exact h i (split_lt i hi)

theorem encode_length (bytes : List UInt8) : (encode bytes).length = (bytes.length * 4 + 2) / 3 := by
  rw [encode, ← String.length_toList, String.toList_ofList, List.length_map, split_length]

/-- A line end makes no difference. -/
theorem decode_lineEnd (s : String) : decode (s ++ "\n") = decode s := by
  have hend : "\n".toList.filter isText = [] := by decide
  unfold decode
  rw [String.toList_append, List.filter_append, hend, List.append_nil]

end Base64
