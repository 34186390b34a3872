import Mathlib.Data.Nat.Digits.Lemmas
import Agregator.Base64
import Agregator.GoBase
import Agregator.GoBytes
import Agregator.GoJson
/-!
# Jwt — access tokens signed with ES256

A token is three texts of base64 with dots between them: a header, the claims, and the signature of the first two with the dot.
A key remembers what it was applied to, and nothing else is verified with it.
-/
namespace Agregator
namespace Jwt

open GoJson (StructField Scalar encodeText decodeText objectText unmarshal)

/-! ## Texts -/

def dot : UInt8 := 0x2E

/-- `base64.RawURLEncoding.EncodeToString`. -/
def encodeToString (bytes : List UInt8) : List UInt8 := encodeText (Base64.encode bytes).toList

/-- `base64.RawURLEncoding.DecodeString` of bytes of any kind. -/
def decodeString (text : List UInt8) : Option (List UInt8) := Base64.decode (String.ofList (decodeText text))

theorem decodeString_encodeToString (bytes : List UInt8) : decodeString (encodeToString bytes) = some bytes := by
  rw [decodeString, encodeToString, GoJson.decodeText_encodeText, String.ofList_toList, Base64.decode_encode]

theorem dot_notMem_char : ∀ i < 64, dot ∉ String.utf8EncodeChar (Base64.char i) := by decide +kernel

theorem dot_notMem_encodeToString (bytes : List UInt8) : dot ∉ encodeToString bytes := by
  intro h
  obtain ⟨c, hc, hdot⟩ := List.mem_flatMap.1 h
  have hchars : ∀ c ∈ (Base64.encode bytes).toList, dot ∉ String.utf8EncodeChar c := Base64.encode_chars dot_notMem_char
  exact hchars c hc hdot

/-! ## Signatures as bytes -/

/-- `big.Int.Bytes`. -/
def intBytes (n : ℕ) : List UInt8 := (Nat.digits 256 n).reverse.map UInt8.ofNat

/-- `big.Int.SetBytes`. -/
def setBytes (bytes : List UInt8) : ℕ := bytes.foldl (fun n b => n * 256 + b.toNat) 0

/-- A number of at most 32 bytes within 32 bytes. -/
def aligned (n : ℕ) : List UInt8 := List.replicate (32 - (intBytes n).length) 0 ++ intBytes n

def encodeRS (r s : ℕ) : List UInt8 := aligned r ++ aligned s

theorem setBytes_eq (bytes : List UInt8) : setBytes bytes = Nat.ofDigits 256 (bytes.reverse.map UInt8.toNat) := by
  induction bytes using List.reverseRecOn with
  | nil => rfl
  | append_singleton bytes b ih =>
    unfold setBytes at ih ⊢
    rw [List.foldl_append, ih, List.reverse_append, List.reverse_singleton, List.singleton_append, List.map_cons,
      Nat.ofDigits_cons]
    simp only [List.foldl_cons, List.foldl_nil]
    omega

theorem intBytes_length (n : ℕ) : (intBytes n).length = (Nat.digits 256 n).length := by
  rw [intBytes, List.length_map, List.length_reverse]

theorem intBytes_digits (n : ℕ) : (intBytes n).reverse.map UInt8.toNat = Nat.digits 256 n := by
  rw [intBytes, ← List.map_reverse, List.reverse_reverse, List.map_map]
  refine List.map_congr_left (g := id) ?_ |>.trans (List.map_id _)
  intro d hd
  exact UInt8.toNat_ofNat_of_lt (Nat.digits_lt_base (by decide) hd)

theorem setBytes_aligned (n : ℕ) : setBytes (aligned n) = n := by
  have hzeros : (List.replicate (32 - (intBytes n).length) (0 : UInt8)).reverse.map UInt8.toNat =
      List.replicate (32 - (intBytes n).length) 0 := by
    rw [List.reverse_replicate, List.map_replicate]
    rfl
  rw [setBytes_eq, aligned, List.reverse_append, List.map_append, hzeros, intBytes_digits, Nat.ofDigits_append_replicate_zero,
    Nat.ofDigits_digits]

theorem aligned_length {n : ℕ} (hn : n < 2 ^ 256) : (aligned n).length = 32 := by
  have hlen : (Nat.digits 256 n).length ≤ 32 := (Nat.digits_length_le_iff (by decide) n).2 (by omega)
  rw [aligned, List.length_append, List.length_replicate, intBytes_length]
  omega

/-! ## Keys -/

/-- A pair of keys with everything its private half was applied to, as the text that was hashed and the signature that came out.
What has no signature is not verified, and what was signed has the hash of nothing else. -/
structure KeyPair (D : Type) where
  sum : List UInt8 → D
  verify : D → ℕ → ℕ → Bool
  signed : List (List UInt8 × ℕ × ℕ)
  verify_signed : ∀ x r s, (x, r, s) ∈ signed → verify (sum x) r s = true
  signed_range : ∀ x r s, (x, r, s) ∈ signed → (0 < r ∧ r < 2 ^ 256) ∧ 0 < s ∧ s < 2 ^ 256
  of_verify : ∀ d r s, verify d r s = true → ∃ x r' s', (x, r', s') ∈ signed ∧ sum x = d
  sum_signed : ∀ x r s, (x, r, s) ∈ signed → ∀ y, sum y = sum x → y = x

variable {D : Type}

def verifyES256 (k : KeyPair D) (signingInput sigBytes : List UInt8) : Bool :=
  if sigBytes.length ≠ 64 then false
  else
    let r := setBytes (sigBytes.take 32)
    let s := setBytes (sigBytes.drop 32)
    if k.verify (k.sum signingInput) r s then encodeRS r s == sigBytes else false

theorem verifyES256_signed (k : KeyPair D) {x : List UInt8} {r s : ℕ} (h : (x, r, s) ∈ k.signed) :
    verifyES256 k x (encodeRS r s) = true := by
  obtain ⟨⟨-, hr⟩, -, hs⟩ := k.signed_range x r s h
  have hlen : (encodeRS r s).length = 64 := by rw [encodeRS, List.length_append, aligned_length hr, aligned_length hs]
  have htake : (encodeRS r s).take 32 = aligned r := by rw [encodeRS, ← aligned_length hr, List.take_left]
  have hdrop : (encodeRS r s).drop 32 = aligned s := by rw [encodeRS, ← aligned_length hr, List.drop_left]
  unfold verifyES256
  rw [if_neg (not_not_intro hlen), htake, hdrop, setBytes_aligned, setBytes_aligned]
  simp [k.verify_signed x r s h]

/-- Only what was signed is verified. -/
theorem signed_of_verifyES256 (k : KeyPair D) {x sigBytes : List UInt8} (h : verifyES256 k x sigBytes = true) :
    ∃ r s, (x, r, s) ∈ k.signed := by
  unfold verifyES256 at h
  by_cases hlen : sigBytes.length ≠ 64
  · rw [if_pos hlen] at h
    cases h
  · rw [if_neg hlen] at h
    by_cases hv : k.verify (k.sum x) (setBytes (sigBytes.take 32)) (setBytes (sigBytes.drop 32)) = true
    · obtain ⟨y, r, s, hy, hsum⟩ := k.of_verify _ _ _ hv
      have hxy := k.sum_signed y r s hy x hsum.symm
      exact ⟨r, s, by rw [hxy]; exact hy⟩
    · simp [hv] at h

/-! ## Claims -/

structure Claims where
  userID : String
  email : String
  role : String
  exp : ℤ
  iat : ℤ
  nbf : ℤ
deriving DecidableEq, Repr

/-- The numbers of claims are those of an `int64`. -/
def Claims.InRange (c : Claims) : Prop :=
  (-2 ^ 63 ≤ c.exp ∧ c.exp < 2 ^ 63) ∧ (-2 ^ 63 ≤ c.iat ∧ c.iat < 2 ^ 63) ∧ (-2 ^ 63 ≤ c.nbf ∧ c.nbf < 2 ^ 63)

def noClaims : Claims := ⟨"", "", "", 0, 0, 0⟩

/-- What `json.Marshal` writes of claims. -/
def Claims.members (c : Claims) : List (String × Scalar) :=
  [("sub", .str c.userID), ("email", .str c.email), ("role", .str c.role), ("exp", .int c.exp), ("iat", .int c.iat),
    ("nbf", .int c.nbf)]

def marshal (c : Claims) : List UInt8 := encodeText (objectText c.members)

/-- An `int64` field: `null` leaves it as it is, and the number must be a whole one that fits. -/
def intValue (old : ℤ) : GoJson.Json → Option ℤ
  | .null => some old
  | .num text => atoi text
  | _ => none

def claimFields : List (StructField Claims) :=
  [⟨"sub", fun j c => (GoJson.stringValue c.userID j).map fun s => { c with userID := s }⟩,
    ⟨"email", fun j c => (GoJson.stringValue c.email j).map fun s => { c with email := s }⟩,
    ⟨"role", fun j c => (GoJson.stringValue c.role j).map fun s => { c with role := s }⟩,
    ⟨"exp", fun j c => (intValue c.exp j).map fun n => { c with exp := n }⟩,
    ⟨"iat", fun j c => (intValue c.iat j).map fun n => { c with iat := n }⟩,
    ⟨"nbf", fun j c => (intValue c.nbf j).map fun n => { c with nbf := n }⟩]

def headerFields : List (StructField String) := [⟨"alg", fun j alg => GoJson.stringValue alg j⟩]

theorem atoi_toString {n : ℤ} (hlo : -2 ^ 63 ≤ n) (hhi : n < 2 ^ 63) : atoi (toString n) = some n := by
  have hdigits : ∀ m : ℕ, digitsVal (Nat.toDigits 10 m) = some m := by
    intro m
    unfold digitsVal
    rw [if_pos (List.all_eq_true.2 (GoJson.isDigit_toDigits m))]
    exact congrArg some Nat.ofDigitChars_ten_toDigits
  cases n with
  | ofNat m =>
    have htext : (toString (Int.ofNat m)).toList = Nat.toDigits 10 m := Nat.toList_repr
    rw [Int.ofNat_eq_natCast] at hlo hhi
    cases hl : Nat.toDigits 10 m with
    | nil => exact absurd hl Nat.toDigits_ne_nil
    | cons c l =>
      have hc : c.isDigit = true := GoJson.isDigit_toDigits m c (by rw [hl]; exact List.mem_cons_self)
      have hvalue := hdigits m
      rw [hl] at htext hvalue
      unfold atoi
      rw [htext]
      split
      · next h => 
        cases h
        exact absurd hc (by decide)
      · next h =>
        cases h
        exact absurd hc (by decide)
      · dsimp only
        rw [if_neg (List.cons_ne_nil c l), hvalue, Option.bind_some, if_pos ⟨hlo, hhi⟩, Int.ofNat_eq_natCast]
  | negSucc m =>
    have hcast : Int.negSucc m = -((m + 1 : ℕ) : ℤ) := rfl
    rw [hcast] at hlo hhi
    unfold atoi
    rw [GoJson.toString_negSucc]
    split
    · next h =>
      cases h
      dsimp only
      rw [if_neg Nat.toDigits_ne_nil, hdigits, Option.bind_some, if_pos ⟨hlo, hhi⟩, hcast]
    · next h => exact absurd (List.cons.inj h).1 (by decide)
    · next hne _ => exact absurd rfl (hne _)

theorem unmarshal_marshal {c : Claims} (h : c.InRange) : unmarshal claimFields noClaims (marshal c) = some c := by
  obtain ⟨⟨h1, h2⟩, ⟨h3, h4⟩, h5, h6⟩ := h
  have hexp : atoi c.exp.repr = some c.exp := atoi_toString h1 h2
  have hiat : atoi c.iat.repr = some c.iat := atoi_toString h3 h4
  have hnbf : atoi c.nbf.repr = some c.nbf := atoi_toString h5 h6
  rw [marshal, GoJson.unmarshal_objectText]
  simp [Claims.members, Scalar.json, GoJson.setMember, GoJson.findField, claimFields, GoJson.stringValue, intValue, hexp, hiat, hnbf]

/-! ## Tokens -/

def errInvalidToken : Err := .plain "invalid token"

def errExpiredToken : Err := .plain "token expired"

/-- A time of the clock in nanoseconds, at which a duration still fits behind it. -/
structure Instant where
  ns : ℤ
  range : -(2 ^ 62 * 10 ^ 9) ≤ ns ∧ ns < 2 ^ 62 * 10 ^ 9

structure Duration where
  ns : ℤ
  range : -2 ^ 63 ≤ ns ∧ ns < 2 ^ 63

/-- `Unix` of a time in nanoseconds. -/
def unix (ns : ℤ) : ℤ := ns / 10 ^ 9

/-- What a token says of a user; the clock is read for its issue, and once more for its expiry. -/
def accessClaims (now later : Instant) (userID email role : String) (ttl : Duration) : Claims :=
  { userID := userID
    email := email
    role := role
    exp := unix (later.ns + ttl.ns)
    iat := unix now.ns
    nbf := unix now.ns }

def headerJSON : String := "\x7b\"alg\":\"ES256\",\"typ\":\"JWT\"\x7d"

def header : List UInt8 := encodeToString (encodeText headerJSON.toList)

def signingInput (c : Claims) : List UInt8 := header ++ dot :: encodeToString (marshal c)

/-- `signES256`, of what `ecdsa.Sign` answers for the hash. -/
def signES256 (k : KeyPair D) (sign : D → Except String (ℕ × ℕ)) (c : Claims) : Except Err (List UInt8) :=
  match sign (k.sum (signingInput c)) with
  | .error err => .error (.plain ("ecdsa sign: " ++ err))
  | .ok (r, s) => .ok (signingInput c ++ dot :: encodeToString (encodeRS r s))

def generateAccessToken (k : KeyPair D) (sign : D → Except String (ℕ × ℕ)) (now later : Instant) (userID email role : String)
    (ttl : Duration) : Except Err (List UInt8) :=
  signES256 k sign (accessClaims now later userID email role ttl)

def orInvalid {α : Type} : Option α → Except Err α
  | some a => .ok a
  | none => .error errInvalidToken

def require (b : Bool) : Except Err Unit := if b then .ok () else .error errInvalidToken

/-- A not-before of zero stands for none. -/
def checkTimes (now : ℤ) (c : Claims) : Except Err Claims :=
  if c.exp < unix now then .error errExpiredToken
  else if c.nbf ≠ 0 ∧ unix now < c.nbf then .error errInvalidToken
  else .ok c

def validateAccessToken (k : KeyPair D) (now : ℤ) (token : List UInt8) : Except Err Claims :=
  match token.splitOn dot with
  | [header, payload, signature] => do
    let alg ← orInvalid ((decodeString header).bind (unmarshal headerFields ""))
    require (alg == "ES256")
    let sigBytes ← orInvalid (decodeString signature)
    require (verifyES256 k (header ++ dot :: payload) sigBytes)
    let claims ← orInvalid ((decodeString payload).bind (unmarshal claimFields noClaims))
    checkTimes now claims
  | _ => .error errInvalidToken

theorem orInvalid_ok {α : Type} {o : Option α} {a : α} (h : orInvalid o = .ok a) : o = some a := by
  cases o with
  | none => cases h
  | some b =>
    cases h
    rfl

theorem require_ok {b : Bool} {u : Unit} (h : require b = .ok u) : b = true := by
  cases b with
  | false => cases h
  | true => rfl

theorem checkTimes_ok {now : ℤ} {c c' : Claims} (h : checkTimes now c = .ok c') : c' = c ∧ unix now ≤ c.exp := by
  unfold checkTimes at h
  by_cases hexp : c.exp < unix now
  · rw [if_pos hexp] at h
    cases h
  · rw [if_neg hexp] at h
    by_cases hnbf : c.nbf ≠ 0 ∧ unix now < c.nbf
    · rw [if_pos hnbf] at h
      cases h
    · rw [if_neg hnbf] at h
      cases h
      exact ⟨rfl, by omega⟩

/-! ### Dots -/

theorem split_parts {h p s : List UInt8} (hh : dot ∉ h) (hp : dot ∉ p) (hs : dot ∉ s) :
    (h ++ dot :: (p ++ dot :: s)).splitOn dot = [h, p, s] := by
  rw [List.splitOn_append_cons_self_of_not_mem hh, List.splitOn_append_cons_self_of_not_mem hp, List.splitOn_eq_singleton hs]

/-- A text with one dot is split in one way. -/
theorem split_unique {h p h' p' : List UInt8} (hh : dot ∉ h) (hp : dot ∉ p) (hh' : dot ∉ h') (hp' : dot ∉ p')
    (heq : h ++ dot :: p = h' ++ dot :: p') : h = h' ∧ p = p' := by
  have hsplit := congrArg (List.splitOn dot) heq
  rw [List.splitOn_append_cons_self_of_not_mem hh, List.splitOn_append_cons_self_of_not_mem hh', List.splitOn_eq_singleton hp,
    List.splitOn_eq_singleton hp'] at hsplit
  cases hsplit
  exact ⟨rfl, rfl⟩

/-! ### What is issued and what is accepted -/

theorem unmarshal_header : (decodeString header).bind (unmarshal headerFields "") = some "ES256" := by
  have htext : headerJSON.toList = objectText [("alg", .str "ES256"), ("typ", .str "JWT")] := by decide
  rw [header, decodeString_encodeToString, Option.bind_some, htext, GoJson.unmarshal_objectText]
  rfl

/-- **A token that was signed is judged by its times alone.** -/
theorem validate_signed (k : KeyPair D) {c : Claims} (hc : c.InRange) {r s : ℕ} (h : (signingInput c, r, s) ∈ k.signed) (now : ℤ) :
    validateAccessToken k now (signingInput c ++ dot :: encodeToString (encodeRS r s)) = checkTimes now c := by
  have hheader : dot ∉ header := dot_notMem_encodeToString _
  have hsplit := split_parts hheader (dot_notMem_encodeToString (marshal c)) (dot_notMem_encodeToString (encodeRS r s))
  have htoken : signingInput c ++ dot :: encodeToString (encodeRS r s) =
      header ++ dot :: (encodeToString (marshal c) ++ dot :: encodeToString (encodeRS r s)) := by
    rw [signingInput, List.append_assoc, List.cons_append]
  have hverify : verifyES256 k (header ++ dot :: encodeToString (marshal c)) (encodeRS r s) = true := verifyES256_signed k h
  have halg : orInvalid ((decodeString header).bind (unmarshal headerFields "")) = .ok "ES256" := by
    rw [unmarshal_header, orInvalid]
  have hsig : orInvalid (decodeString (encodeToString (encodeRS r s))) = .ok (encodeRS r s) := by
    rw [decodeString_encodeToString, orInvalid]
  have hclaims : orInvalid ((decodeString (encodeToString (marshal c))).bind (unmarshal claimFields noClaims)) = .ok c := by
    rw [decodeString_encodeToString, Option.bind_some, unmarshal_marshal hc, orInvalid]
  have hbind : ∀ {α : Type} (a : α) (f : α → Except Err Claims), (Except.ok a >>= f) = f a := fun _ _ => rfl
  unfold validateAccessToken
  rw [htoken, hsplit]
  simp only [halg, hsig, hclaims, hbind, hverify, require, beq_self_eq_true, if_true]

/-- **Whatever is accepted was signed**, and its claims are those of its second part. -/
theorem of_validate {k : KeyPair D} {now : ℤ} {token : List UInt8} {c : Claims} (h : validateAccessToken k now token = .ok c) :
    ∃ h p s r' s', token = h ++ dot :: (p ++ dot :: s) ∧ (dot ∉ h ∧ dot ∉ p ∧ dot ∉ s) ∧ (h ++ dot :: p, r', s') ∈ k.signed ∧
      (decodeString h).bind (unmarshal headerFields "") = some "ES256" ∧
      (decodeString p).bind (unmarshal claimFields noClaims) = some c ∧ unix now ≤ c.exp := by
  unfold validateAccessToken at h
  split at h
  · next hd p s hsplit =>
    have htoken : [dot].intercalate (token.splitOn dot) = token := List.intercalate_splitOn dot
    have hdots := GoBytes.splitOn_notMem dot token
    rw [hsplit] at htoken hdots
    obtain ⟨alg, halg, h⟩ := Except.of_bind h
    obtain ⟨u, hes, h⟩ := Except.of_bind h
    obtain ⟨sigBytes, hsig, h⟩ := Except.of_bind h
    obtain ⟨u', hverify, h⟩ := Except.of_bind h
    obtain ⟨claims, hclaims, h⟩ := Except.of_bind h
    obtain ⟨r, s', hsigned⟩ := signed_of_verifyES256 k (require_ok hverify)
    obtain ⟨rfl, hexp⟩ := checkTimes_ok h
    have hname : alg = "ES256" := by simpa using require_ok hes
    refine ⟨hd, p, s, r, s', ?_, ⟨hdots hd (by simp), hdots p (by simp), hdots s (by simp)⟩, hsigned, ?_, orInvalid_ok hclaims, hexp⟩
    · rw [← htoken]
      simp [List.intercalate]
    · rw [orInvalid_ok halg, hname]
  · cases h

/-- A second part that goes with a signing input is its payload. -/
theorem payload_of_signingInput {h p : List UInt8} {c : Claims} (hh : dot ∉ h) (hp : dot ∉ p) (heq : h ++ dot :: p = signingInput c) :
    h = header ∧ p = encodeToString (marshal c) :=
  split_unique hh hp (dot_notMem_encodeToString _) (dot_notMem_encodeToString _) heq

theorem accessClaims_inRange (now later : Instant) (userID email role : String) (ttl : Duration) :
    (accessClaims now later userID email role ttl).InRange := by
  have hnow := now.range
  have hlater := later.range
  have httl := ttl.range
  simp only [Claims.InRange, accessClaims, unix]
  omega

theorem checkTimes_valid {c : Claims} {t : ℤ} (hnbf : c.nbf ≤ unix t) (hexp : unix t ≤ c.exp) : checkTimes t c = .ok c := by
  rw [checkTimes, if_neg (by omega), if_neg (by omega)]

theorem checkTimes_expired {c : Claims} {t : ℤ} (hexp : c.exp < unix t) : checkTimes t c = .error errExpiredToken := by
  rw [checkTimes, if_pos hexp]

theorem unix_mono {t t' : ℤ} (h : t ≤ t') : unix t ≤ unix t' := Int.ediv_le_ediv (by decide) h

/-- What `ecdsa.Sign` answers for a text is kept by the key. -/
def Recorded (k : KeyPair D) (sign : D → Except String (ℕ × ℕ)) (x : List UInt8) : Prop :=
  ∀ r s, sign (k.sum x) = .ok (r, s) → (x, r, s) ∈ k.signed

theorem signES256_of_sign {k : KeyPair D} {sign : D → Except String (ℕ × ℕ)} {c : Claims} {r s : ℕ}
    (h : sign (k.sum (signingInput c)) = .ok (r, s)) :
    signES256 k sign c = .ok (signingInput c ++ dot :: encodeToString (encodeRS r s)) := by
  rw [signES256, h]

theorem signES256_ok {k : KeyPair D} {sign : D → Except String (ℕ × ℕ)} {c : Claims} {token : List UInt8}
    (hsign : Recorded k sign (signingInput c)) (h : signES256 k sign c = .ok token) :
    ∃ r s, (signingInput c, r, s) ∈ k.signed ∧ token = signingInput c ++ dot :: encodeToString (encodeRS r s) := by
  unfold signES256 at h
  cases hs : sign (k.sum (signingInput c)) with
  | error err =>
    rw [hs] at h
    cases h
  | ok rs =>
    rw [hs] at h
    cases h
    exact ⟨rs.1, rs.2, hsign rs.1 rs.2 hs, rfl⟩

/-- **A token gives its claims back until the second of its expiry is over**, and is expired from the next second on; a token
that is accepted was signed with the key, as it is split and with the claims that it gives. -/
theorem access_token_codec (k : KeyPair D) :
    (∀ (sign : D → Except String (ℕ × ℕ)) (now later : Instant) (userID email role : String) (ttl : Duration) (token : List UInt8),
      Recorded k sign (signingInput (accessClaims now later userID email role ttl)) →
      generateAccessToken k sign now later userID email role ttl = .ok token → ∀ t : ℤ,
        (now.ns ≤ t → t ≤ later.ns + ttl.ns →
          validateAccessToken k t token = .ok (accessClaims now later userID email role ttl)) ∧
        (now.ns ≤ t → unix t = unix (later.ns + ttl.ns) →
          validateAccessToken k t token = .ok (accessClaims now later userID email role ttl)) ∧
        (unix (later.ns + ttl.ns) < unix t → validateAccessToken k t token = .error errExpiredToken)) ∧
    ∀ (t : ℤ) (token : List UInt8) (c : Claims), validateAccessToken k t token = .ok c →
      ∃ h p s, token = h ++ dot :: (p ++ dot :: s) ∧ (dot ∉ h ∧ dot ∉ p ∧ dot ∉ s) ∧
        (∃ r' s', (h ++ dot :: p, r', s') ∈ k.signed) ∧ (decodeString h).bind (unmarshal headerFields "") = some "ES256" ∧
        ∀ c' : Claims, c'.InRange → h ++ dot :: p = signingInput c' → c = c' := by
  constructor
  · intro sign now later userID email role ttl token hsign hgen t
    obtain ⟨r, s, hsigned, rfl⟩ := signES256_ok hsign hgen
    rw [validate_signed k (accessClaims_inRange now later userID email role ttl) hsigned t]
    refine ⟨?_, ?_, ?_⟩
    · intro hissue hexp
      exact checkTimes_valid (unix_mono hissue) (unix_mono hexp)
    · intro hissue hexp
      exact checkTimes_valid (unix_mono hissue) hexp.le
    · intro hexp
      exact checkTimes_expired hexp
  · intro t token c h
    obtain ⟨hd, p, s, r', s', htoken, ⟨hhd, hp, hs⟩, hsigned, halg, hclaims, -⟩ := of_validate h
    refine ⟨hd, p, s, htoken, ⟨hhd, hp, hs⟩, ⟨r', s', hsigned⟩, halg, ?_⟩
    intro c' hc' heq
    obtain ⟨-, hpayload⟩ := payload_of_signingInput hhd hp heq
    rw [hpayload, decodeString_encodeToString, Option.bind_some, unmarshal_marshal hc'] at hclaims
    exact (Option.some.inj hclaims).symm

/-- A key that has signed one text. -/
def signedOnce (x : List UInt8) : KeyPair (List UInt8) where
  sum := id
  verify d r s := decide (d = x ∧ r = 5 ∧ s = 7)
  signed := [(x, 5, 7)]
  verify_signed := by simp
  signed_range := by
    intro y r s h
    cases List.mem_singleton.1 h
    decide
  of_verify := by
    intro d r s h
    simp only [decide_eq_true_eq] at h
    exact ⟨x, 5, 7, by simp, h.1.symm⟩
  sum_signed := by
    intro y r s h z hz
    exact hz

def second : Instant := ⟨10 ^ 9, by norm_num⟩

def oneSecond : Duration := ⟨10 ^ 9, by norm_num⟩

def exampleClaims : Claims := accessClaims second second "u1" "a@b.c" "user" oneSecond

def exampleKey : KeyPair (List UInt8) := signedOnce (signingInput exampleClaims)

def exampleToken : List UInt8 := signingInput exampleClaims ++ dot :: encodeToString (encodeRS 5 7)

theorem example_recorded : Recorded exampleKey (fun _ => .ok (5, 7)) (signingInput exampleClaims) := by
  intro r s h
  cases h
  exact List.mem_cons_self

theorem example_generated :
    generateAccessToken exampleKey (fun _ => .ok (5, 7)) second second "u1" "a@b.c" "user" oneSecond = .ok exampleToken :=
  signES256_of_sign rfl

theorem issued_and_accepted :
    validateAccessToken exampleKey 1500000000 exampleToken = .ok exampleClaims ∧
      ∃ h p s, exampleToken = h ++ dot :: (p ++ dot :: s) ∧ (dot ∉ h ∧ dot ∉ p ∧ dot ∉ s) := by
  have hvalid := ((access_token_codec exampleKey).1 (fun _ => .ok (5, 7)) second second "u1" "a@b.c" "user" oneSecond exampleToken
    example_recorded example_generated 1500000000).1 (by decide) (by decide)
  obtain ⟨h, p, s, htoken, hdots, -⟩ := (access_token_codec exampleKey).2 _ _ _ hvalid
  exact ⟨hvalid, h, p, s, htoken, hdots⟩

/-- The expiry is past, and the second of it is not over. -/
theorem accepted_past_expiry :
    generateAccessToken exampleKey (fun _ => .ok (5, 7)) second second "u1" "a@b.c" "user" oneSecond = .ok exampleToken ∧
      second.ns + oneSecond.ns < 2500000000 ∧ validateAccessToken exampleKey 2500000000 exampleToken = .ok exampleClaims := by
  have hmem : (signingInput exampleClaims, 5, 7) ∈ exampleKey.signed := List.mem_cons_self
  have htimes : checkTimes 2500000000 exampleClaims = .ok exampleClaims := checkTimes_valid (by decide) (by decide)
  refine ⟨example_generated, by decide, ?_⟩
  rw [← htimes]
  exact validate_signed exampleKey (accessClaims_inRange _ _ _ _ _ _) hmem 2500000000

end Jwt
end Agregator
