import Agregator.AuthSignup
import Agregator.Base64
/-!
# AuthPassword — the passwords of the accounts

The policy of the service beside that of the form, and the hash of a password: what is printed of it, what is read back, and who
can log in thereafter.
-/
namespace Agregator

open Rel Conc

/-! ## The policy of the form -/

def passwordMinLength : ℕ := 8

/-- `pw.length`: a character beyond the first 65536 counts twice. -/
def scriptLength (pw : String) : ℕ := (pw.toList.map fun c => if c.toNat < 0x10000 then 1 else 2).sum

structure PasswordRule where
  key : String
  label : String
  test : String → Bool

/-- `\p{L}` is the class of letters the service knows, `\d` are the ten digits. -/
def passwordRules (text : CaseRules) : List PasswordRule :=
  [⟨"length", "Не менее " ++ toString passwordMinLength ++ " символов", fun pw => decide (passwordMinLength ≤ scriptLength pw)⟩,
    ⟨"letter", "Хотя бы одна буква", fun pw => pw.toList.any text.isLetter⟩,
    ⟨"digit", "Хотя бы одна цифра", fun pw => pw.toList.any Char.isDigit⟩]

def isPasswordValid (text : CaseRules) (pw : String) : Bool := (passwordRules text).all (·.test pw)

/-- The ten digits are digits, and no letters. -/
def CaseRules.KnowsDigits (t : CaseRules) : Prop := ∀ c : Char, c.isDigit = true → t.isDigit c = true ∧ t.isLetter c = false

/-- A string has as many bytes as units of sixteen bits, or more. -/
theorem scriptLength_le (pw : String) : scriptLength pw ≤ pw.utf8ByteSize := by
  have hunits : ∀ c : Char, (if c.toNat < 0x10000 then 1 else 2) ≤ c.utf8Size := by
    intro c
    have hpos := c.utf8Size_pos
    by_cases hc : c.toNat < 0x10000
    · rw [if_pos hc]
      exact hpos
    · rw [if_neg hc]
      have hval : c.toNat = c.val.toNat := rfl
      simp only [Char.utf8Size, UInt32.le_iff_toNat_le]
      split
      · rename_i h
        simp at h
        omega
      · split
        · omega
        · split <;> omega
  have hlist : ∀ l : List Char, (l.map fun c => if c.toNat < 0x10000 then 1 else 2).sum ≤ (String.ofList l).utf8ByteSize := by
    intro l
    induction l with
    | nil => exact Nat.zero_le _
    | cons c l ih =>
      have hcons : String.ofList (c :: l) = String.singleton c ++ String.ofList l := by
        rw [String.singleton_eq_ofList, ← String.ofList_append]
        rfl
      rw [hcons, String.utf8ByteSize_append, String.utf8ByteSize_singleton, List.map_cons, List.sum_cons]
      have := hunits c
      omega
  have h := hlist pw.toList
  rw [String.ofList_toList] at h
  exact h

namespace AuthUseCase

variable (uc : AuthUseCase)

theorem validateAccountPassword_ok_iff (pw : String) : uc.validateAccountPassword pw = .ok () ↔ 8 ≤ pw.utf8ByteSize ∧
    (∃ c ∈ pw.toList, uc.text.isLetter c = true) ∧ ∃ c ∈ pw.toList, uc.text.isLetter c = false ∧ uc.text.isDigit c = true := by
  unfold validateAccountPassword minAccountPasswordLen
  by_cases hlen : pw.utf8ByteSize < 8
  · rw [if_pos hlen]
    constructor
    · intro h
      cases h
    · rintro ⟨h, -⟩
      omega
  · rw [if_neg hlen]
    by_cases hboth : (pw.toList.any uc.text.isLetter && pw.toList.any fun c => !uc.text.isLetter c && uc.text.isDigit c) = true
    · rw [if_pos hboth]
      simp only [Bool.and_eq_true, List.any_eq_true, Bool.not_eq_true'] at hboth
      exact ⟨fun _ => ⟨by omega, hboth⟩, fun _ => rfl⟩
    · rw [if_neg hboth]
      constructor
      · intro h
        cases h
      · rintro ⟨-, h⟩
        refine absurd ?_ hboth
        simpa only [Bool.and_eq_true, List.any_eq_true, Bool.not_eq_true'] using h

theorem isPasswordValid_iff (pw : String) : isPasswordValid uc.text pw = true ↔ 8 ≤ scriptLength pw ∧
    (∃ c ∈ pw.toList, uc.text.isLetter c = true) ∧ ∃ c ∈ pw.toList, c.isDigit = true := by
  simp only [isPasswordValid, passwordRules, passwordMinLength, List.all_cons, List.all_nil, Bool.and_eq_true, List.any_eq_true,
    and_true]
  exact and_congr_left' decide_eq_true_iff

/-- **What the form accepts the service accepts, and both agree on a password exactly if it has eight units of sixteen bits and
one of the ten digits, or is too short in bytes, has no letter or no digit at all.** -/
theorem policies_agree_iff (ht : uc.text.KnowsDigits) (pw : String) :
    (isPasswordValid uc.text pw = true → uc.validateAccountPassword pw = .ok ()) ∧
    ((uc.validateAccountPassword pw = .ok () ↔ isPasswordValid uc.text pw = true) ↔
      (8 ≤ scriptLength pw ∧ ∃ c ∈ pw.toList, c.isDigit = true) ∨ pw.utf8ByteSize < 8 ∨
        (∀ c ∈ pw.toList, uc.text.isLetter c = false) ∨ ∀ c ∈ pw.toList, uc.text.isLetter c = true ∨ uc.text.isDigit c = false) := by
  have hlen := scriptLength_le pw
  rw [isPasswordValid_iff, validateAccountPassword_ok_iff]
  have hform : (8 ≤ scriptLength pw ∧ (∃ c ∈ pw.toList, uc.text.isLetter c = true) ∧ ∃ c ∈ pw.toList, c.isDigit = true) →
      8 ≤ pw.utf8ByteSize ∧ (∃ c ∈ pw.toList, uc.text.isLetter c = true) ∧
        ∃ c ∈ pw.toList, uc.text.isLetter c = false ∧ uc.text.isDigit c = true := by
    rintro ⟨h8, hletter, c, hc, hdigit⟩
    exact ⟨by omega, hletter, c, hc, (ht c hdigit).2, (ht c hdigit).1⟩
  refine ⟨hform, fun h => ?_, fun h => ⟨fun hservice => ?_, hform⟩⟩
  · by_contra hnot
    simp only [not_or, not_forall, Bool.not_eq_false, Bool.not_eq_true, Nat.not_lt] at hnot
    obtain ⟨hscript, hbytes, ⟨c, hc, hletter⟩, c', hc', hdigit⟩ := hnot
    obtain ⟨h8, -, hten⟩ := h.1 ⟨hbytes, ⟨c, hc, hletter⟩, c', hc', hdigit⟩
    exact hscript ⟨h8, hten⟩
  · obtain ⟨hbytes, ⟨c, hc, hletter⟩, c', hc', hnone, hdigit⟩ := hservice
    rcases h with ⟨h8, hten⟩ | h | h | h
    · exact ⟨h8, ⟨c, hc, hletter⟩, hten⟩
    · omega
    · rw [h c hc] at hletter
      cases hletter
    · rcases h c' hc' with h | h
      · rw [h] at hnone
        cases hnone
      · rw [h] at hdigit
        cases hdigit

end AuthUseCase

theorem asciiRules_knowsDigits : asciiRules.KnowsDigits := by
  have hletter : ∀ n < 58, 48 ≤ n → asciiRules.isLetter (Char.ofNat n) = false := by decide
  intro c hc
  refine ⟨hc, ?_⟩
  simp only [Char.isDigit, Bool.and_eq_true, decide_eq_true_eq] at hc
  have hlo : 48 ≤ c.toNat := hc.1
  have hhi : c.toNat ≤ 57 := hc.2
  have hnot := hletter c.toNat (by omega) hlo
  rwa [Char.ofNat_toNat] at hnot

theorem policies_agree_iff_ten : (plainAuth.validateAccountPassword "Password1" = .ok () ↔ isPasswordValid asciiRules "Password1" = true) ∧
    isPasswordValid asciiRules "Password1" = true := by
  have hvalid : isPasswordValid asciiRules "Password1" = true := by decide +kernel
  obtain ⟨-, h⟩ := plainAuth.policies_agree_iff asciiRules_knowsDigits "Password1"
  have hlength : 8 ≤ scriptLength "Password1" := by decide +kernel
  exact ⟨h.2 (.inl ⟨hlength, '1', by decide, by decide⟩), hvalid⟩

/-- Four characters of eight bytes. -/
theorem four_characters : ¬ ∀ (uc : AuthUseCase), uc.text.KnowsDigits → ∀ pw : String,
    (uc.validateAccountPassword pw = .ok () ↔ isPasswordValid uc.text pw = true) := by
  intro h
  have hfour := (h plainAuth asciiRules_knowsDigits "a1€€").1 (by decide +kernel)
  exact absurd hfour (by decide +kernel)

/-! ## The hash of a password -/

theorem trimSpace_ne_empty {s : String} {c : Char} (h : s.toList.head? = some c) (hc : isSpace c = false) : trimSpace s ≠ "" := by
  have hdrop : s.toList.dropWhile isSpace = s.toList := by
    refine dropWhile_of_head fun x hx => ?_
    rw [h] at hx
    cases hx
    exact hc
  intro he
  unfold trimSpace at he
  rw [hdrop] at he
  have hnil : s.toList.reverse.dropWhile isSpace = [] := by simpa using he
  have hspace := List.dropWhile_eq_nil_iff.1 hnil c (List.mem_reverse.2 (List.mem_of_mem_head? h))
  rw [hc] at hspace
  cases hspace

/-- `argon2.IDKey`, a function of a password, a salt, the parameters and the length of the key. -/
structure Argon2 where
  idKey (password : String) (salt : List UInt8) (time memory threads keyLen : ℕ) : List UInt8
  length_idKey : ∀ password salt time memory threads keyLen, (idKey password salt time memory threads keyLen).length = keyLen

structure Argon2Params where
  time : ℕ
  memory : ℕ
  threads : ℕ
  keyLen : ℕ
  saltLen : ℕ

def defaultParams : Argon2Params := ⟨1, 64 * 1024, 4, 32, 16⟩

def argon2MaxMemory : ℕ := 256 * 1024

def argon2MaxTime : ℕ := 10

def argon2MaxThreads : ℕ := 8

/-! ### `base64.RawStdEncoding` -/

/-- Two characters of the alphabet are others. -/
def stdChar (c : Char) : Char := if c = '-' then '+' else if c = '_' then '/' else c

def urlChar (c : Char) : Char := if c = '+' then '-' else if c = '/' then '_' else c

def encodeStd (bytes : List UInt8) : List Char := (Base64.encode bytes).toList.map stdChar

def decodeStd (cs : List Char) : Option (List UInt8) :=
  if cs.any fun c => c == '-' || c == '_' then none else Base64.decode (String.ofList (cs.map urlChar))

theorem stdChar_char : ∀ i < 64, urlChar (stdChar (Base64.char i)) = Base64.char i ∧ stdChar (Base64.char i) ≠ '-' ∧
    stdChar (Base64.char i) ≠ '_' ∧ stdChar (Base64.char i) ≠ '$' := by decide +kernel

theorem mem_encode {bytes : List UInt8} {c : Char} (h : c ∈ (Base64.encode bytes).toList) : ∃ i < 64, c = Base64.char i := by
  unfold Base64.encode at h
  rw [String.toList_ofList] at h
  obtain ⟨i, hi, rfl⟩ := List.mem_map.1 h
  exact ⟨i, Base64.split_lt i hi, rfl⟩

theorem dollar_notMem_encodeStd (bytes : List UInt8) : '$' ∉ encodeStd bytes := by
  intro h
  obtain ⟨c, hc, heq⟩ := List.mem_map.1 h
  obtain ⟨i, hi, rfl⟩ := mem_encode hc
  exact (stdChar_char i hi).2.2.2 heq

theorem decodeStd_encodeStd (bytes : List UInt8) : decodeStd (encodeStd bytes) = some bytes := by
  have hback : (encodeStd bytes).map urlChar = (Base64.encode bytes).toList := by
    unfold encodeStd
    rw [List.map_map]
    conv_rhs => rw [← List.map_id (Base64.encode bytes).toList]
    refine List.map_congr_left fun c hc => ?_
    obtain ⟨i, hi, rfl⟩ := mem_encode hc
    exact (stdChar_char i hi).1
  have hnone : ¬ ((encodeStd bytes).any fun c => c == '-' || c == '_') = true := by
    intro h
    obtain ⟨x, hx, hbad⟩ := List.any_eq_true.1 h
    obtain ⟨c, hc, rfl⟩ := List.mem_map.1 hx
    obtain ⟨i, hi, rfl⟩ := mem_encode hc
    obtain ⟨-, hminus, hunder, -⟩ := stdChar_char i hi
    simp [hminus, hunder] at hbad
  unfold decodeStd
  rw [if_neg hnone, hback, String.ofList_toList, Base64.decode_encode]

/-! ### `fmt.Sscanf` -/

/-- `%d` of an unsigned number. -/
def scanUint (bits : ℕ) (cs : List Char) : Option (ℕ × List Char) :=
  let cs := cs.dropWhile fun c => isSpace c && c != '\n'
  match cs.takeWhile Char.isDigit with
  | [] => none
  | ds =>
    match digitsVal ds with
    | some n => if n < 2 ^ bits then some (n, cs.dropWhile Char.isDigit) else none
    | none => none

/-- What the format itself says. -/
def scanText (text : String) (cs : List Char) : Option (List Char) :=
  if text.toList.isPrefixOf cs then some (cs.drop text.toList.length) else none

/-- `"m=%d,t=%d,p=%d"`: what follows is not looked at. -/
def scanParams (cs : List Char) : Option (ℕ × ℕ × ℕ) := do
  let cs ← scanText "m=" cs
  let (mem, cs) ← scanUint 32 cs
  let cs ← scanText ",t=" cs
  let (iter, cs) ← scanUint 32 cs
  let cs ← scanText ",p=" cs
  let (par, _) ← scanUint 8 cs
  return (mem, iter, par)

namespace Argon2

variable (a : Argon2)

/-- The key of a password under the parameters of the service. -/
def key (salt : List UInt8) (password : String) : List UInt8 :=
  a.idKey password salt defaultParams.time defaultParams.memory defaultParams.threads defaultParams.keyLen

/-- `hashPassword`, after the salt has been drawn. -/
def hashPassword (salt : List UInt8) (password : String) : String :=
  "$argon2id$v=19$m=" ++ toString defaultParams.memory ++ ",t=" ++ toString defaultParams.time ++ ",p=" ++
    toString defaultParams.threads ++ "$" ++ String.ofList (encodeStd salt) ++ "$" ++ String.ofList (encodeStd (a.key salt password))

def verifyPassword (password encodedHash : String) : Bool :=
  match encodedHash.toList.splitOn '$' with
  | [_, _, _, params, salt, hash] =>
    match scanParams params with
    | none => false
    | some (mem, iter, par) =>
      if mem = 0 ∨ argon2MaxMemory < mem then false
      else if iter = 0 ∨ argon2MaxTime < iter then false
      else if par = 0 ∨ argon2MaxThreads < par then false
      else
        match decodeStd salt, decodeStd hash with
        | some salt, some expectedHash => a.idKey password salt iter mem par expectedHash.length == expectedHash
        | _, _ => false
  | _ => false

/-- No other password has the key of this one. -/
def NoCollision (password : String) : Prop := ∀ salt other, a.key salt other = a.key salt password → other = password

/-- **A hash is verified by its password alone.** -/
theorem verifyPassword_hashPassword (salt : List UInt8) {password : String} (h : a.NoCollision password) (other : String) :
    a.verifyPassword other (a.hashPassword salt password) = true ↔ other = password := by
  have hparts : (a.hashPassword salt password).toList.splitOn '$' = ["".toList, "argon2id".toList, "v=19".toList,
      "m=65536,t=1,p=4".toList, encodeStd salt, encodeStd (a.key salt password)] := by
    have htext : (a.hashPassword salt password).toList = "".toList ++ '$' :: ("argon2id".toList ++ '$' :: ("v=19".toList ++
        '$' :: ("m=65536,t=1,p=4".toList ++ '$' :: (encodeStd salt ++ '$' :: encodeStd (a.key salt password))))) := by
      have hfront : "$argon2id$v=19$m=" ++ toString defaultParams.memory ++ ",t=" ++ toString defaultParams.time ++ ",p=" ++
          toString defaultParams.threads ++ "$" = "$argon2id$v=19$m=65536,t=1,p=4$" := by decide +kernel
      unfold hashPassword
      rw [hfront]
      simp [String.toList_append]
    rw [htext, List.splitOn_append_cons_self_of_not_mem (by decide), List.splitOn_append_cons_self_of_not_mem (by decide),
      List.splitOn_append_cons_self_of_not_mem (by decide), List.splitOn_append_cons_self_of_not_mem (by decide),
      List.splitOn_append_cons_self_of_not_mem (dollar_notMem_encodeStd salt),
      List.splitOn_eq_singleton (dollar_notMem_encodeStd _)]
  have hscan : scanParams "m=65536,t=1,p=4".toList = some (65536, 1, 4) := by decide +kernel
  unfold verifyPassword
  rw [hparts]
  dsimp only
  rw [hscan]
  dsimp only
  rw [if_neg (by decide), if_neg (by decide), if_neg (by decide), decodeStd_encodeStd, decodeStd_encodeStd]
  dsimp only
  rw [beq_iff_eq, key, a.length_idKey]
  exact ⟨fun heq => h salt other heq, fun heq => by rw [heq]; rfl⟩

theorem hashPassword_hasPassword (salt : List UInt8) (password : String) : trimSpace (a.hashPassword salt password) ≠ "" := by
  have hhead : (a.hashPassword salt password).toList.head? = some '$' := by
    unfold hashPassword
    simp only [String.toList_append]
    rfl
  exact trimSpace_ne_empty hhead (by decide)

/-- A password is hashed under a salt that has been drawn. -/
def Hashes : (o : AuthOp) → o.Res → Prop
  | .hashPassword password, .ok hash => ∃ salt, salt.length = defaultParams.saltLen ∧ hash = a.hashPassword salt password
  | _, _ => True

/-- The operations of the service, with the hash that it computes. -/
def Exec {fold : String → String} (hash : String → String) (o : AuthOp) (w : AuthWorld fold) (r : o.Res) (w' : AuthWorld fold) :
    Prop :=
  AuthOp.Exec hash o w r w' ∧ a.Hashes o r

end Argon2

/-! ## A login with a password -/

/-- An operation, whatever the environment has in store for it. -/
def AuthOp.Answers {fold : String → String} (o : AuthOp) (w : AuthWorld fold) (r : o.Res) (w' : AuthWorld fold) : Prop :=
  ∃ env : AuthEnv, o.run env w = (r, w')

namespace AuthUseCase

variable (uc : AuthUseCase) {w w' : AuthWorld uc.text.fold} {r : CredentialRow} {email : String}

/-- The row of an email is found under it. -/
theorem getByEmail_row (hr : r ∈ w.db.creds.rows) (hemail : uc.text.fold r.email = uc.text.normalize email) :
    CredentialRepo.getByEmail (uc.text.normalize email) w.db = .ok (CredentialRepo.account r) := by
  have hget : w.db.creds.get (fun r => uc.text.fold r.email == uc.text.normalize email) = some r := by
    refine w.db.creds.get_key hr (beq_iff_eq.2 hemail) fun x hx => ?_
    have hsame : uc.text.fold x.email = uc.text.fold r.email := (beq_iff_eq.1 hx).trans hemail.symm
    simp [credentialSchema, hsame]
  unfold CredentialRepo.getByEmail
  rw [hget]
  rfl

/-- **The password that verifies logs in**, when all that is asked for is answered. -/
theorem login_served {env : AuthEnv} (h : env.Serves uc.hashRefreshToken w) (hr : r ∈ w.db.creds.rows)
    (hemail : uc.text.fold r.email = uc.text.normalize email) {password : String}
    (hhas : accountCredentialHasPassword (CredentialRepo.account r) = true)
    (hok : uc.verifyPassword password (CredentialRepo.account r).passwordHash = true) :
    ∃ res w', (uc.login email password).eval (AuthOp.run env) w = (.ok res, w') ∧ res.userID = r.userID := by
  have hu : isUUID r.userID = true := by
    have := w.db.creds.checked r hr
    simp only [credentialSchema, Bool.and_eq_true] at this
    exact this.1.1.1
  obtain ⟨user, huser⟩ := h.getUser
  obtain ⟨tokens, w', hpair, -⟩ := uc.generateTokenPair_served h w rfl hu r.email user.2
  refine ⟨⟨r.userID, tokens⟩, w', ?_, rfl⟩
  simp only [login, Prog.bind_eq, Prog.perform_bind, Prog.pure_eq, Prog.eval_call, AuthOp.run_sql h.fault, AuthSql.run,
    uc.getByEmail_row hr hemail]
  rw [if_pos hhas, if_neg (by simp [hok]), if_neg (by simp [hhas])]
  simp only [Prog.eval_call, AuthOp.run, huser, Except.map]
  rw [Prog.eval_bind]
  simp only [CredentialRepo.account]
  rw [hpair]
  rfl

/-- **A password that does not verify is refused**, whatever else happens. -/
theorem login_refused (hr : r ∈ w.db.creds.rows) (hemail : uc.text.fold r.email = uc.text.normalize email) {password : String}
    (hhas : accountCredentialHasPassword (CredentialRepo.account r) = true)
    (hwrong : uc.verifyPassword password (CredentialRepo.account r).passwordHash = false) (res : AuthResult)
    (h : (uc.login email password).Runs AuthOp.Answers w (.ok res) w') : False := by
  obtain ⟨found, w₁, ⟨env, hanswer⟩, h⟩ := h
  cases found with
  | error err => cases h.1
  | ok cred =>
    obtain ⟨hcred, -⟩ := Prod.mk.inj (Fault.of_ok (show env.fault.apply id _ w = _ from hanswer))
    simp only [AuthSql.run] at hcred
    rw [uc.getByEmail_row hr hemail] at hcred
    obtain rfl := Except.ok.inj hcred
    simp only [Prog.bind_ret] at h
    rw [if_pos hhas, if_pos hwrong] at h
    cases h.1

/-- The password logs in whenever all that is asked for is answered, and no other does. -/
structure LogsIn (email password : String) (w : AuthWorld uc.text.fold) : Prop where
  served : ∀ env : AuthEnv, env.Serves uc.hashRefreshToken w →
    ∃ res w', (uc.login email password).eval (AuthOp.run env) w = (.ok res, w')
  alone : ∀ other, other ≠ password → ∀ res w', ¬ (uc.login email other).Runs AuthOp.Answers w (.ok res) w'

/-- **An account lets in the password of its hash, and no other.** -/
theorem logsIn_stored (a : Argon2) (ha : uc.verifyPassword = a.verifyPassword) (hr : r ∈ w.db.creds.rows)
    (hemail : uc.text.fold r.email = uc.text.normalize email) {salt : List UInt8} {stored : String}
    (hhash : r.passwordHash = some (a.hashPassword salt stored)) (hno : a.NoCollision stored) :
    uc.LogsIn email stored w ∧ ∀ password, (∃ env : AuthEnv, env.Serves uc.hashRefreshToken w) →
      uc.LogsIn email password w → stored = password := by
  have hrow : (CredentialRepo.account r).passwordHash = a.hashPassword salt stored := by
    unfold CredentialRepo.account
    rw [hhash]
    rfl
  have hhas : accountCredentialHasPassword (CredentialRepo.account r) = true := by
    unfold accountCredentialHasPassword
    rw [hrow]
    exact bne_iff_ne.2 (a.hashPassword_hasPassword salt stored)
  have hverify : ∀ other, uc.verifyPassword other (CredentialRepo.account r).passwordHash = true ↔ other = stored := by
    intro other
    rw [ha, hrow]
    exact a.verifyPassword_hashPassword salt hno other
  have hshut : ∀ other, other ≠ stored → uc.verifyPassword other (CredentialRepo.account r).passwordHash = false := by
    intro other hother
    rw [← Bool.not_eq_true, hverify]
    exact hother
  constructor
  · refine ⟨fun env henv => ?_, fun other hother res w' h => uc.login_refused hr hemail hhas (hshut other hother) res h⟩
    obtain ⟨res, w', h, -⟩ := uc.login_served henv hr hemail hhas ((hverify stored).2 rfl)
    exact ⟨res, w', h⟩
  · rintro password ⟨env, henv⟩ h
    by_contra hne
    obtain ⟨res, w', hlogin⟩ := h.served env henv
    have hruns : (uc.login email password).Runs AuthOp.Answers w ((uc.login email password).eval (AuthOp.run env) w).1
        ((uc.login email password).eval (AuthOp.run env) w).2 := Prog.runs_eval (fun o w => ⟨env, rfl⟩) _ w
    rw [hlogin] at hruns
    exact uc.login_refused hr hemail hhas (hshut password (Ne.symm hne)) res hruns

/-! ## The hash that a call leaves -/

/-- What touches no account leaves the accounts as they are. -/
theorem Quiet.creds {a : Argon2} {o : AuthOp} (ho : Quiet o) {x x' : AuthWorld uc.text.fold} {res : o.Res}
    (h : a.Exec uc.hashRefreshToken o x res x') : x'.db.creds = x.db.creds := by
  rcases h.1.db with hdb | ⟨s, rfl, hdb⟩ <;> rw [hdb]
  exact AuthSql.run_creds _ _ ho

theorem Quiet.runs {a : Argon2} {β : Type} {p : AuthProg β} (hp : p.All Quiet) {x x' : AuthWorld uc.text.fold} {b : β}
    (h : p.Runs (a.Exec uc.hashRefreshToken) x b x') : x'.db.creds = x.db.creds :=
  Prog.All.runs (R := fun x x' : AuthWorld uc.text.fold => x'.db.creds = x.db.creds) (fun _ => rfl)
    (fun _ _ _ hab hbc => hbc.trans hab) (fun _ _ _ _ ho he => Quiet.creds uc ho he) hp h

/-- A user that is made leaves the account of the registration. -/
theorem registerUser_creds {a : Argon2} {inp : RegisterInput} {userID : String} {res : AuthResult}
    (h : (uc.registerUser inp userID).Runs (a.Exec uc.hashRefreshToken) w (.ok res) w') :
    w'.db.creds = w.db.creds ∧ res.userID = userID := by
  simp only [registerUser, Prog.bind_eq, Prog.perform_bind, Prog.pure_eq] at h
  obtain ⟨created, w₁, ⟨⟨env, -, -, -, hcreated⟩, -⟩, h⟩ := h
  obtain ⟨hanswer, rfl⟩ := Prod.mk.inj hcreated
  cases created with
  | error err =>
    obtain ⟨_, w₂, -, h⟩ := h
    dsimp only at h
    split at h
    · cases h.1
    · split at h <;> cases h.1
  | ok userResp =>
    have huser : userResp.id = userID := by
      cases hask : env.createUser with
      | error err =>
        rw [hask] at hanswer
        cases hanswer
      | ok _ =>
        rw [hask] at hanswer
        cases hanswer
        rfl
    obtain ⟨made, w₂, hmade, h⟩ := (Prog.runs_bind _ _ _ _ _ _).1 h
    have hpair : w₂.db.creds = w.db.creds := Quiet.runs uc (uc.generateTokenPair_quiet _ _ _) hmade
    cases made with
    | error err => cases h.1
    | ok tokens =>
      generalize hp : uc.sendVerificationEmail userResp.id inp.email = p at h
      dsimp only at h
      by_cases hrole : inp.role = "master" ∨ inp.role = "venue_owner"
      · rw [if_pos hrole] at h
        obtain ⟨_, w₃, hmail, h⟩ := (Prog.runs_bind _ _ _ _ _ _).1 h
        obtain ⟨hres, rfl⟩ := h
        cases hres
        exact ⟨(Quiet.runs uc (uc.sendVerificationEmail_quiet hp) hmail).trans hpair, huser⟩
      · rw [if_neg hrole] at h
        obtain ⟨hres, rfl⟩ := h
        cases hres
        exact ⟨hpair, huser⟩

/-- **A registration leaves the hash of the very password.** -/
theorem register_row {a : Argon2} {inp : RegisterInput} {p : AuthProg (Except Err AuthResult)} (hp : uc.register inp = p)
    {res : AuthResult} (h : p.Runs (a.Exec uc.hashRefreshToken) w (.ok res) w') :
    ∃ r ∈ w'.db.creds.rows, r.userID = res.userID ∧ uc.text.fold r.email = uc.text.normalize inp.email ∧
      ∃ salt, r.passwordHash = some (a.hashPassword salt inp.password) := by
  subst hp
  cases hvalid : uc.validateRegisterInput inp with
  | error err =>
    simp only [register, Prog.pure_eq, hvalid] at h
    cases h.1
  | ok inp' =>
    simp only [register, Prog.bind_eq, Prog.perform_bind, Prog.pure_eq, hvalid] at h
    obtain ⟨hemail, hpassword, -⟩ := uc.validateRegisterInput_ok hvalid
    obtain ⟨hashed, w₁, hhash, h⟩ := h
    cases hashed with
    | error err => cases h.1
    | ok hash =>
      obtain ⟨salt, -, rfl⟩ : ∃ salt : List UInt8, salt.length = defaultParams.saltLen ∧ hash = a.hashPassword salt inp'.password :=
        hhash.2
      obtain ⟨userID, w₂, -, stored, w₃, hstored, h⟩ := h
      cases stored with
      | error err =>
        dsimp only at h
        split at h
        · cases h.1
        · split at h <;> cases h.1
      | ok _ =>
        obtain ⟨hcreds, huser⟩ := uc.registerUser_creds h
        have hrun := hstored.1.ok
        simp only [AuthSql.run, CredentialRepo.create, CredentialRepo.insertRow] at hrun
        split at hrun
        · rename_i creds hinsert
          obtain ⟨-, hdb⟩ := Prod.mk.inj hrun
          have hmem : CredentialRepo.passwordRow
              { userID := userID, email := inp'.email, passwordHash := a.hashPassword salt inp'.password,
                consentVersion := currentConsentVersion } ∈ w'.db.creds.rows := by
            rw [hcreds, ← hdb, Table.insert_rows hinsert]
            exact List.mem_append_right _ (List.mem_singleton.2 rfl)
          refine ⟨_, hmem, huser.symm, ?_, salt, by rw [← hpassword]; rfl⟩
          show uc.text.fold inp'.email = _
          rw [hemail, uc.text.fold_normalize]
        · cases hrun

/-- **A reset leaves the hash of the password without the spaces around it.** -/
theorem completePasswordReset_row {a : Argon2} {rawToken newPassword : String}
    (h : (uc.completePasswordReset rawToken newPassword).Runs (a.Exec uc.hashRefreshToken) w (.ok ()) w') :
    ∃ t ∈ (w.db.tokens .passwordReset).rows, t.tokenHash = uc.hashRefreshToken (trimSpace rawToken) ∧
      ∃ r ∈ w'.db.creds.rows, r.userID = t.userID ∧ ∃ salt, r.passwordHash = some (a.hashPassword salt (trimSpace newPassword)) := by
  unfold completePasswordReset at h
  generalize trimSpace rawToken = raw at h ⊢
  generalize trimSpace newPassword = password at h ⊢
  dsimp only at h
  by_cases hempty : raw = "" ∨ password = ""
  · rw [if_pos hempty] at h
    cases h.1
  rw [if_neg hempty] at h
  cases hchecked : uc.validateAccountPassword password with
  | error err =>
    rw [hchecked] at h
    cases h.1
  | ok _ =>
    rw [hchecked] at h
    dsimp only at h
    by_cases hconfigured : uc.resetTokens = false
    · rw [if_pos hconfigured] at h
      cases h.1
    rw [if_neg hconfigured] at h
    obtain ⟨consumed, w₁, hconsumed, h⟩ := h
    cases consumed with
    | error err =>
      simp only [Prog.bind_ret] at h
      split at h <;> cases h.1
    | ok userID =>
      obtain ⟨hashed, w₂, hhash, h⟩ := h
      cases hashed with
      | error err => cases h.1
      | ok hash =>
        obtain ⟨salt, -, rfl⟩ : ∃ salt : List UInt8, salt.length = defaultParams.saltLen ∧ hash = a.hashPassword salt password :=
          hhash.2
        obtain ⟨updated, w₃, hupdated, h⟩ := h
        cases updated with
        | error err => cases h.1
        | ok _ =>
          obtain ⟨revoked, w₄, hrevoked, h⟩ := h
          cases revoked with
          | error err => cases h.1
          | ok _ =>
            obtain ⟨-, rfl⟩ := h
            have hlast : w'.db.creds = w₃.db.creds := Quiet.creds uc (o := .sql (.deleteRefreshByUserID userID)) rfl hrevoked
            have hconsume := hconsumed.1.ok
            have hupdate := hupdated.1.ok
            simp only [AuthSql.run, TokenRepo.consumeByTokenHash] at hconsume
            simp only [AuthSql.run, CredentialRepo.updatePasswordHash, CredentialRepo.updateRow] at hupdate
            split at hconsume
            · rename_i t rows hget hrows
              obtain ⟨huser, -⟩ := Prod.mk.inj hconsume
              obtain ⟨ht, hlink⟩ := Table.get_mem hget
              simp only [Bool.and_eq_true, beq_iff_eq] at hlink
              split at hupdate
              · cases hupdate
              · rename_i creds hcreds
                obtain ⟨hfound, hdb⟩ := Prod.mk.inj hupdate
                split at hfound
                · rename_i hsome
                  obtain ⟨r, hr⟩ := Option.isSome_iff_exists.1 hsome
                  obtain ⟨hmem, huserID⟩ := Table.get_mem hr
                  have hrow : { r with passwordHash := some (a.hashPassword salt password) } ∈ w'.db.creds.rows := by
                    rw [hlast, ← hdb, Table.update_rows hcreds]
                    refine List.mem_map.2 ⟨r, hmem, ?_⟩
                    rw [if_pos huserID]
                  exact ⟨t, ht, hlink.1.1, _, hrow, (beq_iff_eq.1 huserID).trans (Except.ok.inj huser).symm, salt, rfl⟩
                · cases hfound
            · cases hconsume
            · cases hconsume

/-- **A registered password logs in, and alone; a password that has been reset does so exactly if no space is around it.** -/
theorem password_round_trip (a : Argon2) (ha : uc.verifyPassword = a.verifyPassword) (w w' : AuthWorld uc.text.fold) :
    (∀ inp res, (uc.register inp).Runs (a.Exec uc.hashRefreshToken) w (.ok res) w' → a.NoCollision inp.password →
      ∃ r ∈ w'.db.creds.rows, r.userID = res.userID ∧ ∀ later : AuthWorld uc.text.fold, r ∈ later.db.creds.rows →
        ∀ email, uc.text.normalize email = uc.text.normalize inp.email → uc.LogsIn email inp.password later) ∧
    (∀ rawToken newPassword, (uc.completePasswordReset rawToken newPassword).Runs (a.Exec uc.hashRefreshToken) w (.ok ()) w' →
      a.NoCollision (trimSpace newPassword) →
      ∃ t ∈ (w.db.tokens .passwordReset).rows, t.tokenHash = uc.hashRefreshToken (trimSpace rawToken) ∧
        ∃ r ∈ w'.db.creds.rows, r.userID = t.userID ∧ ∀ later : AuthWorld uc.text.fold, r ∈ later.db.creds.rows →
          ∀ email, uc.text.normalize email = uc.text.fold r.email → (∃ env : AuthEnv, env.Serves uc.hashRefreshToken later) →
            (uc.LogsIn email newPassword later ↔ trimSpace newPassword = newPassword)) := by
  constructor
  · intro inp res
    generalize hp : uc.register inp = p
    intro h hno
    obtain ⟨r, hr, huser, hemail, salt, hhash⟩ := uc.register_row hp h
    exact ⟨r, hr, huser, fun later hlater email hsame => (uc.logsIn_stored a ha hlater (hemail.trans hsame.symm) hhash hno).1⟩
  · intro rawToken newPassword h hno
    obtain ⟨t, ht, hlink, r, hr, huser, salt, hhash⟩ := uc.completePasswordReset_row h
    refine ⟨t, ht, hlink, r, hr, huser, fun later hlater email hsame henv => ?_⟩
    obtain ⟨hlogs, honly⟩ := uc.logsIn_stored a ha hlater hsame.symm hhash hno
    constructor
    · exact honly newPassword henv
    · intro heq
      rwa [heq] at hlogs

end AuthUseCase

/-! ## A link that is used -/

/-- A key that tells two passwords from the others. -/
def oneKey : Argon2 where
  idKey password _ _ _ _ keyLen :=
    List.replicate keyLen (if password = "Password1" then 1 else if password = "Password1 " then 2 else 0)
  length_idKey _ _ _ _ _ _ := List.length_replicate

def keyedAuth : AuthUseCase := { plainAuth with verifyPassword := oneKey.verifyPassword }

def annsLink : TokenRow := ⟨firstUser, "t", 3600, none⟩

def linkWorld : AuthWorld keyedAuth.text.fold :=
  { annsWorld with db := { annsWorld.db with tokens := fun _ => ⟨[annsLink], by decide, by simp⟩ } }

theorem oneKey_noCollision : oneKey.NoCollision "Password1" ∧ oneKey.NoCollision "Password1 " := by
  constructor <;> intro salt other h <;> by_contra hne
  · simp only [Argon2.key, oneKey, if_neg hne] at h
    by_cases hspace : other = "Password1 "
    · rw [hspace] at h
      exact absurd h (by decide)
    · rw [if_neg hspace] at h
      exact absurd h (by decide)
  · simp only [Argon2.key, oneKey, if_neg hne] at h
    by_cases hplain : other = "Password1"
    · rw [hplain] at h
      exact absurd h (by decide)
    · rw [if_neg hplain] at h
      exact absurd h (by decide)

def keyedEnv : AuthEnv := { authEnv secondUser "s1" with passwordHash := .ok (oneKey.hashPassword (List.replicate 16 0) "Password1") }

theorem keyedEnv_exec {o : AuthOp} {w w' : AuthWorld keyedAuth.text.fold} {r : o.Res} (hn : secondUser ∉ w.issued)
    (hs : w.secrets = []) (ho : oneKey.Hashes o r) (h : o.run keyedEnv w = (r, w')) :
    oneKey.Exec keyedAuth.hashRefreshToken o w r w' := by
  refine ⟨⟨keyedEnv, by decide, hn, fun raw _ raw' hmem => ?_, h⟩, ho⟩
  rw [hs] at hmem
  cases hmem

def resetRow : CredentialRow := { annsRow with passwordHash := some (oneKey.hashPassword (List.replicate 16 0) "Password1") }

/-- The operations with the answers of the environment, where what it draws is new. -/
def keyedStep (o : AuthOp) (w : AuthWorld keyedAuth.text.fold) : Option (o.Res × AuthWorld keyedAuth.text.fold) :=
  if secondUser ∉ w.issued ∧ w.secrets = [] then
    match o with
    | .hashPassword password => if password = "Password1" then some ((AuthOp.hashPassword password).run keyedEnv w) else none
    | o => some (o.run keyedEnv w)
  else none

theorem keyedStep_exec (o : AuthOp) (w : AuthWorld keyedAuth.text.fold) (r : o.Res) (w' : AuthWorld keyedAuth.text.fold)
    (h : keyedStep o w = some (r, w')) : oneKey.Exec keyedAuth.hashRefreshToken o w r w' := by
  unfold keyedStep at h
  by_cases hnew : secondUser ∉ w.issued ∧ w.secrets = []
  · rw [if_pos hnew] at h
    cases o with
    | hashPassword password =>
      dsimp only at h
      by_cases hp : password = "Password1"
      · rw [if_pos hp] at h
        have hrun := Option.some.inj h
        refine keyedEnv_exec hnew.1 hnew.2 ?_ hrun
        obtain ⟨rfl, -⟩ := Prod.mk.inj hrun
        exact ⟨List.replicate 16 0, rfl, by rw [hp]⟩
      · rw [if_neg hp] at h
        cases h
    | _ => exact keyedEnv_exec hnew.1 hnew.2 trivial (Option.some.inj h)
  · rw [if_neg hnew] at h
    cases h

/-- The reset is done, and no session is left. -/
def resetDone : Option (Except Err Unit × AuthWorld keyedAuth.text.fold) → Bool
  | some (.ok (), w) => decide (w.db.creds.rows = [resetRow]) && decide (w.db.refresh.rows = [])
  | _ => false

/-- A reset, with or without a space behind the password. -/
theorem annsReset_runs {newPassword : String} (h : trimSpace newPassword = "Password1") : ∃ w' : AuthWorld keyedAuth.text.fold,
    (keyedAuth.completePasswordReset "t" newPassword).Runs (oneKey.Exec keyedAuth.hashRefreshToken) linkWorld (.ok ()) w' ∧
      w'.db.creds.rows = [resetRow] ∧ ∃ env : AuthEnv, env.Serves keyedAuth.hashRefreshToken w' := by
  have hsame : keyedAuth.completePasswordReset "t" newPassword = keyedAuth.completePasswordReset "t" "Password1" := by
    have hkept : trimSpace "Password1" = "Password1" := by decide +kernel
    unfold AuthUseCase.completePasswordReset
    rw [h, hkept]
  have hdone : resetDone ((keyedAuth.completePasswordReset "t" "Password1").tryRun keyedStep linkWorld) = true := by decide +kernel
  rw [← hsame] at hdone
  generalize hplay : (keyedAuth.completePasswordReset "t" newPassword).tryRun keyedStep linkWorld = played at hdone
  match played, hdone with
  | some (.ok (), w'), hdone =>
    simp only [resetDone, Bool.and_eq_true, decide_eq_true_eq] at hdone
    refine ⟨w', Prog.runs_of_tryRun keyedStep_exec hplay, hdone.1, authEnv secondUser "s1", ⟨by decide, ?_⟩, ⟨"s1", rfl, ?_⟩,
      ⟨_, rfl⟩, rfl, ⟨_, rfl⟩, rfl⟩
    · rw [hdone.1]
      decide
    · rw [hdone.2]
      exact nofun

theorem password_round_trip_ann : ∃ w' : AuthWorld keyedAuth.text.fold, ∃ r ∈ w'.db.creds.rows, r.userID = firstUser ∧
    keyedAuth.LogsIn "ann@example.test" "Password1" w' := by
  have hkept : trimSpace "Password1" = "Password1" := by decide +kernel
  obtain ⟨w', hruns, hrows, henv⟩ := annsReset_runs hkept
  have hno : oneKey.NoCollision (trimSpace "Password1") := by
    rw [hkept]
    exact oneKey_noCollision.1
  obtain ⟨t, ht, -, r, hr, huser, hlogs⟩ := (keyedAuth.password_round_trip oneKey rfl linkWorld w').2 "t" "Password1" hruns hno
  obtain rfl : t = annsLink := List.mem_singleton.1 ht
  obtain rfl : r = resetRow := by
    rw [hrows] at hr
    exact List.mem_singleton.1 hr
  exact ⟨w', resetRow, hr, huser, (hlogs w' hr "ann@example.test" (by decide +kernel) henv).2 hkept⟩

/-- A password that ends in a space is not the one that is reset. -/
theorem space_lost : ¬ ∀ (uc : AuthUseCase) (a : Argon2), uc.verifyPassword = a.verifyPassword →
    ∀ (w w' : AuthWorld uc.text.fold) (rawToken newPassword : String),
      (uc.completePasswordReset rawToken newPassword).Runs (a.Exec uc.hashRefreshToken) w (.ok ()) w' →
      a.NoCollision newPassword → a.NoCollision (trimSpace newPassword) →
      ∀ t ∈ (w.db.tokens .passwordReset).rows, t.tokenHash = uc.hashRefreshToken (trimSpace rawToken) →
        ∀ r ∈ w'.db.creds.rows, r.userID = t.userID → uc.LogsIn r.email newPassword w' := by
  intro hall
  have hkept : trimSpace "Password1 " = "Password1" := by decide +kernel
  obtain ⟨w', hruns, hrows, henv⟩ := annsReset_runs hkept
  have hr : resetRow ∈ w'.db.creds.rows := by
    rw [hrows]
    exact List.mem_singleton.2 rfl
  have hlogs := hall keyedAuth oneKey rfl linkWorld w' "t" "Password1 " hruns oneKey_noCollision.2
    (by rw [hkept]; exact oneKey_noCollision.1) annsLink (List.mem_singleton.2 rfl) (by decide +kernel) resetRow hr rfl
  have hemail : keyedAuth.text.fold resetRow.email = keyedAuth.text.normalize resetRow.email := by decide +kernel
  have honly := (keyedAuth.logsIn_stored oneKey rfl hr hemail rfl oneKey_noCollision.1).2
  exact absurd (honly "Password1 " henv hlogs) (by decide)

end Agregator
