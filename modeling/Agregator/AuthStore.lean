import Agregator.GoBase
import Agregator.RelTable
import Mathlib.Data.List.DropRight
/-!
# AuthStore — accounts, sessions and one-time tokens

The tables of the auth service and the statements on them.  Every function here is one statement.  An email is unique up to
`lower(trim(email))`, an account is one row, and an identity of a provider is on one row at most.
-/
namespace Agregator

open Rel

/-! ## Text -/

/-- The letters as Go and the database know them: `unicode.ToLower`, which is also `lower` of the database, and the classes
the password policy asks for. -/
structure CaseRules where
  toLower : Char → Char
  isLetter : Char → Bool
  isDigit : Char → Bool
  toLower_idem : ∀ c, toLower (toLower c) = toLower c
  toLower_space : ∀ c, toLower c = ' ' → isSpace c = true

namespace CaseRules

variable (t : CaseRules)

/-- `strings.ToLower`. -/
def lower (s : String) : String := String.ofList (s.toList.map t.toLower)

/-- `trim` of the database, which takes off blanks alone. -/
def trimBlanks (s : String) : String :=
  String.ofList ((s.toList.dropWhile (· == ' ')).reverse.dropWhile (· == ' ')).reverse

/-- `lower(trim(email))`. -/
def fold (s : String) : String := t.lower (trimBlanks s)

/-- `strings.ToLower(strings.TrimSpace(email))`. -/
def normalize (s : String) : String := t.lower (trimSpace s)

end CaseRules

theorem dropWhile_of_head {α : Type} {p : α → Bool} {l : List α} (h : ∀ c, l.head? = some c → p c = false) : l.dropWhile p = l := by
  cases l with
  | nil => rfl
  | cons c l => rw [List.dropWhile_cons_of_neg (by simp [h c rfl])]

/-- A trimmed text neither starts nor ends with a space. -/
theorem trimSpace_ends (s : String) : (∀ c, (trimSpace s).toList.head? = some c → isSpace c = false) ∧
    ∀ c, (trimSpace s).toList.reverse.head? = some c → isSpace c = false := by
  have hhead : ∀ (l : List Char) c, (l.dropWhile isSpace).head? = some c → isSpace c = false := by
    intro l c hc
    have := List.head?_dropWhile_not isSpace l
    rw [hc] at this
    simpa using this
  unfold trimSpace
  rw [String.toList_ofList]
  refine ⟨fun c hc => ?_, fun c hc => ?_⟩
  · obtain ⟨rest, hrest⟩ : ((s.toList.dropWhile isSpace).reverse.dropWhile isSpace).reverse <+: s.toList.dropWhile isSpace :=
      List.rdropWhile_prefix isSpace _
    exact hhead s.toList c (by rw [← hrest, List.head?_append, hc]; rfl)
  · rw [List.reverse_reverse] at hc
    exact hhead _ c hc

/-- A text with no space at its ends is trimmed. -/
theorem trimSpace_of_ends {s : String} (hfirst : ∀ c, s.toList.head? = some c → isSpace c = false)
    (hlast : ∀ c, s.toList.reverse.head? = some c → isSpace c = false) : trimSpace s = s := by
  rw [show trimSpace s = String.ofList ((s.toList.dropWhile isSpace).reverse.dropWhile isSpace).reverse from rfl,
    dropWhile_of_head hfirst, dropWhile_of_head hlast, List.reverse_reverse, String.ofList_toList]

theorem trimSpace_trimSpace (s : String) : trimSpace (trimSpace s) = trimSpace s :=
  trimSpace_of_ends (trimSpace_ends s).1 (trimSpace_ends s).2

namespace CaseRules

variable (t : CaseRules)

/-- An email that has been normalised is what the unique index compares. -/
theorem fold_normalize (s : String) : t.fold (t.normalize s) = t.normalize s := by
  obtain ⟨hfirst, hlast⟩ := trimSpace_ends s
  have hblank : ∀ l : List Char, (∀ c, l.head? = some c → isSpace c = false) →
      ∀ c, (l.map t.toLower).head? = some c → (c == ' ') = false := by
    intro l hl c hc
    rw [List.head?_map, Option.map_eq_some_iff] at hc
    obtain ⟨c', hc', rfl⟩ := hc
    rw [beq_eq_false_iff_ne]
    intro he
    exact absurd (t.toLower_space c' he) (by simp [hl c' hc'])
  have htrim : trimBlanks (t.normalize s) = t.normalize s := by
    unfold trimBlanks normalize lower
    rw [String.toList_ofList, dropWhile_of_head (hblank _ hfirst), ← List.map_reverse, dropWhile_of_head (hblank _ hlast),
      ← List.map_reverse, List.reverse_reverse]
  unfold fold
  rw [htrim]
  unfold normalize lower
  rw [String.toList_ofList, List.map_map]
  congr 2
  funext c
  exact t.toLower_idem c

end CaseRules

/-! ## The tables -/

/-- A row of `credentials`. -/
structure CredentialRow where
  userID : String
  email : String
  passwordHash : Option String := none
  provider : Option String := none
  providerID : Option String := none
  emailVerified : Bool := false
  consentVersion : Option String := none
deriving DecidableEq, Repr

/-- The identity of a provider a row carries, if it carries one. -/
def CredentialRow.carries (provider providerID : String) (r : CredentialRow) : Bool :=
  r.provider == some provider && r.providerID == some providerID

structure RefreshToken where
  userID : String
  tokenHash : String
  expiresAt : Time
deriving DecidableEq, Repr

/-- A row of `password_reset_tokens` or of `email_verification_tokens`. -/
structure TokenRow where
  userID : String
  tokenHash : String
  expiresAt : Time
  usedAt : Option Time := none
deriving DecidableEq, Repr

/-- `fold` is `lower(trim(email))`. -/
def credentialSchema (fold : String → String) : Schema CredentialRow where
  check r := isUUID r.userID && decide (r.email.length ≤ 255) && r.provider.all (decide <| ·.length ≤ 50) &&
    r.providerID.all (decide <| ·.length ≤ 255)
  clash a b := a.userID == b.userID || fold a.email == fold b.email ||
    (a.provider.isSome && a.providerID.isSome && a.provider == b.provider && a.providerID == b.providerID)
  clash_comm a b := by
    rw [Bool.beq_comm (a := a.userID), Bool.beq_comm (a := fold a.email), Bool.beq_comm (a := a.provider),
      Bool.beq_comm (a := a.providerID)]
    grind

def refreshTokenSchema : Schema RefreshToken where
  check r := isUUID r.userID
  clash a b := a.tokenHash == b.tokenHash
  clash_comm _ _ := Bool.beq_comm

def tokenSchema : Schema TokenRow where
  check r := isUUID r.userID
  clash a b := a.tokenHash == b.tokenHash
  clash_comm _ _ := Bool.beq_comm

/-- The two tables of one-time tokens. -/
inductive TokenTable where
  | passwordReset
  | emailVerification
deriving DecidableEq, Repr

structure AuthDB (fold : String → String) where
  creds : Table (credentialSchema fold)
  refresh : Table refreshTokenSchema
  tokens : TokenTable → Table tokenSchema

/-! ## Errors -/

/-- An error of the database, by its `SQLState`, or one with a status. -/
inductive StoreErr where
  | pg (sqlState : String)
  | status (err : Err)
deriving DecidableEq, Repr

namespace StoreErr

def notFound (msg : String) : StoreErr := .status (.status .notFound msg)

def isNotFound : StoreErr → Bool
  | status err => err.code == .notFound
  | pg _ => false

def isAlreadyExists : StoreErr → Bool
  | status err => err.code == .alreadyExists
  | pg _ => false

def isPgUniqueViolation : StoreErr → Bool
  | pg sqlState => sqlState == "23505"
  | status _ => false

/-- What a caller sees. -/
def toErr : StoreErr → Err
  | pg sqlState => .plain ("ERROR: (SQLSTATE " ++ sqlState ++ ")")
  | status err => err

def ofViolation : Violation → StoreErr
  | .check => .pg "22001"
  | .unique => .pg "23505"

end StoreErr

/-! ## Accounts -/

/-- `domain.Credential`: what a query does not select is unset. -/
structure Credential where
  userID : String
  email : String
  passwordHash : String := ""
  provider : String := ""
  providerID : String := ""
  emailVerified : Bool := false
  consentVersion : String := ""
deriving DecidableEq, Repr

namespace CredentialRepo

variable {fold : String → String}

/-- `NULLIF(s, '')`. -/
def nullIf (s : String) : Option String := if s = "" then none else some s

def insertRow (r : CredentialRow) (db : AuthDB fold) : Except StoreErr Unit × AuthDB fold :=
  match db.creds.insert r with
  | .ok creds => (.ok (), { db with creds := creds })
  | .error v => (.error (.ofViolation v), db)

/-- The columns `Create` writes. -/
def passwordRow (cred : Credential) : CredentialRow where
  userID := cred.userID
  email := cred.email
  passwordHash := some cred.passwordHash
  consentVersion := nullIf cred.consentVersion

/-- The columns `CreateOAuth` writes. -/
def oauthRow (cred : Credential) : CredentialRow where
  userID := cred.userID
  email := cred.email
  provider := some cred.provider
  providerID := some cred.providerID
  emailVerified := cred.emailVerified

def create (cred : Credential) (db : AuthDB fold) : Except StoreErr Unit × AuthDB fold := insertRow (passwordRow cred) db

def createOAuth (cred : Credential) (db : AuthDB fold) : Except StoreErr Unit × AuthDB fold := insertRow (oauthRow cred) db

/-- The tokens of an account go with it. -/
def deleteByUserID (userID : String) (db : AuthDB fold) : Except StoreErr Unit × AuthDB fold :=
  (.ok (), { db with
    creds := db.creds.delete (·.userID == userID)
    tokens := fun table => (db.tokens table).delete (·.userID == userID) })

def found (sel : CredentialRow → Credential) : Option CredentialRow → Except StoreErr Credential
  | some r => .ok (sel r)
  | none => .error (.notFound "credential not found")

/-- The columns `GetByEmail` and `GetByUserID` select. -/
def account (r : CredentialRow) : Credential where
  userID := r.userID
  email := r.email
  passwordHash := r.passwordHash.getD ""
  emailVerified := r.emailVerified

/-- The columns `GetByProvider` selects. -/
def linked (r : CredentialRow) : Credential where
  userID := r.userID
  email := r.email
  passwordHash := r.passwordHash.getD ""
  provider := r.provider.getD ""
  providerID := r.providerID.getD ""

def getByEmail (email : String) (db : AuthDB fold) : Except StoreErr Credential :=
  found account (db.creds.get fun r => fold r.email == email)

def getByUserID (userID : String) (db : AuthDB fold) : Except StoreErr Credential :=
  found account (db.creds.get (·.userID == userID))

def getByProvider (provider providerID : String) (db : AuthDB fold) : Except StoreErr Credential :=
  found linked (db.creds.get (·.carries provider providerID))

/-- An `UPDATE` of one account. -/
def updateRow (p : CredentialRow → Bool) (f : CredentialRow → CredentialRow) (missing : String) (db : AuthDB fold) :
    Except StoreErr Unit × AuthDB fold :=
  match db.creds.update p f with
  | .error v => (.error (.ofViolation v), db)
  | .ok creds => (if (db.creds.get p).isSome then .ok () else .error (.notFound missing), { db with creds := creds })

def updatePasswordHash (userID passwordHash : String) (db : AuthDB fold) : Except StoreErr Unit × AuthDB fold :=
  updateRow (·.userID == userID) (fun r => { r with passwordHash := some passwordHash }) "credential not found" db

def setEmailVerified (userID : String) (verified : Bool) (db : AuthDB fold) : Except StoreErr Unit × AuthDB fold :=
  updateRow (·.userID == userID) (fun r => { r with emailVerified := verified }) "credential not found" db

def promoteOAuthEmail (userID email : String) (db : AuthDB fold) : Except StoreErr Unit × AuthDB fold :=
  updateRow (fun r => r.userID == userID && r.email == "") (fun r => { r with email := email })
    "credential not found or email already set" db

end CredentialRepo

/-! ## Sessions -/

namespace RefreshTokenRepo

variable {fold : String → String}

def create (token : RefreshToken) (db : AuthDB fold) : Except StoreErr Unit × AuthDB fold :=
  match db.refresh.insert token with
  | .ok refresh => (.ok (), { db with refresh := refresh })
  | .error v => (.error (.ofViolation v), db)

def consumeByHash (tokenHash : String) (db : AuthDB fold) : Except StoreErr RefreshToken × AuthDB fold :=
  match db.refresh.get (·.tokenHash == tokenHash) with
  | none => (.error (.notFound "refresh token not found"), db)
  | some r => (.ok r, { db with refresh := db.refresh.delete (·.tokenHash == tokenHash) })

def deleteByUserID (userID : String) (db : AuthDB fold) : Except StoreErr Unit × AuthDB fold :=
  (.ok (), { db with refresh := db.refresh.delete (·.userID == userID) })

def deleteByHash (tokenHash : String) (db : AuthDB fold) : Except StoreErr Unit × AuthDB fold :=
  (if (db.refresh.get (·.tokenHash == tokenHash)).isSome then .ok () else .error (.notFound "refresh token not found"),
    { db with refresh := db.refresh.delete (·.tokenHash == tokenHash) })

end RefreshTokenRepo

/-! ## One-time tokens -/

namespace TokenRepo

variable {fold : String → String}

def setTable (table : TokenTable) (rows : Table tokenSchema) (db : AuthDB fold) : AuthDB fold :=
  { db with tokens := Function.update db.tokens table rows }

def invalidateUnusedByUserID (table : TokenTable) (userID : String) (db : AuthDB fold) : Except StoreErr Unit × AuthDB fold :=
  (.ok (), setTable table ((db.tokens table).delete fun r => r.userID == userID && r.usedAt.isNone) db)

/-- The token of an account there is. -/
def create (table : TokenTable) (userID tokenHash : String) (expiresAt : Time) (db : AuthDB fold) :
    Except StoreErr Unit × AuthDB fold :=
  match (db.tokens table).insert { userID := userID, tokenHash := tokenHash, expiresAt := expiresAt } with
  | .error v => (.error (.ofViolation v), db)
  | .ok rows =>
    if (db.creds.get (·.userID == userID)).isSome then (.ok (), setTable table rows db) else (.error (.pg "23503"), db)

def notFoundMsg : TokenTable → String
  | .passwordReset => "reset token invalid or expired"
  | .emailVerification => "verification token invalid or expired"

def consumeByTokenHash (table : TokenTable) (now : Time) (tokenHash : String) (db : AuthDB fold) :
    Except StoreErr String × AuthDB fold :=
  let p (r : TokenRow) : Bool := r.tokenHash == tokenHash && r.usedAt.isNone && decide (now < r.expiresAt)
  match (db.tokens table).get p, (db.tokens table).update p fun r => { r with usedAt := some now } with
  | some r, .ok rows => (.ok r.userID, setTable table rows db)
  | some _, .error v => (.error (.ofViolation v), db)
  | none, _ => (.error (.notFound (notFoundMsg table)), db)

end TokenRepo

/-! ## The statements -/

inductive AuthSql where
  | createCredential (cred : Credential)
  | createOAuth (cred : Credential)
  | deleteCredential (userID : String)
  | getByEmail (email : String)
  | getByUserID (userID : String)
  | getByProvider (provider providerID : String)
  | updatePasswordHash (userID passwordHash : String)
  | setEmailVerified (userID : String) (verified : Bool)
  | promoteOAuthEmail (userID email : String)
  | createRefresh (token : RefreshToken)
  | consumeByHash (tokenHash : String)
  | deleteRefreshByUserID (userID : String)
  | deleteRefreshByHash (tokenHash : String)
  | invalidateUnusedByUserID (table : TokenTable) (userID : String)
  | createToken (table : TokenTable) (userID tokenHash : String) (expiresAt : Time)
  | consumeByTokenHash (table : TokenTable) (tokenHash : String)
deriving DecidableEq, Repr

namespace AuthSql

@[reducible] def Ans : AuthSql → Type
  | getByEmail _ | getByUserID _ | getByProvider _ _ => Credential
  | consumeByHash _ => RefreshToken
  | consumeByTokenHash _ _ => String
  | _ => Unit

/-- A statement, at a time. -/
def run {fold : String → String} (now : Time) : (s : AuthSql) → AuthDB fold → Except StoreErr s.Ans × AuthDB fold
  | createCredential cred, db => CredentialRepo.create cred db
  | createOAuth cred, db => CredentialRepo.createOAuth cred db
  | deleteCredential userID, db => CredentialRepo.deleteByUserID userID db
  | getByEmail email, db => (CredentialRepo.getByEmail email db, db)
  | getByUserID userID, db => (CredentialRepo.getByUserID userID db, db)
  | getByProvider provider providerID, db => (CredentialRepo.getByProvider provider providerID db, db)
  | updatePasswordHash userID passwordHash, db => CredentialRepo.updatePasswordHash userID passwordHash db
  | setEmailVerified userID verified, db => CredentialRepo.setEmailVerified userID verified db
  | promoteOAuthEmail userID email, db => CredentialRepo.promoteOAuthEmail userID email db
  | createRefresh token, db => RefreshTokenRepo.create token db
  | consumeByHash tokenHash, db => RefreshTokenRepo.consumeByHash tokenHash db
  | deleteRefreshByUserID userID, db => RefreshTokenRepo.deleteByUserID userID db
  | deleteRefreshByHash tokenHash, db => RefreshTokenRepo.deleteByHash tokenHash db
  | invalidateUnusedByUserID table userID, db => TokenRepo.invalidateUnusedByUserID table userID db
  | createToken table userID tokenHash expiresAt, db => TokenRepo.create table userID tokenHash expiresAt db
  | consumeByTokenHash table tokenHash, db => TokenRepo.consumeByTokenHash table now tokenHash db

/-! ### What a statement leaves as it is -/

def writesAccounts : AuthSql → Bool
  | createCredential _ | createOAuth _ | deleteCredential _ | updatePasswordHash _ _ | setEmailVerified _ _
  | promoteOAuthEmail _ _ => true
  | _ => false

def writesSessions : AuthSql → Bool
  | createRefresh _ | consumeByHash _ | deleteRefreshByUserID _ | deleteRefreshByHash _ => true
  | _ => false

def writesLinks : AuthSql → Bool
  | deleteCredential _ | invalidateUnusedByUserID _ _ | createToken _ _ _ _ | consumeByTokenHash _ _ => true
  | _ => false

variable {fold : String → String} (now : Time) (db : AuthDB fold)

theorem run_creds {s : AuthSql} (h : s.writesAccounts = false) : (s.run now db).2.creds = db.creds := by
  cases s with
  | createCredential | createOAuth | deleteCredential | updatePasswordHash | setEmailVerified | promoteOAuthEmail => cases h
  | getByEmail | getByUserID | getByProvider | deleteRefreshByUserID | deleteRefreshByHash | invalidateUnusedByUserID => rfl
  | createRefresh token =>
    simp only [run, RefreshTokenRepo.create]
    split <;> rfl
  | consumeByHash tokenHash =>
    simp only [run, RefreshTokenRepo.consumeByHash]
    split <;> rfl
  | createToken table userID tokenHash expiresAt =>
    simp only [run, TokenRepo.create]
    split
    · rfl
    · split <;> rfl
  | consumeByTokenHash table tokenHash =>
    simp only [run, TokenRepo.consumeByTokenHash]
    split <;> rfl

theorem insertRow_rest (r : CredentialRow) : (CredentialRepo.insertRow r db).2.refresh = db.refresh ∧
    (CredentialRepo.insertRow r db).2.tokens = db.tokens := by
  unfold CredentialRepo.insertRow
  split <;> exact ⟨rfl, rfl⟩

theorem updateRow_rest (p : CredentialRow → Bool) (f : CredentialRow → CredentialRow) (missing : String) :
    (CredentialRepo.updateRow p f missing db).2.refresh = db.refresh ∧
      (CredentialRepo.updateRow p f missing db).2.tokens = db.tokens := by
  unfold CredentialRepo.updateRow
  split <;> exact ⟨rfl, rfl⟩

theorem run_refresh {s : AuthSql} (h : s.writesSessions = false) : (s.run now db).2.refresh = db.refresh := by
  cases s with
  | createRefresh | consumeByHash | deleteRefreshByUserID | deleteRefreshByHash => cases h
  | getByEmail | getByUserID | getByProvider | deleteCredential | invalidateUnusedByUserID => rfl
  | createCredential | createOAuth => exact (insertRow_rest db _).1
  | updatePasswordHash | setEmailVerified | promoteOAuthEmail => exact (updateRow_rest db _ _ _).1
  | createToken table userID tokenHash expiresAt =>
    simp only [run, TokenRepo.create]
    split
    · rfl
    · split <;> rfl
  | consumeByTokenHash table tokenHash =>
    simp only [run, TokenRepo.consumeByTokenHash]
    split <;> rfl

theorem run_tokens {s : AuthSql} (h : s.writesLinks = false) : (s.run now db).2.tokens = db.tokens := by
  cases s with
  | deleteCredential | invalidateUnusedByUserID | createToken | consumeByTokenHash => cases h
  | getByEmail | getByUserID | getByProvider | deleteRefreshByUserID | deleteRefreshByHash => rfl
  | createCredential | createOAuth => exact (insertRow_rest db _).2
  | updatePasswordHash | setEmailVerified | promoteOAuthEmail => exact (updateRow_rest db _ _ _).2
  | createRefresh token =>
    simp only [run, RefreshTokenRepo.create]
    split <;> rfl
  | consumeByHash tokenHash =>
    simp only [run, RefreshTokenRepo.consumeByHash]
    split <;> rfl

end AuthSql

end Agregator
