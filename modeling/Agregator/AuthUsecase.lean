import Agregator.AuthStore
import Agregator.ConcProg
/-!
# AuthUsecase — registration, logins, sessions and one-time links

The calls of the auth service as programs over their statements and their requests.  The hash of a password, the signature of
an access token and the secrets that are drawn are answers of the environment.
-/
namespace Agregator

open Rel Conc

/-! ## The operations -/

/-- The subset of a user that the auth service needs. -/
structure UserRecord where
  id : String
  email : String
  role : String
deriving DecidableEq, Repr

structure CreateUserInput where
  id : String
  email : String
  phone : String
  name : String
  role : String
deriving DecidableEq, Repr

/-- A statement, or what is asked of others. -/
inductive AuthOp where
  | sql (s : AuthSql)
  | now
  | newUUID
  | generateAccessToken (userID email role : String)
  | generateRefreshToken
  | hashPassword (password : String)
  | createUser (inp : CreateUserInput)
  | getUser (userID : String)
  | sendLink (table : TokenTable) (toEmail rawToken : String)
deriving DecidableEq

namespace AuthOp

@[reducible] def Res : AuthOp → Type
  | sql s => Except StoreErr s.Ans
  | now => Time
  | newUUID => String
  | generateAccessToken _ _ _ | generateRefreshToken | hashPassword _ => Except Err String
  | createUser _ | getUser _ => Except Err UserRecord
  | sendLink _ _ _ => Except Err Unit

end AuthOp

abbrev AuthProg := Prog AuthOp AuthOp.Res

abbrev AuthOp.call (o : AuthOp) : AuthProg o.Res := Prog.perform o

abbrev AuthSql.query (s : AuthSql) : AuthProg (Except StoreErr s.Ans) := Prog.perform (AuthOp.sql s)

open AuthOp (call)

open AuthSql (query)

/-- A flag says whether the mailer or the repository is configured. -/
structure AuthUseCase where
  text : CaseRules
  hashRefreshToken : String → String
  verifyPassword : String → String → Bool
  dummyPasswordHash : String
  resetMail : Bool
  resetTokens : Bool
  resetTTL : Time
  verifyMail : Bool
  verifyTokens : Bool
  verifyTTL : Time
  refreshTTL : Time

/-- The accounts and the tokens, unique as the text rules have it. -/
abbrev AuthUseCase.DB (uc : AuthUseCase) := AuthDB uc.text.fold

def Err.ofInvalidArgument (msg : String) : Err := .status .invalidArgument msg

def Err.ofInternal (msg : String) : Err := .status .internal msg

def Err.ofUnauthenticated (msg : String) : Err := .status .unauthenticated msg

namespace AuthUseCase

variable (uc : AuthUseCase)

/-! ## The checks of an input -/

def minAccountPasswordLen : ℕ := 8

/-- The length is in bytes; a character that is a letter is not looked at as a digit. -/
def validateAccountPassword (password : String) : Except Err Unit :=
  if password.utf8ByteSize < minAccountPasswordLen then
    .error (.ofInvalidArgument ("password must be at least " ++ toString minAccountPasswordLen ++ " characters"))
  else if password.toList.any uc.text.isLetter && password.toList.any fun c => !uc.text.isLetter c && uc.text.isDigit c then .ok ()
  else .error (.ofInvalidArgument "password must contain at least one letter and one digit")

structure RegisterInput where
  email : String
  phone : String
  password : String
  name : String
  role : String
deriving DecidableEq, Repr

def selfRegistrationRoles : List String := ["user", "master", "venue_owner"]

/-- The input as the checks leave it. -/
def validateRegisterInput (inp : RegisterInput) : Except Err RegisterInput :=
  let email := uc.text.normalize inp.email
  if email = "" then .error (.ofInvalidArgument "email is required")
  else if email.toList.contains '@' = false then .error (.ofInvalidArgument "email is invalid")
  else
    match uc.validateAccountPassword inp.password with
    | .error err => .error err
    | .ok () =>
      let name := trimSpace inp.name
      if name = "" then .error (.ofInvalidArgument "name is required")
      else
        let role := uc.text.normalize inp.role
        let role := if role = "" then "user" else role
        if role ∈ selfRegistrationRoles then .ok { inp with email := email, name := name, role := role }
        else .error (.ofInvalidArgument "role is not allowed for self-registration")

def normalizeAccountEmail (email : String) : String := trimSpace (uc.text.lower email)

def accountCredentialHasPassword (cred : Credential) : Bool := trimSpace cred.passwordHash != ""

/-! ## Tokens -/

structure TokenPair where
  accessToken : String
  refreshToken : String
deriving DecidableEq, Repr

def generateTokenPair (userID email role : String) : AuthProg (Except Err TokenPair) := do
  match ← call (.generateAccessToken userID email role) with
  | .error _ => return .error (.ofInternal "failed to generate access token")
  | .ok accessToken =>
    match ← call .generateRefreshToken with
    | .error _ => return .error (.ofInternal "failed to generate refresh token")
    | .ok rawRefresh =>
      let now ← call .now
      match ← query (.createRefresh ⟨userID, uc.hashRefreshToken rawRefresh, now + uc.refreshTTL⟩) with
      | .error err => return .error (err.toErr.wrap "store refresh token")
      | .ok () => return .ok ⟨accessToken, rawRefresh⟩

/-- Issues a link of one of the two kinds, after the links that were not used. -/
def issueLink (table : TokenTable) (what : String) (ttl : Time) (userID : String) : AuthProg (Except Err String) := do
  match ← query (.invalidateUnusedByUserID table userID) with
  | .error err => return .error (err.toErr.wrap ("invalidate " ++ what ++ " tokens"))
  | .ok () =>
    match ← call .generateRefreshToken with
    | .error _ => return .error (.ofInternal ("failed to generate " ++ what ++ " token"))
    | .ok rawToken =>
      let now ← call .now
      match ← query (.createToken table userID (uc.hashRefreshToken rawToken) (now + ttl)) with
      | .error err => return .error (err.toErr.wrap ("store " ++ what ++ " token"))
      | .ok () => return .ok rawToken

def sendVerificationEmail (userID email : String) : AuthProg (Except Err Unit) := do
  let email := uc.normalizeAccountEmail email
  if email = "" then return .ok ()
  else if uc.verifyTokens = false then return .ok ()
  else if uc.verifyMail = false then return .ok ()
  else
    match ← uc.issueLink .emailVerification "verification" uc.verifyTTL userID with
    | .error err => return .error err
    | .ok rawToken =>
      match ← call (.sendLink .emailVerification email rawToken) with
      | .error err => return .error (err.wrap "send verification email")
      | .ok () => return .ok ()

/-! ## Registration -/

structure AuthResult where
  userID : String
  tokens : TokenPair
deriving DecidableEq, Repr

def currentConsentVersion : String := "2026-07-16"

/-- The user at the user service, after the account. -/
def registerUser (inp : RegisterInput) (userID : String) : AuthProg (Except Err AuthResult) := do
  match ← call (.createUser ⟨userID, inp.email, inp.phone, inp.name, inp.role⟩) with
  | .error err =>
    let _ ← query (.deleteCredential userID)
    if err.code = .alreadyExists then return .error (.status .alreadyExists err.text)
    else if err.code = .invalidArgument then return .error (.ofInvalidArgument err.text)
    else return .error (.ofInternal "ошибка при создании пользователя")
  | .ok userResp =>
    match ← uc.generateTokenPair userResp.id inp.email inp.role with
    | .error err => return .error err
    | .ok tokens =>
      if inp.role = "master" ∨ inp.role = "venue_owner" then
        let _ ← uc.sendVerificationEmail userResp.id inp.email
        return .ok ⟨userResp.id, tokens⟩
      else return .ok ⟨userResp.id, tokens⟩

def register (inp : RegisterInput) : AuthProg (Except Err AuthResult) := do
  match uc.validateRegisterInput inp with
  | .error err => return .error err
  | .ok inp =>
    match ← call (.hashPassword inp.password) with
    | .error _ => return .error (.ofInternal "failed to hash password")
    | .ok hash =>
      let userID ← call .newUUID
      match ← query (.createCredential
        { userID := userID, email := inp.email, passwordHash := hash, consentVersion := currentConsentVersion }) with
      | .error err =>
        if err.isAlreadyExists then return .error (.status .alreadyExists err.toErr.text)
        else if err.isPgUniqueViolation then return .error (.status .alreadyExists "email already registered")
        else return .error (err.toErr.wrap "create credential")
      | .ok () => uc.registerUser inp userID

/-! ## Logins -/

structure OAuthInput where
  provider : String
  providerID : String
  email : String
  name : String
  emailVerified : Bool
deriving DecidableEq, Repr

/-- The credential that carries the identity. -/
def OAuthInput.credential (inp : OAuthInput) (userID email : String) (emailVerified : Bool) : Credential where
  userID := userID
  email := email
  provider := inp.provider
  providerID := inp.providerID
  emailVerified := emailVerified

structure OAuthResult where
  userID : String
  tokens : TokenPair
  isNewUser : Bool
deriving DecidableEq, Repr

def issueOAuthTokens (userID : String) (isNewUser : Bool) : AuthProg (Except Err OAuthResult) := do
  match ← call (.getUser userID) with
  | .error err => return .error (err.wrap "get user")
  | .ok userResp =>
    match ← uc.generateTokenPair userID userResp.email userResp.role with
    | .error err => return .error err
    | .ok tokens => return .ok ⟨userID, tokens, isNewUser⟩

/-- The account of the identity, which another request has made meanwhile. -/
def recoverRace (inp : OAuthInput) (ctx : String) : AuthProg (Except Err OAuthResult) := do
  match ← query (.getByProvider inp.provider inp.providerID) with
  | .error err => return .error (err.toErr.wrap ctx)
  | .ok linked => uc.issueOAuthTokens linked.userID false

/-- Branch 1: the identity has an account, which may get its email now. -/
def oauthLinked (inp : OAuthInput) (cred : Credential) : AuthProg (Except Err OAuthResult) := do
  if cred.email = "" ∧ inp.emailVerified = true ∧ inp.email ≠ "" then
    let _ ← query (.promoteOAuthEmail cred.userID inp.email)
    uc.issueOAuthTokens cred.userID false
  else uc.issueOAuthTokens cred.userID false

/-- Branch 2: the account of the email is to carry the identity. -/
def oauthLink (inp : OAuthInput) (existingCred : Credential) : AuthProg (Except Err OAuthResult) := do
  match ← query (.createOAuth (inp.credential existingCred.userID inp.email true)) with
  | .error err =>
    if err.isPgUniqueViolation ∨ err.isAlreadyExists then uc.recoverRace inp "link oauth concurrent race"
    else return .error (err.toErr.wrap "link oauth")
  | .ok () => uc.issueOAuthTokens existingCred.userID false

/-- Branch 3: a new user, with the email the provider vouches for. -/
def oauthNew (inp : OAuthInput) : AuthProg (Except Err OAuthResult) := do
  let registrationEmail := if inp.emailVerified then inp.email else ""
  let userID ← call .newUUID
  match ← call (.createUser ⟨userID, registrationEmail, "", inp.name, "user"⟩) with
  | .error err =>
    if err.code = .alreadyExists then return .error (.status .alreadyExists err.text)
    else return .error (.ofInternal "ошибка при создании пользователя")
  | .ok userResp =>
    match ← query (.createOAuth (inp.credential userResp.id registrationEmail inp.emailVerified)) with
    | .error err =>
      if err.isPgUniqueViolation ∨ err.isAlreadyExists then uc.recoverRace inp "oauth concurrent race recovery"
      else return .error (err.toErr.wrap "create oauth credential")
    | .ok () =>
      match ← uc.generateTokenPair userResp.id registrationEmail "user" with
      | .error err => return .error err
      | .ok tokens => return .ok ⟨userResp.id, tokens, true⟩

def oauthLogin (inp : OAuthInput) : AuthProg (Except Err OAuthResult) := do
  let inp := { inp with email := uc.text.normalize inp.email }
  match ← query (.getByProvider inp.provider inp.providerID) with
  | .ok cred => uc.oauthLinked inp cred
  | .error _ =>
    if inp.emailVerified then
      match ← query (.getByEmail inp.email) with
      | .ok existingCred => uc.oauthLink inp existingCred
      | .error _ => uc.oauthNew inp
    else uc.oauthNew inp

def login (email password : String) : AuthProg (Except Err AuthResult) := do
  match ← query (.getByEmail (uc.text.normalize email)) with
  | .error _ => return .error (.ofUnauthenticated "invalid email or password")
  | .ok cred =>
    let hashToVerify := if accountCredentialHasPassword cred then cred.passwordHash else uc.dummyPasswordHash
    if uc.verifyPassword password hashToVerify = false then return .error (.ofUnauthenticated "invalid email or password")
    else if accountCredentialHasPassword cred = false then return .error (.ofUnauthenticated "invalid email or password")
    else
      match ← call (.getUser cred.userID) with
      | .error err => return .error (err.wrap "get user")
      | .ok userResp =>
        match ← uc.generateTokenPair cred.userID cred.email userResp.role with
        | .error err => return .error err
        | .ok tokens => return .ok ⟨cred.userID, tokens⟩

/-! ## Sessions -/

def refreshToken (rawRefreshToken : String) : AuthProg (Except Err TokenPair) := do
  match ← query (.consumeByHash (uc.hashRefreshToken rawRefreshToken)) with
  | .error err =>
    if err.isNotFound then return .error (.ofUnauthenticated "invalid or already used refresh token")
    else return .error (.ofInternal "failed to consume refresh token")
  | .ok stored =>
    let now ← call .now
    if stored.expiresAt < now then return .error (.ofUnauthenticated "refresh token expired")
    else
      match ← query (.getByUserID stored.userID) with
      | .error _ => return .error (.ofInternal "credential not found")
      | .ok cred =>
        match ← call (.getUser stored.userID) with
        | .error err => return .error (err.wrap "get user")
        | .ok userResp => uc.generateTokenPair stored.userID cred.email userResp.role

/-- What is gone already is no error. -/
def ignoreNotFound : Except StoreErr Unit → Except Err Unit
  | .error err => if err.isNotFound then .ok () else .error err.toErr
  | .ok () => .ok ()

def logout (rawRefreshToken : String) : AuthProg (Except Err Unit) := do
  return ignoreNotFound (← query (.deleteRefreshByHash (uc.hashRefreshToken rawRefreshToken)))

def deleteAccount (userID : String) : AuthProg (Except Err Unit) := do
  if userID = "" then return .error (.ofInvalidArgument "user_id is required")
  else
    match ignoreNotFound (← query (.deleteRefreshByUserID userID)) with
    | .error err => return .error err
    | .ok () => return ignoreNotFound (← query (.deleteCredential userID))

/-! ## Links -/

def requestPasswordReset (email : String) : AuthProg (Except Err Unit) := do
  let email := uc.normalizeAccountEmail email
  if email = "" then return .ok ()
  else
    match ← query (.getByEmail email) with
    | .error err => if err.isNotFound then return .ok () else return .error err.toErr
    | .ok cred =>
      if accountCredentialHasPassword cred = false then return .ok ()
      else if uc.resetMail = false then return .ok ()
      else if uc.resetTokens = false then return .ok ()
      else
        match ← uc.issueLink .passwordReset "reset" uc.resetTTL cred.userID with
        | .error err => return .error err
        | .ok rawToken =>
          let _ ← call (.sendLink .passwordReset cred.email rawToken)
          return .ok ()

def completePasswordReset (rawToken newPassword : String) : AuthProg (Except Err Unit) := do
  let rawToken := trimSpace rawToken
  let newPassword := trimSpace newPassword
  if rawToken = "" ∨ newPassword = "" then return .error (.ofInvalidArgument "token and new_password are required")
  else
    match uc.validateAccountPassword newPassword with
    | .error err => return .error err
    | .ok () =>
      if uc.resetTokens = false then return .error (.ofInternal "reset not configured")
      else
        match ← query (.consumeByTokenHash .passwordReset (uc.hashRefreshToken rawToken)) with
        | .error err =>
          if err.isNotFound then return .error (.ofInvalidArgument "Ссылка сброса недействительна или истекла")
          else return .error err.toErr
        | .ok userID =>
          match ← call (.hashPassword newPassword) with
          | .error _ => return .error (.ofInternal "failed to hash password")
          | .ok passHash =>
            match ← query (.updatePasswordHash userID passHash) with
            | .error err => return .error err.toErr
            | .ok () =>
              match ← query (.deleteRefreshByUserID userID) with
              | .error err => return .error (err.toErr.wrap "revoke refresh tokens")
              | .ok () => return .ok ()

def verifyEmail (rawToken : String) : AuthProg (Except Err Unit) := do
  let rawToken := trimSpace rawToken
  if rawToken = "" then return .error (.ofInvalidArgument "token is required")
  else if uc.verifyTokens = false then return .error (.ofInternal "email verification not configured")
  else
    match ← query (.consumeByTokenHash .emailVerification (uc.hashRefreshToken rawToken)) with
    | .error err =>
      if err.isNotFound then return .error (.ofInvalidArgument "Ссылка подтверждения недействительна или истекла")
      else return .error err.toErr
    | .ok userID =>
      match ← query (.setEmailVerified userID true) with
      | .error err => return .error (err.toErr.wrap "set email verified")
      | .ok () => return .ok ()

def resendVerification (email : String) : AuthProg (Except Err Unit) := do
  let email := uc.normalizeAccountEmail email
  if email = "" then return .ok ()
  else
    match ← query (.getByEmail email) with
    | .error err => if err.isNotFound then return .ok () else return .error err.toErr
    | .ok cred =>
      if cred.emailVerified then return .ok ()
      else
        let _ ← uc.sendVerificationEmail cred.userID cred.email
        return .ok ()

end AuthUseCase

end Agregator
