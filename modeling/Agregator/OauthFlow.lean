import Agregator.Base64
import Agregator.CookieJar
import Agregator.GoBase
import Agregator.SafeNext
/-!
# OauthFlow — logins through another provider, as one browser sees them

The redirects to VK and Yandex and the callbacks from there.  What the gateway is to remember of a flow is in the cookies of the
browser: the state of each provider, the verifier of VK, and one destination for all.  Randomness does not fail; the providers
and the auth service answer in any way.
-/
namespace Agregator

open CookieJar

/-! ## The gateway -/

inductive Provider where
  | vk
  | yandex
deriving DecidableEq, Repr

def Provider.name : Provider → String
  | vk => "vk"
  | yandex => "yandex"

inductive OAuthCookie where
  | vkOauthState
  | yandexOauthState
  | vkPkceVerifier
  | oauthNext
  | banyaRefresh
deriving DecidableEq, Repr

def OAuthCookie.text : OAuthCookie → String
  | vkOauthState => "vk_oauth_state"
  | yandexOauthState => "yandex_oauth_state"
  | vkPkceVerifier => "vk_pkce_verifier"
  | oauthNext => "oauth_next"
  | banyaRefresh => "banya_refresh"

def Provider.stateCookie : Provider → OAuthCookie
  | vk => .vkOauthState
  | yandex => .yandexOauthState

inductive OAuthErrorCode where
  | stateMismatch
  | denied
  | missingPKCE
  | exchangeFailed
  | userInfoFailed
  | noEmail
  | authFailed
deriving DecidableEq, Repr

def OAuthErrorCode.text : OAuthErrorCode → String
  | stateMismatch => "oauth_state_mismatch"
  | denied => "oauth_denied"
  | missingPKCE => "oauth_missing_pkce"
  | exchangeFailed => "oauth_exchange_failed"
  | userInfoFailed => "oauth_user_info_failed"
  | noEmail => "oauth_no_email"
  | authFailed => "oauth_auth_failed"

structure OAuthLoginRequest where
  provider : String
  providerID : String
  email : String
  name : String
  avatarURL : String
  emailVerified : Bool
deriving DecidableEq, Repr

structure OAuthTokens where
  accessToken : String
  refreshToken : String
deriving DecidableEq, Repr

structure VkUser where
  userID : ℤ
  firstName : String
  lastName : String
  email : String
  avatar : String
deriving DecidableEq, Repr

structure YandexUser where
  id : String
  displayName : String
  realName : String
  defaultEmail : String
  defaultAvatarID : String
  isAvatarEmpty : Bool
deriving DecidableEq, Repr

/-- What the providers and the auth service answer during a callback. -/
structure Upstream where
  exchangeVK : (code codeVerifier deviceID : String) → Option String
  userVK : String → Option VkUser
  exchangeYandex : String → Option String
  userYandex : String → Option YandexUser
  oauthLogin : OAuthLoginRequest → Option OAuthTokens

/-- Where the browser is sent. -/
inductive OAuthOutcome where
  | notConfigured (p : Provider)
  | provider (p : Provider) (state : String) (codeChallenge : Option String)
  | loginPage (error : OAuthErrorCode)
  | callbackPage (next : Option String) (accessToken : String)
deriving DecidableEq, Repr

/-- An answer of the gateway: its cookies in their order, what `OAuthLogin` was called with, and where it leads. -/
structure OAuthAnswer where
  cookies : List (SetCookie OAuthCookie) := []
  login : Option OAuthLoginRequest := none
  outcome : OAuthOutcome

/-- Which providers are configured, and the hash of the challenge. -/
structure OAuthHandler where
  configured : Provider → Bool
  sha256 : List UInt8 → List UInt8

namespace OAuthHandler

def setStateCookie (cookieName : OAuthCookie) (state : String) : SetCookie OAuthCookie := ⟨cookieName, state, 600⟩

def setNextCookie (next : String) : List (SetCookie OAuthCookie) := if next = "" then [] else [⟨.oauthNext, next, 600⟩]

def clearNextCookie : SetCookie OAuthCookie := ⟨.oauthNext, "", -1⟩

def setPKCECookie (verifier : String) : SetCookie OAuthCookie := ⟨.vkPkceVerifier, verifier, 600⟩

def clearPKCECookie : SetCookie OAuthCookie := ⟨.vkPkceVerifier, "", -1⟩

/-- `generateState` and the verifier of `generatePKCE`, of their random bytes. -/
def generateSecret (random : List UInt8) : String := Base64.encode random

def refreshTokenMaxAge : ℤ := 60 * 60 * 24 * 30

/-- `redirectError`, after some cookies. -/
def redirectError (cookies : List (SetCookie OAuthCookie)) (login : Option OAuthLoginRequest) (code : OAuthErrorCode) : OAuthAnswer :=
  ⟨cookies ++ [clearNextCookie], login, .loginPage code⟩

variable (h : OAuthHandler)

def vkRedirect (next : String) (randomState randomVerifier : List UInt8) : OAuthAnswer :=
  if h.configured .vk = false then { outcome := .notConfigured .vk }
  else
    let state := generateSecret randomState
    let verifier := generateSecret randomVerifier
    { cookies := [setStateCookie .vkOauthState state] ++ setNextCookie (safeOAuthNext next) ++ [setPKCECookie verifier]
      outcome := .provider .vk state (some (Base64.encode (h.sha256 (verifier.toList.map fun c => UInt8.ofNat c.toNat)))) }

def yandexRedirect (next : String) (randomState : List UInt8) : OAuthAnswer :=
  if h.configured .yandex = false then { outcome := .notConfigured .yandex }
  else
    let state := generateSecret randomState
    { cookies := [setStateCookie .yandexOauthState state] ++ setNextCookie (safeOAuthNext next)
      outcome := .provider .yandex state none }

/-- `oauthLogin`, after some cookies. -/
def oauthLogin (cookie : OAuthCookie → Option String) (up : Upstream) (cookies : List (SetCookie OAuthCookie))
    (req : OAuthLoginRequest) : OAuthAnswer :=
  if req.email = "" then redirectError cookies none .noEmail
  else
    match up.oauthLogin req with
    | none => redirectError cookies (some req) .authFailed
    | some resp =>
      let cookies := cookies ++ if resp.refreshToken ≠ "" then [⟨.banyaRefresh, resp.refreshToken, refreshTokenMaxAge⟩] else []
      match cookie .oauthNext with
      | none => ⟨cookies, some req, .callbackPage none resp.accessToken⟩
      | some c =>
        let next := safeOAuthNext c
        ⟨cookies ++ [clearNextCookie], some req, .callbackPage (if next ≠ "" then some next else none) resp.accessToken⟩

def vkRequest (u : VkUser) : OAuthLoginRequest where
  provider := "vk"
  providerID := toString u.userID
  email := u.email
  name := if u.lastName ≠ "" then u.firstName ++ " " ++ u.lastName else u.firstName
  avatarURL := u.avatar
  emailVerified := u.email != ""

def vkCallback (cookie : OAuthCookie → Option String) (up : Upstream) (state code deviceID : String) : OAuthAnswer :=
  if h.configured .vk = false then { outcome := .notConfigured .vk }
  else if cookie .vkOauthState ≠ some state then redirectError [] none .stateMismatch
  else
    match cookie .vkPkceVerifier with
    | none => redirectError [clearPKCECookie] none .missingPKCE
    | some codeVerifier =>
      if codeVerifier = "" then redirectError [clearPKCECookie] none .missingPKCE
      else if code = "" then redirectError [clearPKCECookie] none .denied
      else
        match up.exchangeVK code codeVerifier deviceID with
        | none => redirectError [clearPKCECookie] none .exchangeFailed
        | some accessToken =>
          match up.userVK accessToken with
          | none => redirectError [clearPKCECookie] none .userInfoFailed
          | some u => oauthLogin cookie up [clearPKCECookie] (vkRequest u)

def yandexRequest (u : YandexUser) : OAuthLoginRequest where
  provider := "yandex"
  providerID := u.id
  email := u.defaultEmail
  name := if trimSpace u.realName = "" then u.displayName else trimSpace u.realName
  avatarURL := if u.defaultAvatarID ≠ "" ∧ u.isAvatarEmpty = false then
    "https://avatars.yandex.net/get-yapic/" ++ u.defaultAvatarID ++ "/islands-200" else ""
  emailVerified := u.defaultEmail != ""

def yandexCallback (cookie : OAuthCookie → Option String) (up : Upstream) (state code : String) : OAuthAnswer :=
  if h.configured .yandex = false then { outcome := .notConfigured .yandex }
  else if cookie .yandexOauthState ≠ some state then redirectError [] none .stateMismatch
  else if code = "" then redirectError [] none .denied
  else
    match up.exchangeYandex code with
    | none => redirectError [] none .exchangeFailed
    | some accessToken =>
      match up.userYandex accessToken with
      | none => redirectError [] none .userInfoFailed
      | some u => oauthLogin cookie up [] (yandexRequest u)

end OAuthHandler

/-! ## The browser -/

/-- Random bytes, of a number. -/
abbrev RandomBytes (n : ℕ) := { b : List UInt8 // b.length = n }

inductive Visit where
  | redirect (p : Provider) (next : String) (randomState : RandomBytes 16) (randomVerifier : RandomBytes 32)
  | callback (p : Provider) (state code deviceID : String) (up : Upstream)

/-- The destination a `next` is accepted as. -/
def destination (next : String) : Option String := if safeOAuthNext next ≠ "" then some (safeOAuthNext next) else none

namespace OAuthHandler

variable (h : OAuthHandler)

def answer (cookie : OAuthCookie → Option String) : Visit → OAuthAnswer
  | .redirect .vk next rs rv => h.vkRedirect next rs.1 rv.1
  | .redirect .yandex next rs _ => h.yandexRedirect next rs.1
  | .callback .vk state code deviceID up => h.vkCallback cookie up state code deviceID
  | .callback .yandex state code _ up => h.yandexCallback cookie up state code

/-- The cookies after a visit at a time. -/
def visit (now : ℤ) (jar : Jar OAuthCookie) (v : Visit) : Jar OAuthCookie :=
  (h.answer (read now jar) v).cookies.foldl (receive OAuthCookie.text now) jar

/-- The cookies after some visits, the last of which stands first. -/
def jarAfter : List (ℤ × Visit) → Jar OAuthCookie
  | [] => fun _ => none
  | (now, v) :: past => h.visit now (jarAfter past) v

/-! ### What a flow is to be held to -/

/-- The last redirect to a provider: its time, its state and what it was given as `next`. -/
def latestRedirect (p : Provider) : List (ℤ × Visit) → Option (ℤ × String × String)
  | [] => none
  | (t, .redirect q next rs _) :: past => if q = p then some (t, generateSecret rs.1, next) else latestRedirect p past
  | (_, .callback ..) :: past => latestRedirect p past

/-- The destination of the last redirect to a provider. -/
def due (p : Provider) (past : List (ℤ × Visit)) : Option String := (latestRedirect p past).bind fun r => destination r.2.2

/-- **A callback is bound to its flow**: it logs in with the state of the last redirect only, and leads where that one was to. -/
def Bound (p : Provider) (state : String) (past : List (ℤ × Visit)) (a : OAuthAnswer) : Prop :=
  (a.login.isSome → ∃ t next, latestRedirect p past = some (t, state, next)) ∧
    ∀ dest token, a.outcome = .callbackPage dest token → dest = due p past

/-- Something holds of every callback of a run, with the visits before it and its answer. -/
def AtCallbacks (P : List (ℤ × Visit) → ℤ → Provider → String → OAuthAnswer → Prop) : List (ℤ × Visit) → Prop
  | [] => True
  | (now, .callback p state code deviceID up) :: past =>
    P past now p state (h.answer (read now (h.jarAfter past)) (.callback p state code deviceID up)) ∧ AtCallbacks P past
  | (_, .redirect ..) :: past => AtCallbacks P past

/-! ### What keeps it -/

/-- The destination a redirect puts into the cookie, if it puts one. -/
def setsNext (q : Provider) (next : String) : Option String :=
  if h.configured q then (destination next).filter (fits OAuthCookie.text .oauthNext) else none

/-- Since the last redirect to a provider the cookie has been left to its destination: no callback was answered, and no other
redirect has put another one there. -/
def Keeps (p : Provider) (d : String) : List (ℤ × Visit) → Prop
  | [] => False
  | (_, .redirect q next _ _) :: past =>
    match h.setsNext q next with
    | some d' => kept d' = d
    | none => q ≠ p ∧ Keeps p d past
  | (_, .callback q ..) :: past => h.configured q = false ∧ Keeps p d past

/-- No destination is left in the cookie: of the visits that touch it the last is a callback, or a redirect whose destination is
too old, or is none any more. -/
def Bare (now : ℤ) : List (ℤ × Visit) → Prop
  | [] => True
  | (t, .redirect q next _ _) :: past =>
    match h.setsNext q next with
    | some d => t + 600 ≤ now ∨ destination (kept d) = none
    | none => Bare now past
  | (_, .callback q ..) :: past => h.configured q = true ∨ Bare now past

/-- The flow of a provider has been left alone. -/
def Undisturbed (p : Provider) (now : ℤ) (past : List (ℤ × Visit)) : Prop :=
  match due p past with
  | some d => h.Keeps p d past
  | none => h.Bare now past

/-! ## What a visit does to the cookies -/

section Visits

variable {h : OAuthHandler} {cookie : OAuthCookie → Option String} {jar : Jar OAuthCookie} {now : ℤ} {p q : Provider}
  {next state code deviceID : String} {rs : RandomBytes 16} {rv : RandomBytes 32} {up : Upstream}

theorem destination_cases (next : String) : (destination next = none ∧ safeOAuthNext next = "") ∨
    (destination next = some next ∧ safeOAuthNext next = next ∧ next ≠ "") := by
  unfold destination
  rcases safeOAuthNext_cases next with he | he
  · simp [he]
  · by_cases hne : next = ""
    · subst hne
      exact .inl ⟨by rw [he]; rfl, he⟩
    · exact .inr ⟨by rw [he, if_pos hne], he, hne⟩

theorem destination_some {d : String} (hd : destination next = some d) : next = d ∧ destination d = some d := by
  rcases destination_cases next with ⟨hn, -⟩ | ⟨hs, -⟩
  · rw [hn] at hd
    cases hd
  · rw [hs, Option.some.injEq] at hd
    subst hd
    exact ⟨rfl, hs⟩

/-- A visit leaves the cookies it does not name. -/
theorem foldl_receive_other {cs : List (SetCookie OAuthCookie)} {name : OAuthCookie} (hcs : ∀ c ∈ cs, c.name ≠ name) :
    cs.foldl (receive OAuthCookie.text now) jar name = jar name := by
  induction cs generalizing jar with
  | nil => rfl
  | cons c cs ih =>
    rw [List.foldl_cons, ih fun d hd => hcs d (List.mem_cons_of_mem _ hd), receive_other (hcs c List.mem_cons_self)]

theorem foldl_receive_last {cs : List (SetCookie OAuthCookie)} :
    (cs ++ [clearNextCookie]).foldl (receive OAuthCookie.text now) jar .oauthNext = none := by
  rw [List.foldl_append, List.foldl_cons, List.foldl_nil]
  generalize cs.foldl (receive OAuthCookie.text now) jar = jar'
  have hcleared := @receive_cleared OAuthCookie _ OAuthCookie.text now jar' clearNextCookie (by decide)
  exact hcleared

/-- What every answer to a callback is: it clears the destination at the end, or there was none to be cleared. -/
structure CallbackAnswer (p : Provider) (cookie : OAuthCookie → Option String) (state : String) (a : OAuthAnswer) : Prop where
  others : ∀ c ∈ a.cookies, ∀ q : Provider, c.name ≠ q.stateCookie
  cleared : (∃ cs, a.cookies = cs ++ [clearNextCookie]) ∨ (cookie .oauthNext = none ∧ ∀ c ∈ a.cookies, c.name ≠ .oauthNext)
  login : a.login.isSome → cookie p.stateCookie = some state
  leads : ∀ dest token, a.outcome = .callbackPage dest token →
    cookie p.stateCookie = some state ∧ dest = (cookie .oauthNext).bind destination

/-- Cookies that are neither a state nor a destination. -/
def Aside (cs : List (SetCookie OAuthCookie)) : Prop := ∀ c ∈ cs, (∀ q : Provider, c.name ≠ q.stateCookie) ∧ c.name ≠ .oauthNext

theorem aside_nil : Aside [] := fun _ hc => absurd hc List.not_mem_nil

theorem aside_pkce : Aside [clearPKCECookie] := by
  intro c hc
  rw [List.mem_singleton.1 hc]
  exact ⟨fun q => by cases q <;> decide, by decide⟩

theorem aside_clear {cs : List (SetCookie OAuthCookie)} (hcs : Aside cs) :
    ∀ c ∈ cs ++ [clearNextCookie], ∀ q : Provider, c.name ≠ q.stateCookie := by
  intro c hc q
  rcases List.mem_append.1 hc with hc | hc
  · exact (hcs c hc).1 q
  · rw [List.mem_singleton.1 hc]
    cases q <;> decide

theorem redirectError_answer {cs : List (SetCookie OAuthCookie)} (hcs : Aside cs) {login : Option OAuthLoginRequest}
    {err : OAuthErrorCode} (hlogin : login.isSome → cookie p.stateCookie = some state) :
    CallbackAnswer p cookie state (redirectError cs login err) where
  others := aside_clear hcs
  cleared := .inl ⟨cs, rfl⟩
  login := hlogin
  leads dest token ho := by cases ho

theorem oauthLogin_answer {cs : List (SetCookie OAuthCookie)} (hcs : Aside cs) {req : OAuthLoginRequest}
    (hstate : cookie p.stateCookie = some state) : CallbackAnswer p cookie state (oauthLogin cookie up cs req) := by
  unfold oauthLogin
  by_cases hemail : req.email = ""
  · rw [if_pos hemail]
    exact redirectError_answer hcs fun _ => hstate
  rw [if_neg hemail]
  cases up.oauthLogin req with
  | none => exact redirectError_answer hcs fun _ => hstate
  | some resp =>
    have hrefresh : Aside (cs ++ if resp.refreshToken ≠ "" then [⟨.banyaRefresh, resp.refreshToken, refreshTokenMaxAge⟩] else []) := by
      intro c hc
      rcases List.mem_append.1 hc with hc | hc
      · exact hcs c hc
      · split_ifs at hc
        · rw [List.mem_singleton.1 hc]
          exact ⟨fun q => by cases q <;> simp [Provider.stateCookie], by simp⟩
        · exact absurd hc List.not_mem_nil
    simp only
    generalize (cs ++ if resp.refreshToken ≠ "" then _ else _) = cs' at hrefresh
    cases hnext : cookie .oauthNext with
    | none =>
      refine ⟨fun c hc => (hrefresh c hc).1, .inr ⟨hnext, fun c hc => (hrefresh c hc).2⟩, fun _ => hstate, ?_⟩
      intro dest token ho
      cases ho
      exact ⟨hstate, by rw [hnext]; rfl⟩
    | some c =>
      refine ⟨aside_clear hrefresh, .inl ⟨cs', rfl⟩, fun _ => hstate, ?_⟩
      intro dest token ho
      cases ho
      exact ⟨hstate, by rw [hnext]; rfl⟩

/-- **Every answer to a callback.** -/
theorem callback_answer (hconf : h.configured p = true) :
    CallbackAnswer p cookie state (h.answer cookie (.callback p state code deviceID up)) := by
  have herr : ∀ {cs : List (SetCookie OAuthCookie)} {err : OAuthErrorCode}, Aside cs →
      CallbackAnswer p cookie state (redirectError cs none err) := fun hcs => redirectError_answer hcs (by simp)
  cases p with
  | vk =>
    show CallbackAnswer _ _ _ (h.vkCallback cookie up state code deviceID)
    unfold vkCallback
    rw [if_neg (by simp [hconf])]
    by_cases hstate : cookie .vkOauthState = some state
    swap
    · rw [if_pos hstate]
      exact herr aside_nil
    rw [if_neg (not_not.2 hstate)]
    cases cookie .vkPkceVerifier with
    | none => exact herr aside_pkce
    | some codeVerifier =>
      simp only
      split_ifs
      · exact herr aside_pkce
      · exact herr aside_pkce
      · cases up.exchangeVK code codeVerifier deviceID with
        | none => exact herr aside_pkce
        | some token =>
          simp only
          cases up.userVK token with
          | none => exact herr aside_pkce
          | some u => exact oauthLogin_answer aside_pkce hstate
  | yandex =>
    show CallbackAnswer _ _ _ (h.yandexCallback cookie up state code)
    unfold yandexCallback
    rw [if_neg (by simp [hconf])]
    by_cases hstate : cookie .yandexOauthState = some state
    swap
    · rw [if_pos hstate]
      exact herr aside_nil
    rw [if_neg (not_not.2 hstate)]
    split_ifs
    · exact herr aside_nil
    · cases up.exchangeYandex code with
      | none => exact herr aside_nil
      | some token =>
        simp only
        cases up.userYandex token with
        | none => exact herr aside_nil
        | some u => exact oauthLogin_answer aside_nil hstate

/-- A provider that is not configured sets nothing and logs nobody in. -/
theorem answer_unconfigured (cookie : OAuthCookie → Option String) (v : Visit)
    (hv : match v with | .redirect q .. | .callback q .. => h.configured q = false) :
    (h.answer cookie v).cookies = [] ∧ (h.answer cookie v).login = none ∧
      ∀ dest token, (h.answer cookie v).outcome ≠ .callbackPage dest token := by
  rcases v with ⟨q, next, rs, rv⟩ | ⟨q, state, code, deviceID, up⟩
  · cases q with
    | vk => simp_all [answer, vkRedirect]
    | yandex => simp_all [answer, yandexRedirect]
  · cases q with
    | vk => simp_all [answer, vkCallback]
    | yandex => simp_all [answer, yandexCallback]

theorem setNextCookie_eq (next : String) :
    setNextCookie (safeOAuthNext next) = (destination next).toList.map fun d => ⟨.oauthNext, d, 600⟩ := by
  rcases destination_cases next with ⟨hd, hs⟩ | ⟨hd, hs, hne⟩
  · rw [hd, hs]
    rfl
  · rw [hd, hs, setNextCookie, if_neg hne]
    rfl

/-- A redirect sets the state, the destination if there is one, and what is neither. -/
theorem redirect_cookies (cookie : OAuthCookie → Option String) (next : String) (rs : RandomBytes 16) (rv : RandomBytes 32)
    (hconf : h.configured p = true) : ∃ cs, Aside cs ∧ (h.answer cookie (.redirect p next rs rv)).cookies =
    setStateCookie p.stateCookie (generateSecret rs.1) :: (setNextCookie (safeOAuthNext next) ++ cs) := by
  cases p with
  | vk =>
    refine ⟨[setPKCECookie (generateSecret rv.1)], ?_, by simp [answer, vkRedirect, hconf, Provider.stateCookie]⟩
    intro c hc
    rw [List.mem_singleton.1 hc]
    exact ⟨fun q => by cases q <;> simp [setPKCECookie, Provider.stateCookie], by simp [setPKCECookie]⟩
  | yandex => exact ⟨[], aside_nil, by simp [answer, yandexRedirect, hconf, Provider.stateCookie]⟩

/-- Secrets are texts that cookies keep. -/
theorem kept_secret (b : List UInt8) : kept (generateSecret b) = generateSecret b :=
  kept_of_chars (Base64.encode_chars (by decide +kernel))

theorem fits_secret (name : OAuthCookie) : fits OAuthCookie.text name (generateSecret rs.1) = true := by
  have hplain : sanitizeCookieValue (generateSecret rs.1) = generateSecret rs.1 := by
    have hno : ((generateSecret rs.1).toList.any fun c => c == ' ' || c == ',') = false := by
      rw [List.any_eq_false]
      exact Base64.encode_chars (by decide +kernel)
    unfold sanitizeCookieValue
    simp only [kept_secret, hno, Bool.false_eq_true, if_false]
  have hlen : (generateSecret rs.1).length = 22 := by
    rw [generateSecret, Base64.encode_length, rs.2]
  have hname : name.text.length ≤ 18 := by cases name <;> decide
  rw [fits, hplain, hlen, decide_eq_true_iff, cookieLimit]
  omega

end Visits

/-! ## What the cookies hold after a run -/

section Runs

variable {h : OAuthHandler} {p : Provider} {past run : List (ℤ × Visit)} {now : ℤ}

theorem stateCookie_ne {p q : Provider} (hne : q ≠ p) : q.stateCookie ≠ p.stateCookie := by
  cases p <;> cases q <;> simp_all [Provider.stateCookie]

/-- **The cookie of the state is that of the last redirect.** -/
theorem stateCookie_after (hconf : h.configured p = true) : ∀ past : List (ℤ × Visit), h.jarAfter past p.stateCookie =
    (latestRedirect p past).map fun r => ⟨sanitizeCookieValue r.2.1, r.1 + 600⟩
  | [] => rfl
  | (t, .callback q state code deviceID up) :: past => by
    have ih := stateCookie_after hconf past
    rw [jarAfter, latestRedirect, ← ih, visit]
    by_cases hq : h.configured q = true
    · exact foldl_receive_other fun c hc => (callback_answer hq).others c hc p
    · rw [(answer_unconfigured _ (.callback q state code deviceID up) (by simpa using hq)).1]
      rfl
  | (t, .redirect q next rs rv) :: past => by
    have ih := stateCookie_after hconf past
    rw [jarAfter, latestRedirect, visit]
    by_cases hqp : q = p
    · subst hqp
      obtain ⟨cs, hcs, hcookies⟩ := redirect_cookies (read t (h.jarAfter past)) next rs rv hconf
      rw [if_pos rfl, hcookies, List.foldl_cons, foldl_receive_other]
      · exact receive_kept (c := setStateCookie _ _) (by decide : (0 : ℤ) ≤ 600) (fits_secret _)
      · intro c hc
        rcases List.mem_append.1 hc with hc | hc
        · rw [setNextCookie_eq] at hc
          obtain ⟨d, -, rfl⟩ := List.mem_map.1 hc
          cases q <;> simp [Provider.stateCookie]
        · exact (hcs c hc).1 q
    · rw [if_neg hqp, ← ih]
      by_cases hq : h.configured q = true
      · obtain ⟨cs, hcs, hcookies⟩ := redirect_cookies (read t (h.jarAfter past)) next rs rv hq
        rw [hcookies]
        apply foldl_receive_other
        intro c hc
        rcases List.mem_cons.1 hc with rfl | hc
        · exact stateCookie_ne hqp
        · rcases List.mem_append.1 hc with hc | hc
          · rw [setNextCookie_eq] at hc
            obtain ⟨d, -, rfl⟩ := List.mem_map.1 hc
            cases p <;> simp [Provider.stateCookie]
          · exact (hcs c hc).1 p
      · rw [(answer_unconfigured _ (.redirect q next rs rv) (by simpa using hq)).1]
        rfl

/-- A state that is read is that of the last redirect, which is not too old. -/
theorem latestRedirect_of_read (hconf : h.configured p = true) {state : String}
    (hread : read now (h.jarAfter past) p.stateCookie = some state) :
    ∃ t next, latestRedirect p past = some (t, state, next) ∧ now < t + 600 := by
  have hjar := stateCookie_after hconf past
  have hsecret : ∀ past : List (ℤ × Visit), ∀ r, latestRedirect p past = some r → kept r.2.1 = r.2.1 := by
    intro past
    induction past with
    | nil =>
      intro r hr
      cases hr
    | cons v past ih =>
      obtain ⟨t, v⟩ := v
      cases v with
      | redirect q next rs rv =>
        intro r hr
        rw [latestRedirect] at hr
        split_ifs at hr
        · obtain rfl := Option.some.inj hr
          exact kept_secret _
        · exact ih r hr
      | callback q state code deviceID up => exact ih
  cases hl : latestRedirect p past with
  | none =>
    rw [hl] at hjar
    rw [CookieJar.read, hjar] at hread
    cases hread
  | some r =>
    obtain ⟨t, s, next⟩ := r
    rw [hl] at hjar
    rw [read_stored hjar, hsecret past _ hl] at hread
    split_ifs at hread with hlt
    cases hread
    exact ⟨t, next, rfl, hlt⟩

/-- The destination in the cookie, by what the visits have done to it. -/
def live (h : OAuthHandler) (now : ℤ) : List (ℤ × Visit) → Option String
  | [] => none
  | (t, .redirect q next _ _) :: past =>
    match h.setsNext q next with
    | some d => if now < t + 600 then some (kept d) else none
    | none => live h now past
  | (_, .callback q ..) :: past => if h.configured q then none else live h now past

/-- The visits stand in the order of their times, the last one first. -/
def InOrder (run : List (ℤ × Visit)) : Prop := run.Pairwise fun a b => b.1 ≤ a.1

/-- What a redirect does to the destination cookie. -/
theorem redirect_next (h : OAuthHandler) (jar : Jar OAuthCookie) (t : ℤ) (q : Provider) (next : String) (rs : RandomBytes 16)
    (rv : RandomBytes 32) :
    h.visit t jar (.redirect q next rs rv) .oauthNext =
      match h.setsNext q next with
      | some d => some ⟨sanitizeCookieValue d, t + 600⟩
      | none => jar .oauthNext := by
  unfold visit setsNext
  by_cases hq : h.configured q = true
  swap
  · rw [(answer_unconfigured _ (.redirect q next rs rv) (by simpa using hq)).1, if_neg hq]
    rfl
  obtain ⟨cs, hcs, hcookies⟩ := redirect_cookies (read t jar) next rs rv hq
  have hstate : receive OAuthCookie.text t jar (setStateCookie q.stateCookie (generateSecret rs.1)) .oauthNext = jar .oauthNext :=
    receive_other (by cases q <;> simp [setStateCookie, Provider.stateCookie])
  rw [if_pos hq, hcookies, List.foldl_cons, List.foldl_append, foldl_receive_other fun c hc => (hcs c hc).2, setNextCookie_eq]
  generalize receive OAuthCookie.text t jar _ = jar' at hstate
  cases destination next with
  | none => exact hstate
  | some d =>
    simp only [Option.toList_some, List.map_cons, List.map_nil, List.foldl_cons, List.foldl_nil, Option.filter_some]
    by_cases hfits : fits OAuthCookie.text .oauthNext d = true
    · have hkept := @receive_kept OAuthCookie _ OAuthCookie.text t jar' ⟨.oauthNext, d, 600⟩ (by decide : (0 : ℤ) ≤ 600) hfits
      rw [if_pos hfits]
      exact hkept
    · have hunfit := @receive_unfit OAuthCookie _ OAuthCookie.text t jar' ⟨.oauthNext, d, 600⟩
        (by decide : (0 : ℤ) ≤ 600) (by simpa using hfits)
      rw [if_neg hfits, hunfit]
      exact hstate

/-- **The destination that is read is the one the visits have left.** -/
theorem read_next_after : ∀ {past : List (ℤ × Visit)}, InOrder past → (∀ v ∈ past, v.1 ≤ now) →
    read now (h.jarAfter past) .oauthNext = live h now past
  | [], _, _ => rfl
  | (t, .redirect q next rs rv) :: past, hord, hnow => by
    have ih := read_next_after (List.pairwise_cons.1 hord).2 fun v hv => hnow v (List.mem_cons_of_mem _ hv)
    have hnext := redirect_next h (h.jarAfter past) t q next rs rv
    rw [jarAfter, live]
    cases hs : h.setsNext q next with
    | some d =>
      rw [hs] at hnext
      exact read_stored hnext
    | none =>
      rw [hs] at hnext
      rw [CookieJar.read, hnext]
      exact ih
  | (t, .callback q state code deviceID up) :: past, hord, hnow => by
    obtain ⟨hold, hord⟩ := List.pairwise_cons.1 hord
    rw [jarAfter, live, visit]
    by_cases hq : h.configured q = true
    · rw [if_pos hq]
      have hanswer : CallbackAnswer q (read t (h.jarAfter past)) state
          (h.answer (read t (h.jarAfter past)) (.callback q state code deviceID up)) := callback_answer hq
      rcases hanswer.cleared with ⟨cs, hcs⟩ | ⟨hnone, hothers⟩
      · rw [hcs, CookieJar.read, foldl_receive_last]
        rfl
      · -- there was nothing to be read, and time has gone on
        have hlater := read_none_later hnone (hnow _ List.mem_cons_self)
        rw [CookieJar.read, foldl_receive_other hothers]
        exact hlater
    · have ih := read_next_after hord fun v hv => hnow v (List.mem_cons_of_mem _ hv)
      rw [if_neg hq, (answer_unconfigured _ (.callback q state code deviceID up) (by simpa using hq)).1]
      exact ih

/-! ## When a callback leads where its flow was to -/

theorem setsNext_some {q : Provider} {next d : String} (hs : h.setsNext q next = some d) :
    destination next = some d ∧ fits OAuthCookie.text .oauthNext d = true := by
  unfold setsNext at hs
  split_ifs at hs
  exact Option.filter_eq_some_iff.1 hs

/-- What is left in the cookie is a text that a cookie keeps. -/
theorem live_fits : ∀ {past : List (ℤ × Visit)} {v : String}, live h now past = some v → fits OAuthCookie.text .oauthNext v = true
  | [], _, hv => by cases hv
  | (t, .redirect q next _ _) :: past, v, hv => by
    rw [live] at hv
    cases hs : h.setsNext q next with
    | none =>
      rw [hs] at hv
      exact live_fits hv
    | some d =>
      rw [hs] at hv
      simp only at hv
      split_ifs at hv
      obtain rfl := Option.some.inj hv
      have hsame : sanitizeCookieValue (kept d) = sanitizeCookieValue d := by
        unfold sanitizeCookieValue
        rw [kept_of_chars (kept_chars d)]
      have hfits := (setsNext_some hs).2
      unfold fits at hfits ⊢
      rw [hsame]
      exact hfits
  | (_, .callback q ..) :: past, v, hv => by
    rw [live] at hv
    split_ifs at hv
    exact live_fits hv

theorem latestRedirect_mem : ∀ {past : List (ℤ × Visit)} {r : ℤ × String × String}, latestRedirect p past = some r →
    ∃ v, (r.1, v) ∈ past
  | (t, .redirect q next rs rv) :: past, r, hr => by
    rw [latestRedirect] at hr
    split_ifs at hr
    · obtain rfl := Option.some.inj hr
      exact ⟨_, List.mem_cons_self⟩
    · obtain ⟨v, hv⟩ := latestRedirect_mem hr
      exact ⟨v, List.mem_cons_of_mem _ hv⟩
  | (_, .callback ..) :: past, r, hr => by
    have hr : latestRedirect p past = some r := hr
    obtain ⟨v, hv⟩ := latestRedirect_mem hr
    exact ⟨v, List.mem_cons_of_mem _ hv⟩

/-- Nothing is left in the cookie, of what a browser would be sent to. -/
theorem bare_iff : ∀ past : List (ℤ × Visit), (live h now past).bind destination = none ↔ h.Bare now past
  | [] => by simp [live, Bare]
  | (t, .redirect q next _ _) :: past => by
    have ih := bare_iff past
    rw [live, Bare]
    cases h.setsNext q next with
    | none => exact ih
    | some d =>
      by_cases hlt : now < t + 600
      · simp [hlt, not_le.2 hlt]
      · simp [hlt, not_lt.1 hlt]
  | (_, .callback q ..) :: past => by
    have ih := bare_iff past
    rw [live, Bare]
    by_cases hq : h.configured q = true
    · simp [hq]
    · simpa [hq] using ih

theorem destination_kept {d d' : String} (hd : destination d = some d) : destination (kept d') = some d ↔ kept d' = d := by
  constructor
  · exact fun hk => (destination_some hk).1
  · rintro rfl
    exact hd

/-- **The destination of the last redirect is left in the cookie** when the cookie has been left to it. -/
theorem keeps_iff (hconf : h.configured p = true) {t : ℤ} {state next d : String} (hd : destination next = some d)
    (hlt : now < t + 600) : ∀ {past : List (ℤ × Visit)}, InOrder past → latestRedirect p past = some (t, state, next) →
    ((live h now past).bind destination = some d ↔ h.Keeps p d past)
  | (t', .redirect q next' rs rv) :: past, hord, hlatest => by
    obtain ⟨hold, hord⟩ := List.pairwise_cons.1 hord
    have hdd := (destination_some hd).2
    rw [live, Keeps]
    rw [latestRedirect] at hlatest
    by_cases hqp : q = p
    · subst hqp
      rw [if_pos rfl] at hlatest
      simp only [Option.some.injEq, Prod.mk.injEq] at hlatest
      obtain ⟨rfl, -, rfl⟩ := hlatest
      cases hs : h.setsNext q next' with
      | some d' =>
        have hd' := (setsNext_some hs).1
        rw [hd, Option.some.injEq] at hd'
        subst hd'
        simp only
        rw [if_pos hlt, Option.bind_some, destination_kept hdd]
      | none =>
        -- a destination that does not fit is not left by any visit
        have hunfit : fits OAuthCookie.text .oauthNext d = false := by
          rw [setsNext, if_pos hconf, hd, Option.filter_some] at hs
          by_contra hfits
          simp [hfits] at hs
        simp only [ne_eq, not_true_eq_false, false_and, iff_false]
        intro hl
        obtain ⟨v, hv, hvd⟩ := Option.bind_eq_some_iff.1 hl
        have hfits := live_fits hv
        rw [(destination_some hvd).1, hunfit] at hfits
        cases hfits
    · rw [if_neg hqp] at hlatest
      have ih := keeps_iff hconf hd hlt hord hlatest
      obtain ⟨v, hv⟩ := latestRedirect_mem hlatest
      have htime : t ≤ t' := hold _ hv
      cases h.setsNext q next' with
      | none => simpa [hqp] using ih
      | some d' =>
        simp only
        rw [if_pos (lt_of_lt_of_le hlt (by omega)), Option.bind_some, destination_kept hdd]
  | (_, .callback q ..) :: past, hord, hlatest => by
    have ih := keeps_iff hconf hd hlt (List.pairwise_cons.1 hord).2 hlatest
    rw [live, Keeps]
    by_cases hq : h.configured q = true
    · simp [hq]
    · simpa [hq] using ih

/-- A callback that is let in leads where its flow was to just when the flow has been left alone. -/
theorem leads_iff (hconf : h.configured p = true) {state : String} (hord : InOrder past)
    (hread : read now (h.jarAfter past) p.stateCookie = some state) :
    (live h now past).bind destination = due p past ↔ h.Undisturbed p now past := by
  obtain ⟨t, next, hlatest, hlt⟩ := latestRedirect_of_read hconf hread
  have hdue : due p past = destination next := by rw [due, hlatest, Option.bind_some]
  unfold Undisturbed
  rw [hdue]
  cases hd : destination next with
  | none => exact bare_iff past
  | some d => exact keeps_iff hconf hd hlt hord hlatest

/-- One callback. -/
theorem callback_bound_iff {state code deviceID : String} {up : Upstream} (hord : InOrder past) (hnow : ∀ v ∈ past, v.1 ≤ now) :
    let a := h.answer (read now (h.jarAfter past)) (.callback p state code deviceID up)
    Bound p state past a ↔ ((∃ dest token, a.outcome = .callbackPage dest token) → h.Undisturbed p now past) := by
  intro a
  by_cases hconf : h.configured p = true
  swap
  · obtain ⟨-, hlogin, hleads⟩ := answer_unconfigured (h := h) (read now (h.jarAfter past))
      (.callback p state code deviceID up) (by simpa using hconf)
    have hnone : ¬ ∃ dest token, a.outcome = .callbackPage dest token := fun ⟨dest, token, ho⟩ => hleads dest token ho
    have hbound : Bound p state past a := by
      refine ⟨fun hl => ?_, fun dest token ho => absurd ho (hleads dest token)⟩
      rw [hlogin] at hl
      cases hl
    exact ⟨fun _ hd => absurd hd hnone, fun _ => hbound⟩
  have hanswer : CallbackAnswer p (read now (h.jarAfter past)) state a := callback_answer hconf
  have hlogin : a.login.isSome → ∃ t next, latestRedirect p past = some (t, state, next) := by
    intro hl
    obtain ⟨t, next, hlatest, -⟩ := latestRedirect_of_read hconf (hanswer.login hl)
    exact ⟨t, next, hlatest⟩
  have hleads : ∀ dest token, a.outcome = .callbackPage dest token → (dest = due p past ↔ h.Undisturbed p now past) := by
    intro dest token ho
    obtain ⟨hread, hdest⟩ := hanswer.leads dest token ho
    rw [read_next_after hord hnow] at hdest
    rw [hdest]
    exact leads_iff hconf hord hread
  constructor
  · rintro hb ⟨dest, token, ho⟩
    exact (hleads dest token ho).1 (hb.2 dest token ho)
  · intro hc
    exact ⟨hlogin, fun dest token ho => (hleads dest token ho).2 (hc ⟨dest, token, ho⟩)⟩

/-- **Every callback of a run is bound to its flow** just when every one that logs in finds its flow left alone. -/
theorem bound_iff_undisturbed (h : OAuthHandler) {run : List (ℤ × Visit)} (hord : InOrder run) :
    h.AtCallbacks (fun past _ p state a => Bound p state past a) run ↔
      h.AtCallbacks (fun past now p _ a => (∃ dest token, a.outcome = .callbackPage dest token) → h.Undisturbed p now past) run := by
  induction run with
  | nil => exact Iff.rfl
  | cons v run ih =>
    obtain ⟨now, v⟩ := v
    obtain ⟨hold, htail⟩ := List.pairwise_cons.1 hord
    cases v with
    | redirect q next rs rv => exact ih htail
    | callback p state code deviceID up => exact and_congr (callback_bound_iff htail hold) (ih htail)

end Runs

/-! ## Two flows of one browser -/

def sampleHandler : OAuthHandler := ⟨fun _ => true, fun _ => []⟩

def sampleUpstream : Upstream where
  exchangeVK _ _ _ := some "vk token"
  userVK _ := some ⟨7, "Anna", "", "anna@example.com", ""⟩
  exchangeYandex _ := some "yandex token"
  userYandex _ := some ⟨"7", "Anna", "", "anna@example.com", "", true⟩
  oauthLogin _ := some ⟨"access", "refresh"⟩

def zeroBytes (n : ℕ) : RandomBytes n := ⟨List.replicate n 0, List.length_replicate⟩

/-- The state of `zeroBytes`. -/
def sampleState : String := "AAAAAAAAAAAAAAAAAAAAAA"

/-- A login through VK that is given up, and one through Yandex; the last visit stands first. -/
def twoFlows : List (ℤ × Visit) :=
  [(60, .callback .yandex sampleState "code" "" sampleUpstream),
   (30, .redirect .yandex "" (zeroBytes 16) (zeroBytes 32)),
   (0, .redirect .vk "/my/bookings" (zeroBytes 16) (zeroBytes 32))]

/-- A login through VK. -/
def oneFlow : List (ℤ × Visit) :=
  [(60, .callback .vk sampleState "code" "device" sampleUpstream),
   (0, .redirect .vk "/my/bookings" (zeroBytes 16) (zeroBytes 32))]

/-- A login that is given up leaves its destination to the next one. -/
theorem given_up_destination : ¬ ∀ (h : OAuthHandler) (run : List (ℤ × Visit)), InOrder run →
    h.AtCallbacks (fun past _ p state a => Bound p state past a) run := by
  intro hc
  have hbound := (hc sampleHandler twoFlows (by simp [InOrder, twoFlows])).1
  have hdest := hbound.2 (some "/my/bookings") "access" (by decide +kernel)
  exact absurd hdest (by decide +kernel)

theorem one_flow_bound : sampleHandler.AtCallbacks (fun past _ p state a => Bound p state past a) oneFlow := by
  refine (bound_iff_undisturbed sampleHandler (by simp [InOrder, oneFlow])).2 ⟨fun _ => ?_, trivial⟩
  show kept "/my/bookings" = "/my/bookings"
  decide

end OAuthHandler

end Agregator
