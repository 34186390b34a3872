import Agregator.AuthStore
import Agregator.ConcPlay
import Agregator.ConcSql
import Agregator.Jwt
import Mathlib.Logic.Function.Basic
/-!
# WsTickets — who a request is let in as

The authentication of the gateway's requests: an access token, or a ticket for it in Redis that is good for one request and not
for long.  A ticket is itself handed out to a request that was let in, by a token or by a ticket; each that is redeemed goes back
to a token that was presented and valid (`admission_lineage`), and is redeemed once (`ticket_once`).
-/
namespace Agregator

open Conc

/-! ## Requests -/

/-- The headers and the parameters that are looked at. -/
structure GateRequest where
  authorization : String
  upgrade : String
  origin : String
  accessToken : String
  wsTicket : String
deriving DecidableEq, Repr

/-- What a request carries in its context. -/
structure Identity where
  userID : String
  role : String
  email : String
deriving DecidableEq, Repr

def Identity.trimmed (who : Identity) : Identity := ⟨trimSpace who.userID, trimSpace who.role, trimSpace who.email⟩

/-- `claimsToCtx`. -/
def claimsToCtx (c : Jwt.Claims) : Identity := ⟨c.userID, c.role, c.email⟩

/-- `key` has signed the tokens, `fold` takes a letter to the one that stands for its cases, and tickets live for `ttl`, if
there is a Redis for them. -/
structure AuthGate (D : Type) where
  key : Jwt.KeyPair D
  fold : Char → Char
  ticketRedis : Bool
  ttl : ℤ

inductive Bearer where
  | malformed
  | missing
  | token (t : String)
deriving DecidableEq, Repr

/-- `strings.CutPrefix(header, "Bearer ")`. -/
def cutBearer (header : String) : Option String :=
  if header.toList.take 7 = "Bearer ".toList then some (String.ofList (header.toList.drop 7)) else none

/-- What is stored under a ticket. -/
structure TicketPayload where
  userID : String
  role : String
  email : String
  origin : String
deriving DecidableEq, Repr

def TicketPayload.identity (p : TicketPayload) : Identity := ⟨p.userID, p.role, p.email⟩

def ticketFields : List (GoJson.StructField TicketPayload) :=
  [⟨"user_id", fun j p => (GoJson.stringValue p.userID j).map fun s => { p with userID := s }⟩,
    ⟨"role", fun j p => (GoJson.stringValue p.role j).map fun s => { p with role := s }⟩,
    ⟨"email", fun j p => (GoJson.stringValue p.email j).map fun s => { p with email := s }⟩,
    ⟨"origin", fun j p => (GoJson.stringValue p.origin j).map fun s => { p with origin := s }⟩]

/-- `json.Marshal` of the map, whose keys are sorted. -/
def TicketPayload.marshal (p : TicketPayload) : List UInt8 :=
  GoJson.encodeText (GoJson.objectText
    [("email", .str p.email), ("origin", .str p.origin), ("role", .str p.role), ("user_id", .str p.userID)])

def TicketPayload.unmarshal (bytes : List UInt8) : Option TicketPayload := GoJson.unmarshal ticketFields ⟨"", "", "", ""⟩ bytes

theorem TicketPayload.unmarshal_marshal (p : TicketPayload) : TicketPayload.unmarshal p.marshal = some p := by
  rw [TicketPayload.unmarshal, TicketPayload.marshal, GoJson.unmarshal_objectText]
  simp [GoJson.Scalar.json, GoJson.setMember, GoJson.findField, ticketFields, GoJson.stringValue]

theorem TicketPayload.marshal_ne_nil (p : TicketPayload) : p.marshal ≠ [] := by
  intro h
  have hp := p.unmarshal_marshal
  rw [h] at hp
  cases hp

/-! ## Redis -/

/-- The values by key, each with the time it goes. -/
abbrev TicketStore := String → Option (List UInt8 × ℤ)

inductive TicketCmd where
  | set (key : String) (value : List UInt8) (ttl : ℤ)
  | getDel (key : String)
deriving DecidableEq

namespace TicketCmd

@[reducible] def Ans : TicketCmd → Type
  | set _ _ _ => Unit
  | getDel _ => Option (List UInt8)

def run (now : ℤ) : (s : TicketCmd) → TicketStore → Except Err s.Ans × TicketStore
  | set key value ttl, store => (.ok (), Function.update store key (some (value, now + ttl)))
  | getDel key, store =>
    (.ok ((store key).bind fun e => if now < e.2 then some e.1 else none), Function.update store key none)

theorem run_getDel {now : ℤ} {key : String} {store : TicketStore} {value : List UInt8} {exp : ℤ}
    (h : store key = some (value, exp)) (hlt : now < exp) :
    (getDel key).run now store = (.ok (some value), Function.update store key none) := by
  dsimp only [run]
  rw [h, Option.bind_some, if_pos hlt]

end TicketCmd

def ticketRules : SqlRules Err TicketStore TicketCmd.Ans := ⟨TicketCmd.run, isUUID⟩

abbrev GateOp := SqlOp TicketCmd

abbrev GateRes : GateOp → Type := SqlOp.Res Err TicketCmd.Ans

abbrev GateProg := Prog GateOp GateRes

abbrev TicketCmd.perform (s : TicketCmd) : GateProg (Except Err s.Ans) := Prog.perform (SqlOp.sql s)

abbrev GateHistory := List (Event GateOp GateRes)

inductive GateAnswer where
  | unauthorized (error : String)
  | forbidden
  | unavailable
  | failed
  | ticket (id : String)
  | served (who : Option Identity)
deriving DecidableEq, Repr

/-! ## The middleware -/

def ticketKey (id : String) : String := "chat:wst:" ++ id

namespace AuthGate

variable {D : Type} (g : AuthGate D)

/-- `strings.EqualFold`. -/
def equalFold (s t : String) : Bool := s.toList.map g.fold == t.toList.map g.fold

def isWebSocketUpgrade (r : GateRequest) : Bool := g.equalFold r.upgrade "websocket"

def bearerTokenFromRequest (r : GateRequest) : Bearer :=
  let header := trimSpace r.authorization
  if header ≠ "" then
    match cutBearer header with
    | none => .malformed
    | some t => if trimSpace t = "" then .malformed else .token (trimSpace t)
  else if g.isWebSocketUpgrade r then
    let qToken := trimSpace r.accessToken
    if qToken ≠ "" then .token qToken else .missing
  else .missing

/-- A trimmed token after `Bearer ` is the token. -/
theorem bearerTokenFromRequest_bearer {t upgrade origin accessToken wsTicket : String} (hne : t ≠ "") (ht : trimSpace t = t) :
    g.bearerTokenFromRequest ⟨"Bearer " ++ t, upgrade, origin, accessToken, wsTicket⟩ = .token t := by
  have hfull : t.toList ≠ [] := fun h => hne (String.toList_injective h)
  have hbearer : "Bearer ".toList = ['B', 'e', 'a', 'r', 'e', 'r', ' '] := by decide
  have hlist : ("Bearer " ++ t).toList = 'B' :: ('e' :: 'a' :: 'r' :: 'e' :: 'r' :: ' ' :: t.toList) := by
    rw [String.toList_append, hbearer]
    rfl
  have hheader : trimSpace ("Bearer " ++ t) = "Bearer " ++ t := by
    refine trimSpace_of_ends (fun c hc => ?_) fun c hc => ?_
    · rw [hlist, List.head?_cons] at hc
      rw [← Option.some.inj hc]
      decide
    · rw [String.toList_append, List.reverse_append, List.head?_append_of_ne_nil _ (by simpa using hfull)] at hc
      rw [← ht] at hc
      exact (trimSpace_ends t).2 c hc
  have hcut : cutBearer ("Bearer " ++ t) = some t := by
    unfold cutBearer
    rw [hlist, hbearer]
    exact (if_pos rfl).trans (congrArg some String.ofList_toList)
  have hnonempty : "Bearer " ++ t ≠ "" := by
    intro h
    rw [h] at hlist
    cases hlist
  unfold bearerTokenFromRequest
  dsimp only
  rw [hheader, if_pos hnonempty, hcut]
  dsimp only
  rw [ht, if_neg hne]

/-- `pkgauth.ValidateAccessToken`, of a text. -/
def validateLocal (now : ℤ) (token : String) : Option Jwt.Claims :=
  (Jwt.validateAccessToken g.key now (GoJson.encodeText token.toList)).toOption

/-- Who comes with a token; `missing` is for who comes with none. -/
def bearer (r : GateRequest) (missing : GateProg GateAnswer) (next : Identity → GateProg GateAnswer) : GateProg GateAnswer :=
  match g.bearerTokenFromRequest r with
  | .malformed => return .unauthorized "invalid authorization header"
  | .missing => missing
  | .token t => do
    let now ← Prog.perform .now
    match g.validateLocal now t with
    | none => return .unauthorized "invalid or expired token"
    | some claims => next (claimsToCtx claims)

def authOptional (r : GateRequest) (next : Option Identity → GateProg GateAnswer) : GateProg GateAnswer :=
  g.bearer r (next none) fun who => next (some who)

/-- A ticket of no origin may come from any. -/
def sameOrigin (p : TicketPayload) (r : GateRequest) : Bool :=
  trimSpace p.origin == "" || g.equalFold (trimSpace p.origin) (trimSpace r.origin)

/-- The ticket comes first; where it does not help, the token. -/
def auth (r : GateRequest) (next : Identity → GateProg GateAnswer) : GateProg GateAnswer :=
  let bearer := g.bearer r (return .unauthorized "missing authorization header") next
  let t := trimSpace r.wsTicket
  if g.ticketRedis = false ∨ t = "" then bearer
  else do
    match ← (TicketCmd.getDel (ticketKey t)).perform with
    | .error _ | .ok none => bearer
    | .ok (some value) =>
      if value = [] then bearer
      else
        match TicketPayload.unmarshal value with
        | none => bearer
        | some p =>
          if trimSpace p.userID = "" then bearer
          else if g.sameOrigin p r then next p.identity.trimmed
          else return .unauthorized "invalid ws_ticket"

/-- A request with a valid token goes on as its user. -/
theorem bearer_runs {r : GateRequest} {missing : GateProg GateAnswer} {next : Identity → GateProg GateAnswer} (t : String)
    (claims : Jwt.Claims) {w w' : SqlWorld TicketStore} {a : GateAnswer} (ht : g.bearerTokenFromRequest r = .token t)
    (hv : g.validateLocal w.clock t = some claims) (hnext : (next (claimsToCtx claims)).Runs (SqlOp.Exec ticketRules) w a w') :
    (g.bearer r missing next).Runs (SqlOp.Exec ticketRules) w a w' := by
  unfold bearer
  rw [ht]
  refine ⟨w.clock, w, ⟨rfl, rfl⟩, ?_⟩
  simp only [Prog.bind_ret]
  rw [hv]
  exact hnext

def requireRole (allowed : List String) (next : Identity → GateProg GateAnswer) (who : Identity) : GateProg GateAnswer :=
  if allowed.contains who.role then next who else return .forbidden

/-! ## The routes -/

/-- The same for the chat and for the notifications. -/
def issueWSTicket (r : GateRequest) (who : Identity) : GateProg GateAnswer :=
  if who.userID = "" then return .unauthorized "Требуется авторизация"
  else if g.ticketRedis = false then return .unavailable
  else do
    let id ← Prog.perform .fresh
    let payload : TicketPayload := ⟨who.userID, who.role, who.email, trimSpace r.origin⟩
    match ← (TicketCmd.set (ticketKey id) payload.marshal g.ttl).perform with
    | .error _ => return .failed
    | .ok () => return .ticket id

end AuthGate

def chatCabinet : List String := ["user", "venue_owner", "master", "admin"]

/-- The routes that hand out tickets, and the others: open to all, to who is let in, and to some roles. -/
inductive GateRoute where
  | wsTicket
  | optional
  | authenticated
  | roles (allowed : List String)
deriving DecidableEq, Repr

structure GateCall where
  route : GateRoute
  request : GateRequest
deriving DecidableEq, Repr

def GateCall.prog {D : Type} (g : AuthGate D) (c : GateCall) : GateProg GateAnswer :=
  match c.route with
  | .wsTicket => g.auth c.request (AuthGate.requireRole chatCabinet (g.issueWSTicket c.request))
  | .optional => g.authOptional c.request fun who => return .served who
  | .authenticated => g.auth c.request fun who => return .served (some who)
  | .roles allowed => g.auth c.request (AuthGate.requireRole allowed fun who => return .served (some who))

abbrev GateWorld := SqlWorld TicketStore

def gateSys {D : Type} (g : AuthGate D) : Sys GateWorld GateCall GateOp GateRes GateAnswer := sqlSys ticketRules (GateCall.prog g)

abbrev GateMoment := Moment GateWorld GateCall GateOp GateRes GateAnswer

/-! ## What lets a request in -/

section Facts

variable {D : Type} {g : AuthGate D}

/-- What has been read lets a request in: a token that is valid at the time, or a ticket for its origin. -/
inductive LetIn (g : AuthGate D) (r : GateRequest) : Event GateOp GateRes → Identity → Prop where
  | token (now : ℤ) (t : String) (claims : Jwt.Claims) : g.bearerTokenFromRequest r = .token t →
      g.validateLocal now t = some claims → LetIn g r ⟨.now, now⟩ (claimsToCtx claims)
  | ticket (value : List UInt8) (p : TicketPayload) : TicketPayload.unmarshal value = some p → trimSpace p.userID ≠ "" →
      g.sameOrigin p r = true →
      LetIn g r ⟨.sql (.getDel (ticketKey (trimSpace r.wsTicket))), .ok (some value)⟩ p.identity.trimmed

def GateOp.sets : GateOp → Bool
  | .sql (.set _ _ _) => true
  | _ => false

/-- The request is let in, and no ticket is stored yet. -/
structure Entered (g : AuthGate D) (r : GateRequest) (who : Identity) (h : GateHistory) : Prop where
  letIn : ∃ e ∈ h, LetIn g r e who
  fresh : ∀ e ∈ h, GateOp.sets e.1 = false

/-- A ticket is stored once, under a new identifier, for who is let in. -/
def TicketPrior (g : AuthGate D) (r : GateRequest) (h : GateHistory) : GateOp → Prop
  | .sql (.set key value ttl) => ttl = g.ttl ∧ ∃ id who, ⟨.fresh, id⟩ ∈ h ∧ key = ticketKey id ∧
      value = TicketPayload.marshal ⟨who.userID, who.role, who.email, trimSpace r.origin⟩ ∧ Entered g r who h
  | _ => True

/-- Who is served is let in. -/
def ServedIn (g : AuthGate D) (r : GateRequest) (h : GateHistory) (a : GateAnswer) : Prop :=
  ∀ who, a = .served (some who) → ∃ e ∈ h, LetIn g r e who

section Programs

-- a text that is trimmed is not to be computed when a program is unfolded
attribute [local irreducible] trimSpace

theorem bearer_obeys {r : GateRequest} {missing : GateProg GateAnswer} {next : Identity → GateProg GateAnswer} {h : GateHistory}
    (hh : ∀ e ∈ h, GateOp.sets e.1 = false) (hmissing : missing.Obeys (TicketPrior g r) (ServedIn g r) h)
    (hnext : ∀ who h', Entered g r who h' → (next who).Obeys (TicketPrior g r) (ServedIn g r) h') :
    (g.bearer r missing next).Obeys (TicketPrior g r) (ServedIn g r) h := by
  unfold AuthGate.bearer
  split
  · intro who hw
    cases hw
  · exact hmissing
  · rename_i t ht
    simp only [Prog.bind_eq, Prog.perform_bind, Prog.pure_eq]
    refine ⟨trivial, fun now => ?_⟩
    dsimp only
    cases hv : g.validateLocal now t with
    | none =>
      intro who hw
      cases hw
    | some claims =>
      refine hnext _ _ ⟨⟨_, List.mem_append_right _ (List.mem_singleton.2 rfl), .token now t claims ht hv⟩, fun e he => ?_⟩
      rcases List.mem_append.1 he with he | he
      · exact hh e he
      · rw [List.mem_singleton.1 he]
        rfl

theorem auth_obeys {r : GateRequest} {next : Identity → GateProg GateAnswer}
    (hnext : ∀ who h', Entered g r who h' → (next who).Obeys (TicketPrior g r) (ServedIn g r) h') :
    (g.auth r next).Obeys (TicketPrior g r) (ServedIn g r) [] := by
  have hbearer : ∀ h : GateHistory, (∀ e ∈ h, GateOp.sets e.1 = false) →
      (g.bearer r (.ret (.unauthorized "missing authorization header")) next).Obeys (TicketPrior g r) (ServedIn g r) h :=
    fun h hh => bearer_obeys hh (fun who hw => by cases hw) hnext
  unfold AuthGate.auth
  dsimp only
  split
  · exact hbearer [] fun e he => absurd he List.not_mem_nil
  simp only [Prog.bind_eq, Prog.perform_bind, Prog.pure_eq]
  refine ⟨trivial, fun res => ?_⟩
  have hget : ∀ e ∈ ([] : GateHistory) ++ [⟨.sql (.getDel (ticketKey (trimSpace r.wsTicket))), res⟩], GateOp.sets e.1 = false := by
    intro e he
    rw [List.mem_singleton.1 he]
    rfl
  cases res with
  | error err => exact hbearer _ hget
  | ok found =>
    cases found with
    | none => exact hbearer _ hget
    | some value =>
      dsimp only
      split
      · exact hbearer _ hget
      cases hp : TicketPayload.unmarshal value with
      | none => exact hbearer _ hget
      | some p =>
        dsimp only
        split
        · exact hbearer _ hget
        rename_i huser
        split
        · rename_i horigin
          exact hnext _ _ ⟨⟨_, List.mem_singleton.2 rfl, .ticket value p hp huser horigin⟩, hget⟩
        · intro who hw
          cases hw

theorem requireRole_obeys {r : GateRequest} {allowed : List String} {next : Identity → GateProg GateAnswer}
    (hnext : ∀ who h', Entered g r who h' → (next who).Obeys (TicketPrior g r) (ServedIn g r) h') (who : Identity) (h : GateHistory)
    (hw : Entered g r who h) : (AuthGate.requireRole allowed next who).Obeys (TicketPrior g r) (ServedIn g r) h := by
  unfold AuthGate.requireRole
  split
  · exact hnext who h hw
  · intro who' hw'
    cases hw'

theorem issueWSTicket_obeys {r : GateRequest} (who : Identity) (h : GateHistory) (hw : Entered g r who h) :
    (g.issueWSTicket r who).Obeys (TicketPrior g r) (ServedIn g r) h := by
  unfold AuthGate.issueWSTicket
  split
  · intro who' hw'
    cases hw'
  split
  · intro who' hw'
    cases hw'
  simp only [Prog.bind_eq, Prog.perform_bind, Prog.pure_eq]
  refine ⟨trivial, fun id => ⟨⟨rfl, id, who, by simp, rfl, rfl, ?_⟩, fun res => ?_⟩⟩
  · obtain ⟨⟨e, he, hlet⟩, hfresh⟩ := hw
    refine ⟨⟨e, List.mem_append_left _ he, hlet⟩, fun e he => ?_⟩
    rcases List.mem_append.1 he with he | he
    · exact hfresh e he
    · rw [List.mem_singleton.1 he]
      rfl
  · cases res with
    | error err =>
      intro who' hw'
      cases hw'
    | ok u =>
      intro who' hw'
      cases hw'

/-- **A call stores a ticket, and is served, as who it is let in.** -/
theorem GateCall.prog_obeys (g : AuthGate D) (c : GateCall) : (c.prog g).Obeys (TicketPrior g c.request) (ServedIn g c.request) [] := by
  have hserved : ∀ who h, Entered g c.request who h →
      (Prog.ret (.served (some who)) : GateProg GateAnswer).Obeys (TicketPrior g c.request) (ServedIn g c.request) h := by
    intro who h hw who' hw'
    cases hw'
    exact hw.letIn
  unfold GateCall.prog
  split
  · exact auth_obeys (requireRole_obeys issueWSTicket_obeys)
  · refine bearer_obeys (fun e he => absurd he List.not_mem_nil) (fun who hw => by cases hw) hserved
  · exact auth_obeys hserved
  · exact auth_obeys (requireRole_obeys hserved)

end Programs

/-! ## The tickets that are stored -/

variable {w₀ : GateWorld} {tr : List GateMoment} {c : Config GateWorld GateCall GateOp GateRes GateAnswer}

/-- **What is stored has been stored by a moment of the run**, for as long as it said. -/
theorem stored_by (h : (gateSys g).Trace w₀ tr c) (h0 : ∀ key, w₀.db key = none) {key : String} {value : List UInt8} {exp : ℤ}
    (hk : c.world.db key = some (value, exp)) :
    ∃ tr₁ i tr₂ ttl, tr = tr₁ ++ i :: tr₂ ∧ i.op = .sql (.set key value ttl) ∧ exp = i.before.world.clock + ttl := by
  induction h with
  | init =>
    rw [h0] at hk
    cases hk
  | start _ _ _ ih => exact ih hk
  | @perform tr w w' ts₁ ts₂ call did o k r ht he ih =>
    have hold : w.db key = some (value, exp) → ∀ m : GateMoment, ∃ tr₁ i tr₂ ttl, tr ++ [m] = tr₁ ++ i :: tr₂ ∧
        i.op = .sql (.set key value ttl) ∧ exp = i.before.world.clock + ttl := by
      intro hw m
      obtain ⟨tr₁, i, tr₂, ttl, rfl, hi, hexp⟩ := ih hw
      exact ⟨tr₁, i, tr₂ ++ [m], ttl, by simp, hi, hexp⟩
    rcases SqlOp.Exec.db he with heq | ⟨stmt, rfl, heq⟩
    · dsimp only at hk
      rw [heq] at hk
      exact hold hk _
    · dsimp only at hk
      rw [heq] at hk
      cases stmt with
      | set key' value' ttl =>
        have hk : Function.update w.db key' (some (value', w.clock + ttl)) key = some (value, exp) := hk
        by_cases hkey : key = key'
        · subst hkey
          rw [Function.update_self] at hk
          obtain ⟨rfl, rfl⟩ := Prod.mk.inj (Option.some.inj hk)
          exact ⟨tr, _, [], ttl, rfl, rfl, rfl⟩
        · rw [Function.update_of_ne hkey] at hk
          exact hold hk _
      | getDel key' =>
        have hk : Function.update w.db key' none key = some (value, exp) := hk
        by_cases hkey : key = key'
        · subst hkey
          rw [Function.update_self] at hk
          cases hk
        · rw [Function.update_of_ne hkey] at hk
          exact hold hk _
  | env _ he ih =>
    obtain ⟨later, -, rfl⟩ := he
    exact ih hk

/-! ## Where an admission comes from -/

/-- **How a moment has let a request in as someone**: by a token that it has found valid, or by a ticket that it has redeemed in
time and that was stored for a request that was let in before. -/
inductive Lineage (g : AuthGate D) (tr : List GateMoment) : GateMoment → Identity → Prop where
  | token {m : GateMoment} (t : String) (claims : Jwt.Claims) (now : ℤ) : m ∈ tr → m.event = ⟨.now, now⟩ →
      g.bearerTokenFromRequest m.thread.call.request = .token t → g.validateLocal now t = some claims →
      Lineage g tr m (claimsToCtx claims)
  | ticket {m i e : GateMoment} (who : Identity) (id : String) (value : List UInt8) (tr₁ tr₂ : List GateMoment) :
      Lineage g tr e who → e.thread.call = i.thread.call → e.thread.did ++ [e.event] <+: i.thread.did →
      tr = tr₁ ++ i :: tr₂ → e ∈ tr₁ → m ∈ tr₂ → ⟨.fresh, id⟩ ∈ i.thread.did →
      i.op = .sql (.set (ticketKey id) value g.ttl) → m.event = ⟨.sql (.getDel (ticketKey id)), .ok (some value)⟩ →
      m.before.world.clock < i.before.world.clock + g.ttl →
      g.sameOrigin ⟨who.userID, who.role, who.email, trimSpace i.thread.call.request.origin⟩ m.thread.call.request = true →
      Lineage g tr m who.trimmed

/-- A longer run. -/
theorem Lineage.grow {m : GateMoment} {who : Identity} (h : Lineage g tr m who) (tr' : List GateMoment) : Lineage g (tr ++ tr') m who := by
  induction h with
  | token t claims now hm he ht hv => exact .token t claims now (List.mem_append_left _ hm) he ht hv
  | ticket who id value tr₁ tr₂ _ hcall hdid htr he hm hid hop hev htime horigin ih =>
    exact .ticket who id value tr₁ (tr₂ ++ tr') ih hcall hdid (by rw [htr]; simp) he (List.mem_append_left _ hm) hid hop hev htime
      horigin

/-- Whatever lets in at some moment of a run has its lineage there. -/
theorem lineage_of_letIn : ∀ (n : ℕ) {tr : List GateMoment} {c : Config GateWorld GateCall GateOp GateRes GateAnswer},
    tr.length ≤ n → (gateSys g).Trace w₀ tr c → (∀ key, w₀.db key = none) → ∀ m ∈ tr, ∀ who,
    LetIn g m.thread.call.request m.event who → Lineage g tr m who := by
  intro n
  induction n with
  | zero =>
    intro tr c hn _ _ m hm
    rw [List.eq_nil_of_length_eq_zero (Nat.le_zero.1 hn)] at hm
    exact absurd hm List.not_mem_nil
  | succ n ih =>
    intro tr c hn h h0 m hm who hlet
    obtain ⟨tr₁, tr₂, htr⟩ := List.append_of_mem hm
    generalize hev : m.event = ev at hlet
    cases hlet with
    | token now t claims ht hv => exact .token t claims now hm hev ht hv
    | ticket value p hp huser horigin =>
      -- what was found in Redis has been stored
      have hexec := (h.steps m hm).exec
      have hran := Sys.Trace.ran h hm hev
      have hfound := Except.ok.inj (Prod.mk.inj hran).1
      obtain ⟨⟨value', exp⟩, hstored, hlive⟩ := Option.bind_eq_some_iff.1 hfound
      dsimp only at hlive
      split at hlive
      · rename_i htime
        obtain rfl := Option.some.inj hlive
        have hbefore : (gateSys g).Trace w₀ tr₁ m.before := h.before htr
        obtain ⟨s₁, i, s₂, ttl, hs, hop, rfl⟩ := stored_by hbefore h0 hstored
        have hi : i ∈ tr := by
          rw [htr, hs]
          simp
        have hobeys := fun call => (GateCall.prog_obeys g call).after
        have hprior : TicketPrior g i.thread.call.request i.thread.did i.op := h.prior hobeys i hi
        rw [hop] at hprior
        obtain ⟨rfl, id, who', hid, hkey, rfl, ⟨e, he, hlet⟩, -⟩ := hprior
        have hissue : (gateSys g).Trace w₀ s₁ i.before := hbefore.before hs
        obtain ⟨ts₁, ts₂, k, hts, -⟩ := (h.steps i hi).thread
        obtain ⟨x, hx, hcall, hpre, rfl, -⟩ := hissue.performing (t := i.thread) (by rw [hts]; simp) he
        rw [← hcall] at hlet
        have hshort : s₁.length ≤ n := by
          rw [htr, hs] at hn
          simp only [List.length_append, List.length_cons] at hn
          omega
        have hline := (ih hshort hissue h0 x hx who' hlet).grow (i :: (s₂ ++ m :: tr₂))
        rw [TicketPayload.unmarshal_marshal] at hp
        obtain rfl := Option.some.inj hp
        have hsplit : tr = s₁ ++ i :: (s₂ ++ m :: tr₂) := by
          rw [htr, hs]
          simp
        rw [← hsplit] at hline
        rw [hkey] at hop hev
        exact .ticket who' id _ s₁ (s₂ ++ m :: tr₂) hline hcall hpre hsplit hx (by simp) hid hop hev htime horigin
      · cases hlive

/-- At the root of a lineage there is a token of a request of the run, valid when it was read, and its user. -/
theorem Lineage.root {m : GateMoment} {who : Identity} (h : Lineage g tr m who) :
    ∃ m₀ ∈ tr, ∃ t claims now, m₀.event = ⟨.now, now⟩ ∧ g.bearerTokenFromRequest m₀.thread.call.request = .token t ∧
      g.validateLocal now t = some claims ∧ (who = claimsToCtx claims ∨ who = (claimsToCtx claims).trimmed) := by
  induction h with
  | token t claims now hm he ht hv => exact ⟨_, hm, t, claims, now, he, ht, hv, .inl rfl⟩
  | ticket who id value tr₁ tr₂ _ _ _ _ _ _ _ _ _ _ _ ih =>
    obtain ⟨m₀, hm₀, t, claims, now, he, ht, hv, hwho⟩ := ih
    refine ⟨m₀, hm₀, t, claims, now, he, ht, hv, .inr ?_⟩
    rcases hwho with rfl | rfl
    · rfl
    · simp only [Identity.trimmed, trimSpace_trimSpace]

/-- **Every admission goes back to a token.**  A request that is served as someone, in any run from an empty Redis, is let in by
one of its own operations, which has its lineage: a token of the request, valid when it is read, or a ticket that is redeemed
within its time and from its origin, and that was stored for a request let in as that user.  At the root is a token of a request of
the run that was valid when it was read, and the user is that token's. -/
theorem admission_lineage (h : (gateSys g).Trace w₀ tr c) (h0 : ∀ key, w₀.db key = none) {t : Thread GateCall GateOp GateRes GateAnswer}
    (ht : t ∈ c.threads) {who : Identity} (hret : t.rest = .ret (.served (some who))) :
    (∃ m ∈ tr, m.thread.call = t.call ∧ m.thread.did ++ [m.event] <+: t.did ∧ Lineage g tr m who) ∧
      ∃ m₀ ∈ tr, ∃ token claims now, m₀.event = ⟨.now, now⟩ ∧
        g.bearerTokenFromRequest m₀.thread.call.request = .token token ∧ g.validateLocal now token = some claims ∧
        (who = claimsToCtx claims ∨ who = (claimsToCtx claims).trimmed) := by
  have hends := h.reach.ends (fun call => (GateCall.prog_obeys g call).ends) t ht
  rw [hret] at hends
  obtain ⟨e, he, hlet⟩ := hends who rfl
  obtain ⟨m, hm, hcall, hpre, rfl, -⟩ := h.performing ht he
  rw [← hcall] at hlet
  have hline := lineage_of_letIn tr.length (Nat.le_refl _) h h0 m hm who hlet
  exact ⟨⟨m, hm, hcall, hpre, hline⟩, hline.root⟩

/-! ## A ticket is good for one request -/

/-- A moment at which a ticket is stored, or may have been. -/
def GateMoment.stores (id : String) (m : GateMoment) : Bool :=
  match m.op with
  | .sql (.set key _ _) => key == ticketKey id
  | _ => false

/-- A moment at which a ticket is redeemed. -/
def GateMoment.redeems (id : String) (m : GateMoment) : Bool :=
  match m.event with
  | ⟨.sql (.getDel key), .ok (some _)⟩ => key == ticketKey id
  | _ => false

theorem ticketKey_inj {id id' : String} (h : ticketKey id = ticketKey id') : id = id' := by
  have hlist := congrArg String.toList h
  rw [ticketKey, ticketKey, String.toList_append, String.toList_append] at hlist
  exact String.toList_injective (List.append_cancel_left hlist)

theorem stores_iff {id : String} {m : GateMoment} : GateMoment.stores id m = true ↔
    ∃ value ttl, m.op = .sql (.set (ticketKey id) value ttl) := by
  obtain ⟨b, t, o, r, w'⟩ := m
  unfold GateMoment.stores
  dsimp only
  constructor
  · intro h
    split at h
    · rename_i key value ttl
      obtain rfl := beq_iff_eq.1 h
      exact ⟨value, ttl, rfl⟩
    · cases h
  · rintro ⟨value, ttl, rfl⟩
    exact beq_self_eq_true _

/-- **A ticket is stored at most once.** -/
theorem stored_once (h : (gateSys g).Trace w₀ tr c) (id : String) : tr.countP (GateMoment.stores id) ≤ 1 := by
  have hobeys := fun call => (GateCall.prog_obeys g call).after
  induction h with
  | init => exact Nat.zero_le _
  | start _ _ _ ih => exact ih
  | env _ _ ih => exact ih
  | @perform tr w w' ts₁ ts₂ call did o k r ht he ih =>
    rw [List.countP_append, List.countP_singleton]
    split
    · rename_i hstores
      obtain ⟨value, ttl, hop⟩ := stores_iff.1 hstores
      dsimp only at hop
      subst hop
      -- none was stored before: its identifier would have been drawn by this call, which has stored nothing
      suffices hnone : tr.countP (GateMoment.stores id) = 0 by omega
      refine List.countP_eq_zero.2 fun i hi hstored => ?_
      obtain ⟨value', ttl', hop'⟩ := stores_iff.1 hstored
      have hpr' : TicketPrior g i.thread.call.request i.thread.did i.op := ht.prior hobeys i hi
      rw [hop'] at hpr'
      obtain ⟨-, id₁, -, hid₁, hkey₁, -⟩ := hpr'
      obtain rfl := ticketKey_inj hkey₁
      have hpr : TicketPrior g call.request did (.sql (.set (ticketKey id) value ttl)) :=
        ((ht.reach.after hobeys ⟨call, did, .call _ k⟩ (by simp)).1).1
      obtain ⟨-, id₂, who, hid₂, hkey₂, -, hentered⟩ := hpr
      obtain rfl := ticketKey_inj hkey₂
      obtain ⟨t, hmem, -, rest, hdid⟩ := ht.lasting i hi
      have hdrawn : ⟨.fresh, id⟩ ∈ t.did := by
        rw [hdid]
        exact List.mem_append_left _ hid₁
      have hset : i.event ∈ t.did := by
        rw [hdid]
        exact List.mem_append_right _ List.mem_cons_self
      have hsets : GateOp.sets i.event.1 = true := by
        have hev : i.event.1 = i.op := rfl
        rw [hev, hop']
        rfl
      obtain ⟨h1, h2, h3⟩ := List.pairwise_append.1 (ht.drawn_once id)
      rcases List.mem_append.1 hmem with hmem | hmem
      · exact h3 t hmem _ List.mem_cons_self ⟨hdrawn, hid₂⟩
      rcases List.mem_cons.1 hmem with rfl | hmem
      · rw [hentered.fresh _ hset] at hsets
        cases hsets
      · exact (List.pairwise_cons.1 h2).1 t hmem ⟨hid₂, hdrawn⟩
    · exact ih

/-- Whether a ticket is there. -/
def GateWorld.armed (w : GateWorld) (id : String) : ℕ := if (w.db (ticketKey id)).isSome then 1 else 0

theorem armed_le_one (w : GateWorld) (id : String) : GateWorld.armed w id ≤ 1 := by
  unfold GateWorld.armed
  split <;> omega

theorem armed_congr {w w' : GateWorld} {id : String} (h : w'.db (ticketKey id) = w.db (ticketKey id)) :
    GateWorld.armed w' id = GateWorld.armed w id := by
  unfold GateWorld.armed
  rw [h]

theorem redeems_iff {id : String} {m : GateMoment} : GateMoment.redeems id m = true ↔
    ∃ value, m.event = ⟨.sql (.getDel (ticketKey id)), .ok (some value)⟩ := by
  unfold GateMoment.redeems
  constructor
  · intro h
    split at h
    · rename_i key value hev
      obtain rfl := beq_iff_eq.1 h
      exact ⟨value, hev⟩
    · cases h
  · rintro ⟨value, hev⟩
    rw [hev]
    exact beq_self_eq_true _

/-- **What is redeemed was there and is gone**, and nothing is there but what is stored. -/
theorem armed_step {m : GateMoment} (hm : m.Step (gateSys g)) (id : String) :
    (if GateMoment.redeems id m then 1 else 0) + GateWorld.armed m.after id ≤
      GateWorld.armed m.before.world id + if GateMoment.stores id m then 1 else 0 := by
  have hle := armed_le_one m.after id
  by_cases hred : GateMoment.redeems id m = true
  · obtain ⟨value, hev⟩ := redeems_iff.1 hred
    obtain ⟨b, t, o, r, w'⟩ := m
    cases hev
    have hrun := SqlOp.Exec.ok hm.exec
    obtain ⟨hfound, hdb⟩ := Prod.mk.inj hrun
    obtain ⟨e, hstored, -⟩ := Option.bind_eq_some_iff.1 (Except.ok.inj hfound)
    have hgone : w'.db (ticketKey id) = none := by
      rw [← hdb]
      exact Function.update_self ..
    have hbefore : GateWorld.armed b.world id = 1 := by
      rw [GateWorld.armed, hstored]
      rfl
    have hafter : GateWorld.armed w' id = 0 := by
      rw [GateWorld.armed, hgone]
      rfl
    dsimp only
    rw [hbefore, hafter, if_pos hred]
    omega
  rw [if_neg hred]
  by_cases hst : GateMoment.stores id m = true
  · rw [if_pos hst]
    omega
  rw [if_neg hst]
  -- the ticket is left as it is, or taken
  rcases SqlOp.Exec.db hm.exec with heq | ⟨stmt, hop, heq⟩
  · rw [armed_congr (congrFun heq _)]
    omega
  · cases stmt with
    | set key value ttl =>
      have hkey : ticketKey id ≠ key := fun hkey => hst (stores_iff.2 ⟨value, ttl, hkey ▸ hop⟩)
      rw [armed_congr ((congrFun heq _).trans (Function.update_of_ne hkey ..))]
      omega
    | getDel key =>
      by_cases hkey : ticketKey id = key
      · subst hkey
        have hgone : m.after.db (ticketKey id) = none := (congrFun heq _).trans (Function.update_self ..)
        have hafter : GateWorld.armed m.after id = 0 := by
          rw [GateWorld.armed, hgone]
          rfl
        omega
      · rw [armed_congr ((congrFun heq _).trans (Function.update_of_ne hkey ..))]
        omega

/-- **A ticket is redeemed at most once**, whoever presents it and however the requests run into one another. -/
theorem ticket_once (h : (gateSys g).Trace w₀ tr c) (h0 : ∀ key, w₀.db key = none) (id : String) :
    tr.countP (GateMoment.redeems id) ≤ 1 := by
  have hbalance : tr.countP (GateMoment.redeems id) + GateWorld.armed c.world id ≤ tr.countP (GateMoment.stores id) := by
    have hsteps := h.steps
    induction h with
    | init =>
      rw [GateWorld.armed, h0]
      exact Nat.le_refl _
    | start _ _ _ ih => exact ih hsteps
    | env _ he ih =>
      obtain ⟨later, -, rfl⟩ := he
      exact ih hsteps
    | @perform tr w w' ts₁ ts₂ call did o k r ht he ih =>
      have hlast := armed_step (hsteps _ (List.mem_append_right _ (List.mem_singleton.2 rfl))) id
      have ih := ih fun m hm => hsteps m (List.mem_append_left _ hm)
      rw [List.countP_append, List.countP_append, List.countP_singleton, List.countP_singleton]
      dsimp only at hlast ih ⊢
      omega
  have hone := stored_once h id
  omega

end Facts

/-! ## A ticket that is redeemed -/

def exampleGate : AuthGate (List UInt8) := ⟨Jwt.exampleKey, Char.toLower, true, 90 * 10 ^ 9⟩

/-- The token as a text. -/
def tokenText : String :=
  Base64.encode (GoJson.encodeText Jwt.headerJSON.toList) ++ ("." ++ (Base64.encode (Jwt.marshal Jwt.exampleClaims) ++
    ("." ++ Base64.encode (Jwt.encodeRS 5 7))))

theorem tokenText_chars : ∀ c ∈ tokenText.toList, isSpace c = false := by
  have hchars : ∀ bytes : List UInt8, ∀ c ∈ (Base64.encode bytes).toList, isSpace c = false := fun bytes =>
    Base64.encode_chars (by decide +kernel)
  have hdot : ∀ c ∈ ".".toList, isSpace c = false := fun c hc => by
    rw [List.mem_singleton.1 (hc : c ∈ ['.'])]
    decide
  unfold tokenText
  simp only [String.toList_append, List.mem_append]
  rintro c (hc | hc | hc | hc | hc)
  · exact hchars _ c hc
  · exact hdot c hc
  · exact hchars _ c hc
  · exact hdot c hc
  · exact hchars _ c hc

theorem tokenText_bytes : GoJson.encodeText tokenText.toList = Jwt.exampleToken := by
  have hdot : ".".toList.flatMap String.utf8EncodeChar = [Jwt.dot] := by decide
  unfold tokenText Jwt.exampleToken Jwt.signingInput Jwt.header Jwt.encodeToString
  simp only [String.toList_append, GoJson.encodeText, List.flatMap_append, hdot, List.append_assoc, List.nil_append,
    List.cons_append]

def exampleWorld : GateWorld := ⟨fun _ => none, 1500000000, []⟩

theorem tokenText_valid : exampleGate.validateLocal exampleWorld.clock tokenText = some Jwt.exampleClaims := by
  have hmem : (Jwt.signingInput Jwt.exampleClaims, 5, 7) ∈ Jwt.exampleKey.signed := List.mem_cons_self
  have htimes : Jwt.checkTimes exampleWorld.clock Jwt.exampleClaims = .ok Jwt.exampleClaims := Jwt.checkTimes_valid (by decide) (by decide)
  have hvalid : Jwt.validateAccessToken Jwt.exampleKey exampleWorld.clock Jwt.exampleToken = Jwt.checkTimes exampleWorld.clock Jwt.exampleClaims :=
    Jwt.validate_signed Jwt.exampleKey (Jwt.accessClaims_inRange _ _ _ _ _ _) hmem exampleWorld.clock
  rw [AuthGate.validateLocal, tokenText_bytes]
  exact congrArg Except.toOption (hvalid.trans htimes)

def firstTicket : String := "99999999-9999-9999-9999-999999999999"

/-- A page asks for a ticket, with a token. -/
def asksForTicket : GateCall := ⟨.wsTicket, ⟨"Bearer " ++ tokenText, "", "https://a.test", "", ""⟩⟩

/-- A socket of the page opens with the ticket. -/
def opensSocket : GateCall := ⟨.roles chatCabinet, ⟨"", "websocket", "https://A.test", "", firstTicket⟩⟩

theorem asksForTicket_bearer : exampleGate.bearerTokenFromRequest asksForTicket.request = .token tokenText := by
  have hne : tokenText.toList ≠ [] := by
    unfold tokenText
    simp [String.toList_append]
  refine exampleGate.bearerTokenFromRequest_bearer (fun h => hne (by rw [h]; rfl)) (trimSpace_of_ends (fun c hc => ?_) fun c hc => ?_)
  · exact tokenText_chars c (List.mem_of_mem_head? hc)
  · exact tokenText_chars c (List.mem_reverse.1 (List.mem_of_mem_head? hc))

section Played

-- neither the token nor what is stored is to be computed
attribute [local irreducible] TicketPayload.marshal tokenText

def ticketPayload : TicketPayload := ⟨"u1", "user", "a@b.c", "https://a.test"⟩

/-- The ticket is stored for a minute and a half. -/
def storedWorld : GateWorld :=
  ⟨Function.update (fun _ => none) (ticketKey firstTicket) (some (ticketPayload.marshal, 91500000000)), 1500000000, [firstTicket]⟩

theorem asksForTicket_runs :
    ((gateSys exampleGate).prog asksForTicket).Runs (SqlOp.Exec ticketRules) exampleWorld (.ticket firstTicket) storedWorld := by
  have hno : exampleGate.ticketRedis = false ∨ trimSpace asksForTicket.request.wsTicket = "" := .inr (by decide)
  have hprog : (gateSys exampleGate).prog asksForTicket = exampleGate.auth asksForTicket.request
    (AuthGate.requireRole chatCabinet (exampleGate.issueWSTicket asksForTicket.request)) := rfl
  rw [hprog, AuthGate.auth, if_pos hno]
  refine exampleGate.bearer_runs tokenText Jwt.exampleClaims ?_ ?_ ?_
  · exact asksForTicket_bearer
  · exact tokenText_valid
  have hrole : AuthGate.requireRole chatCabinet (exampleGate.issueWSTicket asksForTicket.request) (claimsToCtx Jwt.exampleClaims) =
    exampleGate.issueWSTicket asksForTicket.request (claimsToCtx Jwt.exampleClaims) := if_pos (by decide)
  rw [hrole, AuthGate.issueWSTicket, if_neg (by decide), if_neg (by decide)]
  refine ⟨firstTicket, ⟨exampleWorld.db, 1500000000, [firstTicket]⟩, ⟨by decide, List.not_mem_nil, rfl⟩, ?_⟩
  exact ⟨.ok (), storedWorld, ⟨.none, rfl, rfl⟩, rfl, rfl⟩

def redeemedWorld : GateWorld := ⟨Function.update storedWorld.db (ticketKey firstTicket) none, 1500000000, [firstTicket]⟩

theorem opensSocket_runs : ((gateSys exampleGate).prog opensSocket).Runs (SqlOp.Exec ticketRules) storedWorld
    (.served (some ⟨"u1", "user", "a@b.c"⟩)) redeemedWorld := by
  have hticket : trimSpace opensSocket.request.wsTicket = firstTicket := trimSpace_of_isUUID (by decide)
  have hyes : ¬ (exampleGate.ticketRedis = false ∨ firstTicket = "") := by decide
  have hprog : (gateSys exampleGate).prog opensSocket = exampleGate.auth opensSocket.request
    (AuthGate.requireRole chatCabinet fun who => return .served (some who)) := rfl
  rw [hprog, AuthGate.auth, hticket, if_neg hyes]
  have hstored : storedWorld.db (ticketKey firstTicket) = some (ticketPayload.marshal, 91500000000) :=
    Function.update_self (ticketKey firstTicket) _ fun _ => none
  refine ⟨.ok (some ticketPayload.marshal), redeemedWorld, ⟨.none, TicketCmd.run_getDel hstored (by decide), rfl⟩, ?_⟩
  simp only [Prog.bind_ret]
  rw [if_neg ticketPayload.marshal_ne_nil, TicketPayload.unmarshal_marshal]
  dsimp only
  rw [if_neg (by decide), if_pos (by decide), AuthGate.requireRole, if_pos (by decide)]
  exact ⟨rfl, rfl⟩

/-- A ticket is asked for, and redeemed. -/
theorem socket_trace : ∃ tr did did', (gateSys exampleGate).Trace exampleWorld tr
    ⟨redeemedWorld, [⟨asksForTicket, did, .ret (.ticket firstTicket)⟩, ⟨opensSocket, did', .ret (.served (some ⟨"u1", "user", "a@b.c"⟩))⟩]⟩ := by
  have hstart : (gateSys exampleGate).Trace exampleWorld [] ⟨exampleWorld, [] ++ [⟨asksForTicket, [], (gateSys exampleGate).prog asksForTicket⟩]⟩ :=
    Sys.Trace.init.start asksForTicket trivial
  obtain ⟨tr, did, h⟩ := Sys.Trace.runs (fun _ _ _ _ he => he) asksForTicket_runs hstart
  obtain ⟨tr', did', h'⟩ := Sys.Trace.runs (fun _ _ _ _ he => he) opensSocket_runs (h.start opensSocket trivial)
  exact ⟨tr', did, did', h'⟩

theorem admission_lineage_socket : ∃ tr m c, (gateSys exampleGate).Trace exampleWorld tr c ∧ m.thread.call = opensSocket ∧
    Lineage exampleGate tr m ⟨"u1", "user", "a@b.c"⟩ := by
  obtain ⟨tr, did, did', h⟩ := socket_trace
  obtain ⟨⟨m, -, hcall, -, hline⟩, -⟩ := admission_lineage h (fun _ => rfl)
    (t := ⟨opensSocket, did', .ret (.served (some ⟨"u1", "user", "a@b.c"⟩))⟩) (by simp) rfl
  exact ⟨tr, m, _, h, hcall, hline⟩

theorem ticket_once_socket : ∃ tr c, (gateSys exampleGate).Trace exampleWorld tr c ∧ tr ≠ [] ∧
    tr.countP (GateMoment.redeems firstTicket) ≤ 1 := by
  obtain ⟨tr, did, did', h⟩ := socket_trace
  refine ⟨tr, _, h, ?_, ticket_once h (fun _ => rfl) firstTicket⟩
  rintro rfl
  obtain ⟨⟨m, hm, -⟩, -⟩ := admission_lineage h (fun _ => rfl)
    (t := ⟨opensSocket, did', .ret (.served (some ⟨"u1", "user", "a@b.c"⟩))⟩) (by simp) rfl
  exact List.not_mem_nil hm

end Played

end Agregator
