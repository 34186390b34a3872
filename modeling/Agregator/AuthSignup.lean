import Agregator.AuthOAuth
import Agregator.UserStore
/-!
# AuthSignup — the users a sign-up asks for

A registration and a login with a new identity ask the user service for a user.  It is asked here on any table of users, and
what the caller of the auth service is told is read off whatever the sign-up still does.
-/
namespace Conc

variable {Op : Type} {Res : Op → Type} {α : Type}

/-- The program can come to an operation, and goes on so from its answer. -/
inductive Prog.Comes : Prog Op Res α → (o : Op) → (Res o → Prog Op Res α) → Prop where
  | here (o : Op) (k : Res o → Prog Op Res α) : Comes (.call o k) o k
  | later {o o' : Op} {k : Res o → Prog Op Res α} {k' : Res o' → Prog Op Res α} (r : Res o) (h : Comes (k r) o' k') :
      Comes (.call o k) o' k'

/-- Every operation the program can come to satisfies `P`, with what follows it. -/
def Prog.Each (P : (o : Op) → (Res o → Prog Op Res α) → Prop) : Prog Op Res α → Prop
  | .ret _ => True
  | .call o k => P o k ∧ ∀ r, (k r).Each P

theorem Prog.Comes.each {P : (o : Op) → (Res o → Prog Op Res α) → Prop} {p : Prog Op Res α} {o : Op}
    {k : Res o → Prog Op Res α} (h : p.Comes o k) (hp : p.Each P) : P o k := by
  induction h with
  | here o k => exact hp.1
  | later r _ ih => exact ih (hp.2 r)

theorem Prog.All.each {Q : Op → Prop} {P : (o : Op) → (Res o → Prog Op Res α) → Prop} (hQP : ∀ o k, Q o → P o k) :
    ∀ {p : Prog Op Res α}, p.All Q → p.Each P
  | .ret _, _ => trivial
  | .call o k, h => ⟨hQP o k h.1, fun r => Prog.All.each hQP (h.2 r)⟩

theorem Prog.All.ite {Q : Op → Prop} {c : Prop} [Decidable c] {p₁ p₂ : Prog Op Res α} (h₁ : p₁.All Q) (h₂ : p₂.All Q) :
    (if c then p₁ else p₂).All Q := by
  by_cases hc : c
  · rwa [if_pos hc]
  · rwa [if_neg hc]

end Conc

namespace Agregator

open Rel Conc

/-! ## Codes -/

/-- An error of the database under what wraps it. -/
def Err.carries (e : Err) (sqlState : String) : Bool := ("(SQLSTATE " ++ sqlState ++ ")").toList.isSuffixOf e.text.toList

/-- The code of an error past `PgErrorUnaryInterceptor`, which looks for an error of the database. -/
def Err.grpcCode (e : Err) : Code :=
  if e.code ≠ .unknown then e.code
  else if ["22P02", "22023", "22007", "22008"].any e.carries then .invalidArgument
  else if e.carries "23505" then .alreadyExists
  else .unknown

/-- Nothing in front of an error hides the state at its end. -/
theorem Err.wrap_carries (ctx : String) (e : Err) {sqlState : String} (hs : ':' ∉ sqlState.toList) :
    (e.wrap ctx).carries sqlState = e.carries sqlState := by
  have hdrop : ∀ (l p q : List Char), ':' ∉ l → l.head? ≠ some ' ' → (l <:+ p ++ ':' :: ' ' :: q ↔ l <:+ q) := by
    intro l p q hl hhead
    constructor
    · intro h
      rcases List.suffix_or_suffix_of_suffix h (List.suffix_append p (':' :: ' ' :: q)) with hs | hs
      · rcases List.suffix_cons_iff.1 hs with rfl | hs
        · simp at hl
        · rcases List.suffix_cons_iff.1 hs with rfl | hs
          · simp at hhead
          · exact hs
      · exact absurd (hs.subset List.mem_cons_self) hl
    · intro h
      exact h.trans ((List.suffix_cons _ _).trans ((List.suffix_cons _ _).trans (List.suffix_append _ _)))
  have htext : (e.wrap ctx).text.toList = ctx.toList ++ ':' :: ' ' :: e.text.toList := by
    simp [wrap]
  unfold carries
  rw [Bool.eq_iff_iff, List.isSuffixOf_iff_suffix, List.isSuffixOf_iff_suffix, htext]
  apply hdrop
  · simp [hs]
  · simp

@[simp] theorem Err.wrap_grpcCode (ctx : String) (e : Err) : (e.wrap ctx).grpcCode = e.grpcCode := by
  have hany : ["22P02", "22023", "22007", "22008"].any (e.wrap ctx).carries = ["22P02", "22023", "22007", "22008"].any e.carries := by
    simp only [List.any_cons, List.any_nil]
    rw [e.wrap_carries ctx (by decide), e.wrap_carries ctx (by decide), e.wrap_carries ctx (by decide),
      e.wrap_carries ctx (by decide)]
  unfold grpcCode
  rw [hany, e.wrap_carries ctx (by decide), wrap_code]

/-! ## The user service is asked -/

section Answer

variable {text : CaseRules} {fold : String → String}

/-- What an operation of the user service does to the users. -/
def UserOp.run (now : Time) : (o : UserOp) → Table (userSchema fold) → SqlOp.Res UserErr UserSql.Ans o × Table (userSchema fold)
  | .sql s, t => s.run now t
  | .now, t => (now, t)
  | .fresh, t => ("", t)

/-- The user service's answer to a request, and the users after it. -/
def UserClientAdapter.createUser (text : CaseRules) (now : Time) (inp : CreateUserInput) (t : Table (userSchema fold)) :
    Except Err UserRecord × Table (userSchema fold) :=
  match (UserServer.createUser text inp.id inp.email inp.phone inp.name inp.role).eval (UserOp.run now) t with
  | (.ok resp, t') => (.ok ⟨resp.id, resp.email, resp.role⟩, t')
  | (.error err, t') => (.error ({ err with code := err.grpcCode }.wrap "user-service CreateUser"), t')

/-- A user has the email. -/
def EmailUsed (text : CaseRules) (email : String) (t : Table (userSchema fold)) : Prop :=
  ∃ r ∈ t.rows, fold r.email = fold (text.normalize email)

/-- The user service can store what is asked for. -/
structure CreateUserInput.Fits (text : CaseRules) (inp : CreateUserInput) : Prop where
  email : inp.email ≠ ""
  name : inp.name ≠ ""
  emailLength : (text.normalize inp.email).length ≤ 255
  phoneLength : inp.phone.length ≤ 20
  nameLength : inp.name.length ≤ 255

/-- What is asked for is for a user that is not there, in a role there is. -/
structure CreateUserInput.Fresh (inp : CreateUserInput) (t : Table (userSchema fold)) : Prop where
  id : isUUID inp.id = true
  new : ∀ r ∈ t.rows, r.id ≠ inp.id
  role : inp.role ∈ allowedRoles

/-- The row of a user that is asked for. -/
def CreateUserInput.row (text : CaseRules) (now : Time) (inp : CreateUserInput) : UserRow :=
  UserRepo.row { id := inp.id, email := text.normalize inp.email, phone := inp.phone, name := inp.name, role := inp.role,
                 createdAt := now, updatedAt := now }

/-- **The answer to a request with an identifier and a role that are in order.** -/
theorem UserClientAdapter.createUser_eq (now : Time) {inp : CreateUserInput} {t : Table (userSchema fold)} (h : inp.Fresh t) :
    (createUser text now inp t).1 =
      if inp.email = "" then .error ((Err.status .invalidArgument "email is required").wrap "user-service CreateUser")
      else if inp.name = "" then .error ((Err.status .invalidArgument "name is required").wrap "user-service CreateUser")
      else
        match t.insert (inp.row text now) with
        | .ok _ => .ok ⟨inp.id, text.normalize inp.email, inp.role⟩
        | .error _ => .error ((Err.status .internal UserServer.internalErrMsg).wrap "user-service CreateUser") := by
  have hrole : inp.role ≠ "" := by
    rintro hr
    exact absurd (hr ▸ h.role) (by decide)
  have hvalid : isValidRole inp.role = true := List.contains_iff_mem.2 h.role
  unfold createUser UserServer.createUser
  rw [if_neg (ne_empty_of_isUUID h.id)]
  by_cases hemail : inp.email = ""
  · rw [if_pos hemail, if_pos hemail]
    rfl
  rw [if_neg hemail, if_neg hemail]
  by_cases hname : inp.name = ""
  · rw [if_pos hname, if_pos hname]
    rfl
  rw [if_neg hname, if_neg hname]
  simp only [UserUseCase.create, if_neg hrole, hvalid, Bool.true_eq_false, if_false, Prog.bind_eq, Prog.perform_bind, Prog.pure_eq,
    Prog.bind_call, Prog.eval_call, UserOp.run, UserSql.run, UserRepo.create]
  cases hins : t.insert (inp.row text now) with
  | ok t' =>
    rw [CreateUserInput.row] at hins
    rw [hins]
    rfl
  | error v =>
    rw [CreateUserInput.row] at hins
    rw [hins]
    cases v <;> rfl

/-- **A user is stored exactly if what is asked for fits and nobody has the email.** -/
theorem CreateUserInput.insert_iff (now : Time) {inp : CreateUserInput} {t : Table (userSchema fold)} (h : inp.Fresh t) :
    (∃ t', t.insert (inp.row text now) = .ok t') ↔ ((text.normalize inp.email).length ≤ 255 ∧ inp.phone.length ≤ 20 ∧
      inp.name.length ≤ 255) ∧ ¬ EmailUsed text inp.email t := by
  have hvalid : isValidRole inp.role = true := List.contains_iff_mem.2 h.role
  have hcheck : (userSchema fold).check (inp.row text now) = true ↔
      (text.normalize inp.email).length ≤ 255 ∧ inp.phone.length ≤ 20 ∧ inp.name.length ≤ 255 := by
    simp [userSchema, CreateUserInput.row, UserRepo.row, h.id, hvalid, and_assoc]
  have hclash : ∀ x ∈ t.rows, (userSchema fold).clash x (inp.row text now) = false ↔
      fold x.email ≠ fold (text.normalize inp.email) := by
    intro x hx
    simp [userSchema, CreateUserInput.row, UserRepo.row, h.new x hx]
  constructor
  · rintro ⟨t', hins⟩
    obtain ⟨hc, hu⟩ := Table.of_insert_ok hins
    refine ⟨hcheck.1 hc, ?_⟩
    rintro ⟨r, hr, he⟩
    exact (hclash r hr).1 (hu r hr) he
  · rintro ⟨hlen, hfree⟩
    exact t.insert_ok (hcheck.2 hlen) fun x hx => (hclash x hx).2 fun he => hfree ⟨x, hx, he⟩

/-- **The user service makes the user if the request fits and nobody has the email.** -/
theorem UserClientAdapter.createUser_ok (now : Time) {inp : CreateUserInput} {t : Table (userSchema fold)} (h : inp.Fresh t)
    (hfits : inp.Fits text) (hfree : ¬ EmailUsed text inp.email t) : ∃ user, (createUser text now inp t).1 = .ok user := by
  obtain ⟨t', hins⟩ := (CreateUserInput.insert_iff now h).2 ⟨⟨hfits.emailLength, hfits.phoneLength, hfits.nameLength⟩, hfree⟩
  rw [createUser_eq now h, if_neg hfits.email, if_neg hfits.name, hins]
  exact ⟨_, rfl⟩

/-- **Otherwise it refuses**, and never because there is such a user already. -/
theorem UserClientAdapter.createUser_error (now : Time) {inp : CreateUserInput} {t : Table (userSchema fold)} (h : inp.Fresh t)
    (hnot : ¬ (inp.Fits text ∧ ¬ EmailUsed text inp.email t)) :
    ∃ err, (createUser text now inp t).1 = .error err ∧ err.code ≠ .alreadyExists := by
  rw [createUser_eq now h]
  by_cases hemail : inp.email = ""
  · rw [if_pos hemail]
    exact ⟨_, rfl, by decide⟩
  rw [if_neg hemail]
  by_cases hname : inp.name = ""
  · rw [if_pos hname]
    exact ⟨_, rfl, by decide⟩
  rw [if_neg hname]
  cases hins : t.insert (inp.row text now) with
  | ok t' =>
    obtain ⟨⟨he, hp, hn⟩, hfree⟩ := (CreateUserInput.insert_iff now h).1 ⟨t', hins⟩
    exact absurd ⟨⟨hemail, hname, he, hp, hn⟩, hfree⟩ hnot
  | error v => exact ⟨_, rfl, by decide⟩

end Answer

/-! ## What the caller is told -/

/-- The code a caller of the auth service receives, if it receives an error. -/
def AuthAnswer.code : AuthAnswer → Option Code
  | failed err => some err.grpcCode
  | _ => none

/-- An operation reports that something is there already. -/
def Conflict : Event AuthOp AuthOp.Res → Prop
  | ⟨.sql _, res⟩ => ∃ err, res = .error err ∧ err.toErr.grpcCode = .alreadyExists
  | ⟨.getUser _, res⟩ => ∃ err, res = .error err ∧ err.grpcCode = .alreadyExists
  | _ => False

/-- An error that says that something is there already comes from an operation that said so. -/
def Tells {β : Type} (h : List (Event AuthOp AuthOp.Res)) (res : Except Err β) : Prop :=
  ∀ err, res = .error err → err.grpcCode = .alreadyExists → ∃ e ∈ h, Conflict e

theorem Tells.ok {β : Type} (h : List (Event AuthOp AuthOp.Res)) (b : β) : Tells h (.ok b) := nofun

theorem Tells.internal {β : Type} (h : List (Event AuthOp AuthOp.Res)) (msg : String) :
    Tells h (.error (.ofInternal msg) : Except Err β) := by
  intro err heq hcode
  cases heq
  exact absurd hcode (by simp [Err.ofInternal, Err.grpcCode])

/-- The error of a statement, under what wraps it. -/
theorem Tells.sql {β : Type} (h : List (Event AuthOp AuthOp.Res)) (s : AuthSql) (err : StoreErr) (ctx : String) :
    Tells (h ++ [⟨.sql s, .error err⟩]) (.error (err.toErr.wrap ctx) : Except Err β) := by
  intro _ heq hcode
  cases heq
  rw [Err.wrap_grpcCode] at hcode
  exact ⟨_, List.mem_append_right _ (List.mem_singleton.2 rfl), err, rfl, hcode⟩

theorem Tells.getUser {β : Type} (h : List (Event AuthOp AuthOp.Res)) (userID : String) (err : Err) (ctx : String) :
    Tells (h ++ [⟨.getUser userID, .error err⟩]) (.error (err.wrap ctx) : Except Err β) := by
  intro _ heq hcode
  cases heq
  rw [Err.wrap_grpcCode] at hcode
  exact ⟨_, List.mem_append_right _ (List.mem_singleton.2 rfl), err, rfl, hcode⟩

theorem Tells.to {β γ : Type} {h : List (Event AuthOp AuthOp.Res)} {err : Err} (ht : Tells h (.error err : Except Err β)) :
    Tells h (.error err : Except Err γ) := by
  intro err' heq
  cases heq
  exact ht err rfl

namespace AuthUseCase

variable (uc : AuthUseCase)

theorem generateTokenPair_tells (userID email role : String) (h : List (Event AuthOp AuthOp.Res)) :
    (uc.generateTokenPair userID email role).Ends Tells h := by
  simp only [generateTokenPair, Prog.bind_eq, Prog.perform_bind, Prog.pure_eq]
  intro access
  cases access with
  | error err => exact Tells.internal _ _
  | ok accessToken =>
    intro refresh
    cases refresh with
    | error err => exact Tells.internal _ _
    | ok rawRefresh =>
      intro now stored
      cases stored with
      | error err => exact Tells.sql _ _ err _
      | ok _ => exact Tells.ok _ _

theorem issueOAuthTokens_tells (userID : String) (isNewUser : Bool) (h : List (Event AuthOp AuthOp.Res)) :
    (uc.issueOAuthTokens userID isNewUser).Ends Tells h := by
  simp only [issueOAuthTokens, Prog.bind_eq, Prog.perform_bind, Prog.pure_eq]
  intro res
  cases res with
  | error err => exact Tells.getUser _ _ err _
  | ok user =>
    refine Prog.Ends.bind ((uc.generateTokenPair_tells userID user.email user.role _).mono ?_)
    intro h' res hres
    cases res with
    | error err => exact hres.to
    | ok tokens => exact Tells.ok _ _

theorem recoverRace_tells (inp : OAuthInput) (ctx : String) (h : List (Event AuthOp AuthOp.Res)) :
    (uc.recoverRace inp ctx).Ends Tells h := by
  simp only [recoverRace, Prog.bind_eq, Prog.perform_bind, Prog.pure_eq]
  intro res
  cases res with
  | error err => exact Tells.sql _ _ err _
  | ok linked => exact uc.issueOAuthTokens_tells _ _ _

/-- What follows a request for a user: a refusal that is none of an email reaches the caller as such, and a user that is made
gives no cause to tell the caller that there is one. -/
structure Follows (inp : CreateUserInput) (k : Except Err UserRecord → AuthProg AuthAnswer) : Prop where
  role : inp.role ∈ allowedRoles
  refused : ∀ err, err.code ≠ .alreadyExists → ¬ (k (.error err)).Ends (fun _ a => a.code = some .alreadyExists) []
  made : ∀ user, (k (.ok user)).Ends (fun h a => a.code = some .alreadyExists → ∃ e ∈ h, Conflict e) []

theorem Tells.answer {β : Type} {f : β → AuthAnswer} (hf : ∀ b, (f b).code = none) {h : List (Event AuthOp AuthOp.Res)}
    {res : Except Err β} (ht : Tells h res) : (AuthAnswer.of f res).code = some .alreadyExists → ∃ e ∈ h, Conflict e := by
  intro hcode
  cases res with
  | error err => exact ht err rfl (Option.some.inj hcode)
  | ok b => exact absurd ((hf b).symm.trans hcode) nofun

theorem validateRegisterInput_ok {inp inp' : RegisterInput} (h : uc.validateRegisterInput inp = .ok inp') :
    inp'.email = uc.text.normalize inp.email ∧ inp'.password = inp.password ∧ inp'.role ∈ allowedRoles ∧
      inp'.email ≠ "" ∧ inp'.name ≠ "" := by
  have hsub : ∀ role ∈ selfRegistrationRoles, role ∈ allowedRoles := by decide
  simp only [validateRegisterInput] at h
  generalize uc.text.normalize inp.email = email at h ⊢
  generalize trimSpace inp.name = name at h
  generalize uc.text.normalize inp.role = role at h
  by_cases hemail : email = ""
  · rw [if_pos hemail] at h
    cases h
  rw [if_neg hemail] at h
  by_cases hat : email.toList.contains '@' = false
  · rw [if_pos hat] at h
    cases h
  rw [if_neg hat] at h
  cases hpassword : uc.validateAccountPassword inp.password with
  | error err =>
    rw [hpassword] at h
    cases h
  | ok _ =>
    simp only [hpassword] at h
    by_cases hname : name = ""
    · rw [if_pos hname] at h
      cases h
    rw [if_neg hname] at h
    by_cases hrole : (if role = "" then "user" else role) ∈ selfRegistrationRoles
    · rw [if_pos hrole] at h
      rw [← Except.ok.inj h]
      exact ⟨rfl, rfl, hsub _ hrole, hemail, hname⟩
    · rw [if_neg hrole] at h
      cases h

/-- What asks for no user. -/
def Silent : AuthOp → Prop
  | .createUser _ => False
  | _ => True

/-- What follows the requests for a user. -/
def Sends : (o : AuthOp) → (o.Res → AuthProg AuthAnswer) → Prop
  | .createUser inp, k => Follows inp k
  | _, _ => True

theorem Silent.each {p : AuthProg AuthAnswer} (h : p.All Silent) : p.Each Sends := by
  refine Prog.All.each (fun o k ho => ?_) h
  cases o with
  | createUser inp => exact ho.elim
  | _ => trivial

/-- A program that asks for no user, and its answer. -/
theorem Silent.answer {β : Type} {p : AuthProg β} (f : β → AuthAnswer) (h : p.All Silent) : (p.bind fun res => .ret (f res)).Each Sends :=
  have hret : ∀ b, (Prog.ret (f b) : AuthProg AuthAnswer).All Silent := fun _ => trivial
  Silent.each (Prog.All.bind hret h)

/-- What asks for no user, and touches no account. -/
def Quiet : AuthOp → Prop
  | .createUser _ => False
  | .sql s => s.writesAccounts = false
  | _ => True

theorem Quiet.silent {o : AuthOp} (h : Quiet o) : Silent o := by
  cases o with
  | createUser inp => exact h
  | _ => trivial

theorem generateTokenPair_quiet (userID email role : String) : (uc.generateTokenPair userID email role).All Quiet := by
  simp only [generateTokenPair, Prog.bind_eq, Prog.perform_bind, Prog.pure_eq]
  refine ⟨trivial, fun access => ?_⟩
  cases access with
  | error err => trivial
  | ok accessToken =>
    refine ⟨trivial, fun refresh => ?_⟩
    cases refresh with
    | error err => trivial
    | ok rawRefresh =>
      refine ⟨trivial, fun now => ⟨rfl, fun stored => ?_⟩⟩
      cases stored <;> trivial

theorem generateTokenPair_silent (userID email role : String) : (uc.generateTokenPair userID email role).All Silent :=
  (uc.generateTokenPair_quiet userID email role).mono fun _ => Quiet.silent

theorem sendVerificationEmail_quiet {userID email : String} {p : AuthProg (Except Err Unit)}
    (hp : uc.sendVerificationEmail userID email = p) : p.All Quiet := by
  subst hp
  have hlink : (uc.issueLink .emailVerification "verification" uc.verifyTTL userID).All Quiet := by
    simp only [issueLink, Prog.bind_eq, Prog.perform_bind, Prog.pure_eq]
    refine ⟨rfl, fun invalidated => ?_⟩
    cases invalidated with
    | error err => trivial
    | ok _ =>
      refine ⟨trivial, fun token => ?_⟩
      cases token with
      | error err => trivial
      | ok rawToken =>
        refine ⟨trivial, fun now => ⟨rfl, fun stored => ?_⟩⟩
        cases stored <;> trivial
  unfold sendVerificationEmail
  generalize uc.normalizeAccountEmail email = email
  refine Prog.All.ite trivial (Prog.All.ite trivial (Prog.All.ite trivial ?_))
  refine Prog.All.bind (fun res => ?_) hlink
  cases res with
  | error err => trivial
  | ok rawToken =>
    refine ⟨trivial, fun sent => ?_⟩
    cases sent <;> trivial

theorem issueOAuthTokens_silent (userID : String) (isNewUser : Bool) : (uc.issueOAuthTokens userID isNewUser).All Silent := by
  simp only [issueOAuthTokens, Prog.bind_eq, Prog.perform_bind, Prog.pure_eq]
  refine ⟨trivial, fun res => ?_⟩
  cases res with
  | error err => trivial
  | ok user =>
    refine Prog.All.bind (fun res => ?_) (uc.generateTokenPair_silent userID user.email user.role)
    cases res <;> trivial

theorem recoverRace_silent (inp : OAuthInput) (ctx : String) : (uc.recoverRace inp ctx).All Silent := by
  simp only [recoverRace, Prog.bind_eq, Prog.perform_bind, Prog.pure_eq]
  refine ⟨trivial, fun res => ?_⟩
  cases res with
  | error err => trivial
  | ok linked => exact uc.issueOAuthTokens_silent _ _

/-! ## The requests -/

theorem registerUser_sends {inp : RegisterInput} (hrole : inp.role ∈ allowedRoles) (userID : String) :
    ((uc.registerUser inp userID).bind fun res => .ret (.of .account res)).Each Sends := by
  simp only [registerUser, Prog.bind_eq, Prog.perform_bind, Prog.pure_eq, Prog.bind_call]
  refine ⟨⟨hrole, fun err hcode hends => ?_, fun user => ?_⟩, fun res => ?_⟩
  · have hend := hends (.ok ())
    rw [if_neg hcode] at hend
    by_cases hinvalid : err.code = .invalidArgument
    · rw [if_pos hinvalid] at hend
      exact absurd (show some (Err.ofInvalidArgument err.text).grpcCode = some .alreadyExists from hend) nofun
    · rw [if_neg hinvalid] at hend
      exact absurd (show some (Err.ofInternal "ошибка при создании пользователя").grpcCode = some .alreadyExists from hend) nofun
  · refine Prog.Ends.bind (Prog.Ends.bind ((uc.generateTokenPair_tells user.id inp.email inp.role _).mono ?_))
    intro h' res hres
    cases res with
    | error err => exact Tells.answer (fun _ => rfl) hres.to
    | ok tokens =>
      have htold : ∀ h, (AuthAnswer.of .account (.ok (⟨user.id, tokens⟩ : AuthResult))).code = some .alreadyExists →
          ∃ e ∈ h, Conflict e := fun h => Tells.answer (fun _ => rfl) (Tells.ok h _)
      generalize uc.sendVerificationEmail user.id inp.email = p
      dsimp only
      refine Prog.Ends.ite (Prog.Ends.bind ?_) (htold h')
      exact Prog.Ends.of_forall (fun h _ => htold h) p h'
  · apply Silent.answer
    cases res with
    | error err => exact ⟨trivial, fun _ => Prog.All.ite trivial (Prog.All.ite trivial trivial)⟩
    | ok user =>
      refine Prog.All.bind (fun res => ?_) (uc.generateTokenPair_silent user.id inp.email inp.role)
      cases res with
      | error err => trivial
      | ok tokens =>
        generalize hmail : uc.sendVerificationEmail user.id inp.email = p
        dsimp only
        refine Prog.All.ite (Prog.All.bind (fun _ => ?_) ((uc.sendVerificationEmail_quiet hmail).mono fun _ => Quiet.silent)) trivial
        trivial

theorem register_sends {inp : RegisterInput} {p : AuthProg AuthAnswer} (hp : AuthCall.prog uc (.register inp) = p) :
    p.Each Sends := by
  subst hp
  simp only [AuthCall.prog, register, Prog.bind_eq, Prog.pure_eq]
  cases hvalid : uc.validateRegisterInput inp with
  | error err => trivial
  | ok inp' =>
    refine ⟨trivial, fun hash => ?_⟩
    cases hash with
    | error err => trivial
    | ok hash =>
      refine ⟨trivial, fun userID => ⟨trivial, fun stored => ?_⟩⟩
      cases stored with
      | ok _ => exact uc.registerUser_sends (uc.validateRegisterInput_ok hvalid).2.2.1 userID
      | error err =>
        apply Silent.answer
        exact Prog.All.ite trivial (Prog.All.ite trivial trivial)

theorem oauthNew_sends (inp : OAuthInput) : ((uc.oauthNew inp).bind fun res => .ret (.of .oauth res)).Each Sends := by
  have huser : "user" ∈ allowedRoles := by decide
  simp only [oauthNew, Prog.bind_eq, Prog.perform_bind, Prog.pure_eq, Prog.bind_call]
  refine ⟨trivial, fun userID => ⟨⟨huser, fun err hcode hends => ?_, fun user stored => ?_⟩, fun res => ?_⟩⟩
  · simp only [if_neg hcode] at hends
    exact absurd (show some (Err.ofInternal "ошибка при создании пользователя").grpcCode = some .alreadyExists from hends) (by rintro ⟨⟩)
  · apply Prog.Ends.bind
    cases stored with
    | error err =>
      refine Prog.Ends.ite ?_ (Tells.answer (fun _ => rfl) (Tells.sql _ _ err _))
      exact (uc.recoverRace_tells inp _ _).mono fun h res hres => Tells.answer (fun _ => rfl) hres
    | ok _ =>
      refine Prog.Ends.bind ((uc.generateTokenPair_tells user.id _ "user" _).mono ?_)
      intro h' res hres
      cases res with
      | error err => exact Tells.answer (fun _ => rfl) hres.to
      | ok tokens => exact fun hres => by cases hres
  · apply Silent.answer
    cases res with
    | error err => exact Prog.All.ite trivial trivial
    | ok user =>
      refine ⟨trivial, fun stored => ?_⟩
      cases stored with
      | error err => exact Prog.All.ite (uc.recoverRace_silent inp _) trivial
      | ok _ =>
        refine Prog.All.bind (fun res => ?_) (uc.generateTokenPair_silent user.id _ "user")
        cases res <;> trivial

theorem oauthLogin_sends {inp : OAuthInput} {p : AuthProg AuthAnswer} (hp : AuthCall.prog uc (.oauthLogin inp) = p) :
    p.Each Sends := by
  subst hp
  simp only [AuthCall.prog, oauthLogin, Prog.bind_eq, Prog.pure_eq, Prog.perform_bind, Prog.bind_call]
  refine ⟨trivial, fun found => ?_⟩
  cases found with
  | ok cred =>
    apply Silent.answer
    exact Prog.All.ite ⟨trivial, fun _ => uc.issueOAuthTokens_silent _ _⟩ (uc.issueOAuthTokens_silent _ _)
  | error err =>
    dsimp only
    by_cases hvouched : inp.emailVerified = true
    · rw [if_pos hvouched]
      refine ⟨trivial, fun found => ?_⟩
      cases found with
      | error err => exact uc.oauthNew_sends _
      | ok cred =>
        apply Silent.answer
        refine ⟨trivial, fun linked => ?_⟩
        cases linked with
        | error err => exact Prog.All.ite (uc.recoverRace_silent _ _) trivial
        | ok _ => exact uc.issueOAuthTokens_silent _ _
    · rw [if_neg hvouched]
      exact uc.oauthNew_sends _

end AuthUseCase

/-! ## The two services -/

/-- The calls that sign somebody up. -/
inductive AuthCall.SignsUp : AuthCall → Prop where
  | register (inp : AuthUseCase.RegisterInput) : SignsUp (.register inp)
  | oauthLogin (inp : AuthUseCase.OAuthInput) : SignsUp (.oauthLogin inp)

/-- The services agree on a request: the user service finds nothing wrong with it and refuses it only because a user has the
email, and that is when the caller learns that there is such a user. -/
structure Agrees (text : CaseRules) {fold : String → String} (now : Time) (users : Table (userSchema fold))
    (inp : CreateUserInput) (k : Except Err UserRecord → AuthProg AuthAnswer) : Prop where
  checked : ∀ err, (UserClientAdapter.createUser text now inp users).1 = .error err → err.code ≠ .invalidArgument
  refused : ∀ err, (UserClientAdapter.createUser text now inp users).1 = .error err → EmailUsed text inp.email users
  told : (k (UserClientAdapter.createUser text now inp users).1).Ends (fun h a =>
    (EmailUsed text inp.email users → a.code = some .alreadyExists) ∧
      (a.code = some .alreadyExists → EmailUsed text inp.email users ∨ ∃ e ∈ h, Conflict e)) []

/-- **The services agree on a sign-up exactly if the request fits and nobody has the email.** -/
theorem agrees_iff (uc : AuthUseCase) {call : AuthCall} (hcall : call.SignsUp) {inp : CreateUserInput}
    {k : Except Err UserRecord → AuthProg AuthAnswer} (h : (call.prog uc).Comes (.createUser inp) k) {fold : String → String}
    (now : Time) {users : Table (userSchema fold)} (hid : isUUID inp.id = true) (hnew : ∀ r ∈ users.rows, r.id ≠ inp.id) :
    Agrees uc.text now users inp k ↔ inp.Fits uc.text ∧ ¬ EmailUsed uc.text inp.email users := by
  generalize hp : call.prog uc = p at h
  have hsends : p.Each AuthUseCase.Sends := by
    cases hcall with
    | register inp => exact uc.register_sends hp
    | oauthLogin inp => exact uc.oauthLogin_sends hp
  have hfollows : AuthUseCase.Sends (.createUser inp) k := h.each hsends
  have hfresh : inp.Fresh users := ⟨hid, hnew, hfollows.role⟩
  constructor
  · intro hagrees
    by_contra hnot
    obtain ⟨err, herr, hcode⟩ := @UserClientAdapter.createUser_error uc.text _ now _ _ hfresh hnot
    have htold := hagrees.told
    rw [herr] at htold
    refine hfollows.refused err hcode (htold.mono fun _ a ha => ha.1 ?_)
    exact hagrees.refused err herr
  · rintro ⟨hfits, hfree⟩
    obtain ⟨user, huser⟩ := @UserClientAdapter.createUser_ok uc.text _ now _ _ hfresh hfits hfree
    refine ⟨fun err herr => ?_, fun err herr => ?_, ?_⟩
    · cases huser.symm.trans herr
    · cases huser.symm.trans herr
    · rw [huser]
      exact (hfollows.made user).mono fun h a ha => ⟨fun hused => absurd hused hfree, fun hcode => .inr (ha hcode)⟩

theorem agrees_iff_ann : ∃ k, (AuthCall.prog plainAuth (.register annsInput)).Comes
      (.createUser ⟨firstUser, annsInput.email, "", annsInput.name, "user"⟩) k ∧
    (Agrees plainAuth.text 0 (.empty (userSchema id)) ⟨firstUser, annsInput.email, "", annsInput.name, "user"⟩ k ↔
      CreateUserInput.Fits plainAuth.text ⟨firstUser, annsInput.email, "", annsInput.name, "user"⟩ ∧
        ¬ EmailUsed plainAuth.text annsInput.email (.empty (userSchema id))) := by
  have hvalid : plainAuth.validateRegisterInput annsInput = .ok annsInput := by decide +kernel
  have hcomes : ∃ k, (AuthCall.prog plainAuth (.register annsInput)).Comes
      (.createUser ⟨firstUser, annsInput.email, "", annsInput.name, "user"⟩) k := by
    simp only [AuthCall.prog, AuthUseCase.register, hvalid]
    exact ⟨_, .later (.ok "h") (.later firstUser (.later (.ok ()) (.here _ _)))⟩
  obtain ⟨k, hk⟩ := hcomes
  exact ⟨k, hk, agrees_iff plainAuth (.register annsInput) hk 0 (by decide) (fun _ hr => by cases hr)⟩

/-- The user service asks for the email that nobody vouches for. -/
theorem unvouched_differs : ¬ ∀ (uc : AuthUseCase) (call : AuthCall), call.SignsUp →
    ∀ (inp : CreateUserInput) (k : Except Err UserRecord → AuthProg AuthAnswer), (call.prog uc).Comes (.createUser inp) k →
      ∀ (fold : String → String) (now : Time) (users : Table (userSchema fold)), isUUID inp.id = true →
        (∀ r ∈ users.rows, r.id ≠ inp.id) → Agrees uc.text now users inp k := by
  intro hall
  have hcomes : ∃ k, (AuthCall.prog plainAuth (.oauthLogin { annsLogin with emailVerified := false })).Comes
      (.createUser ⟨firstUser, "", "", "Ann", "user"⟩) k :=
    ⟨_, .later (.error (.notFound "credential not found")) (.later firstUser (.here _ _))⟩
  obtain ⟨k, hk⟩ := hcomes
  have hagrees := hall plainAuth _ (.oauthLogin _) _ k hk id 0 (.empty _) (by decide) (fun _ hr => nomatch hr)
  obtain ⟨r, hr, -⟩ := hagrees.refused _ rfl
  exact nomatch hr

end Agregator
