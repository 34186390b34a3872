import Agregator.AuthSignup
/-!
# AuthRetry — a registration that fails, and the one after it

A registration with the two stores it writes to, where any of its operations may fail before or after its effect.  What it
takes back is the account alone, so it can be repeated exactly when neither store had anything to keep.
-/
namespace Agregator

open Rel Conc

/-! ## The two stores -/

structure SignupWorld (fold userFold : String → String) extends AuthWorld fold where
  users : Table (userSchema userFold)

/-- What the environment has in store for a registration, which comes to an operation at most once. -/
structure SignupEnv extends AuthEnv where
  credentialFault : Fault StoreErr
  deleteFault : Fault StoreErr
  userFault : Fault Err
  userNow : Time

variable {fold userFold : String → String}

def SignupEnv.faultOf (env : SignupEnv) : AuthOp → Fault StoreErr
  | .sql (.createCredential _) => env.credentialFault
  | .sql (.deleteCredential _) => env.deleteFault
  | _ => env.fault

/-- The user service answers for itself. -/
def SignupEnv.run (text : CaseRules) (env : SignupEnv) : (o : AuthOp) → SignupWorld fold userFold →
    o.Res × SignupWorld fold userFold
  | .createUser inp, w => env.userFault.apply id (fun w : SignupWorld fold userFold =>
      ((UserClientAdapter.createUser text env.userNow inp w.users).1,
        { w with users := (UserClientAdapter.createUser text env.userNow inp w.users).2 })) w
  | o, w => ((o.run { env.toAuthEnv with fault := env.faultOf o } w.toAuthWorld).1,
      { w with toAuthWorld := (o.run { env.toAuthEnv with fault := env.faultOf o } w.toAuthWorld).2 })

def SignupEnv.Exec (text : CaseRules) (env : SignupEnv) (o : AuthOp) (w : SignupWorld fold userFold) (r : o.Res)
    (w' : SignupWorld fold userFold) : Prop := env.run text o w = (r, w')

theorem SignupEnv.runs_eval {text : CaseRules} {env : SignupEnv} {α : Type} (p : AuthProg α) (w : SignupWorld fold userFold) :
    p.Runs (env.Exec text) w (p.eval (env.run text) w).1 (p.eval (env.run text) w).2 :=
  Prog.runs_eval (fun _ _ => rfl) p w

/-- The identifier that is drawn is nobody's. -/
structure SignupEnv.DrawsNew (env : SignupEnv) (w : SignupWorld fold userFold) : Prop where
  id : isUUID env.newID = true
  creds : ∀ r ∈ w.db.creds.rows, r.userID ≠ env.newID
  users : ∀ r ∈ w.users.rows, r.id ≠ env.newID

/-- Everything that a registration asks for is answered. -/
structure SignupEnv.Serves (hash : String → String) (env : SignupEnv) (w : SignupWorld fold userFold) : Prop extends
    env.DrawsNew w where
  auth : env.toAuthEnv.Serves hash w.toAuthWorld
  passwordHash : ∃ h, env.passwordHash = .ok h
  credentialFault : env.credentialFault = .none
  userFault : env.userFault = .none

/-- The failure comes before either store has anything to keep: with the hash of the password, or with a statement or a
request that is not executed. -/
def SignupEnv.KeepsNothing (env : SignupEnv) : Prop :=
  (∃ err, env.passwordHash = .error err) ∨ (∃ err, env.credentialFault = .before err) ∨
    (env.credentialFault = .none ∧ ∃ err, env.userFault = .before err)

namespace AuthUseCase

/-- Both stores have room for the input, as the checks leave it. -/
def RegisterInput.Storable (text : CaseRules) (inp : RegisterInput) : Prop :=
  inp.email.length ≤ 255 ∧ (text.normalize inp.email).length ≤ 255 ∧ inp.phone.length ≤ 20 ∧ inp.name.length ≤ 255

/-- The account that is asked for. -/
def RegisterInput.credential (inp : RegisterInput) (userID passwordHash : String) : Credential :=
  { userID := userID, email := inp.email, passwordHash := passwordHash, consentVersion := currentConsentVersion }

/-- The user that is asked for. -/
def RegisterInput.user (inp : RegisterInput) (userID : String) : CreateUserInput :=
  ⟨userID, inp.email, inp.phone, inp.name, inp.role⟩

/-- An account has the email. -/
def CredentialUsed (fold : String → String) (email : String) (creds : Table (credentialSchema fold)) : Prop :=
  ∃ r ∈ creds.rows, fold r.email = email

variable (uc : AuthUseCase)

/-- Nothing is left of the registration, and it can succeed. -/
def Retryable (inp : RegisterInput) (w : SignupWorld uc.text.fold userFold) : Prop :=
  ¬ CredentialUsed uc.text.fold (uc.text.normalize inp.email) w.db.creds ∧
    ∃ env : SignupEnv, env.DrawsNew w ∧ ∃ res w', (uc.register inp).Runs (env.Exec uc.text) w (.ok res) w'

/-! ## The operations -/

section Ops

variable {text : CaseRules}

/-- The row of a user is stored, or it is not and nothing changes. -/
theorem createUser_users (now : Time) {inp : CreateUserInput} {t : Table (userSchema userFold)} (h : inp.Fresh t)
    (hemail : inp.email ≠ "") (hname : inp.name ≠ "") :
    (∃ t', t.insert (inp.row text now) = .ok t' ∧ (UserClientAdapter.createUser text now inp t).2 = t') ∨
      ((∃ v, t.insert (inp.row text now) = .error v) ∧ (UserClientAdapter.createUser text now inp t).2 = t ∧
        ∃ err, (UserClientAdapter.createUser text now inp t).1 = .error err) := by
  have hanswer := @UserClientAdapter.createUser_eq text _ now _ _ h
  rw [if_neg hemail, if_neg hname] at hanswer
  have hrole : inp.role ≠ "" := by
    rintro hr
    exact absurd (hr ▸ h.role) (by decide)
  have hvalid : isValidRole inp.role = true := List.contains_iff_mem.2 h.role
  have husers : (∀ t', t.insert (inp.row text now) = .ok t' → (UserClientAdapter.createUser text now inp t).2 = t') ∧
      ∀ v, t.insert (inp.row text now) = .error v → (UserClientAdapter.createUser text now inp t).2 = t := by
    unfold UserClientAdapter.createUser UserServer.createUser
    rw [if_neg (ne_empty_of_isUUID h.id), if_neg hemail, if_neg hname]
    simp only [UserUseCase.create, if_neg hrole, hvalid, Bool.true_eq_false, if_false, Prog.bind_eq, Prog.perform_bind,
      Prog.pure_eq, Prog.bind_call, Prog.eval_call, UserOp.run, UserSql.run, UserRepo.create]
    constructor
    · intro t' hins
      rw [CreateUserInput.row] at hins
      rw [hins]
      rfl
    · intro v hins
      rw [CreateUserInput.row] at hins
      rw [hins]
      cases v <;> rfl
  cases hins : t.insert (inp.row text now) with
  | ok t' => exact .inl ⟨t', rfl, husers.1 t' hins⟩
  | error v =>
    rw [hins] at hanswer
    exact .inr ⟨⟨v, rfl⟩, husers.2 v hins, _, hanswer⟩

/-- **An account is stored exactly if its email fits and nobody has it.** -/
theorem insert_credential_iff {cred : Credential} {creds : Table (credentialSchema fold)} (hid : isUUID cred.userID = true)
    (hnew : ∀ r ∈ creds.rows, r.userID ≠ cred.userID) (hfold : fold cred.email = cred.email) :
    (∃ creds', creds.insert (CredentialRepo.passwordRow cred) = .ok creds') ↔
      cred.email.length ≤ 255 ∧ ¬ CredentialUsed fold cred.email creds := by
  have hcheck : (credentialSchema fold).check (CredentialRepo.passwordRow cred) = true ↔ cred.email.length ≤ 255 := by
    simp [credentialSchema, CredentialRepo.passwordRow, hid]
  have hclash : ∀ r ∈ creds.rows, (credentialSchema fold).clash r (CredentialRepo.passwordRow cred) = false ↔
      fold r.email ≠ cred.email := by
    intro r hr
    have hnone : r.provider.isSome = true → r.provider ≠ none := by
      rintro hs hn
      rw [hn] at hs
      cases hs
    simp [credentialSchema, CredentialRepo.passwordRow, hnew r hr, hfold]
    grind
  constructor
  · rintro ⟨creds', hins⟩
    obtain ⟨hc, hu⟩ := Table.of_insert_ok hins
    refine ⟨hcheck.1 hc, ?_⟩
    rintro ⟨r, hr, he⟩
    exact (hclash r hr).1 (hu r hr) he
  · rintro ⟨hlen, hfree⟩
    exact creds.insert_ok (hcheck.2 hlen) fun r hr => (hclash r hr).2 fun he => hfree ⟨r, hr, he⟩

/-- A row that is inserted and deleted leaves nothing. -/
theorem insert_delete {α : Type} {S : Schema α} {t t' : Table S} {r : α} {del : α → Bool} (h : t.insert r = .ok t')
    (hr : del r = true) (hkept : ∀ x ∈ t.rows, del x = false) : (t'.delete del).rows = t.rows := by
  show t'.rows.filter (fun x => !del x) = t.rows
  have hself : t.rows.filter (fun x => !del x) = t.rows := List.filter_eq_self.2 fun x hx => by rw [hkept x hx]; rfl
  rw [Table.insert_rows h, List.filter_append, hself]
  simp [hr]

end Ops

/-! ## What is not asked of the user service -/

section Silent

variable {text : CaseRules} {env : SignupEnv} {w w' : SignupWorld fold userFold}

theorem Silent.users {o : AuthOp} (ho : Silent o) {r : o.Res} (h : env.Exec text o w r w') : w'.users = w.users := by
  obtain ⟨-, rfl⟩ := Prod.mk.inj h
  cases o with
  | createUser inp => exact ho.elim
  | _ => rfl

theorem Silent.runs_users {β : Type} {p : AuthProg β} (hp : p.All Silent) {b : β} (h : p.Runs (env.Exec text) w b w') :
    w'.users = w.users :=
  Prog.All.runs (R := fun x x' : SignupWorld fold userFold => x'.users = x.users) (fun _ => rfl)
    (fun _ _ _ hab hbc => hbc.trans hab) (fun _ _ _ _ ho he => Silent.users ho he) hp h

/-- What touches no account is left to the auth service. -/
theorem Quiet.run_eq {o : AuthOp} (ho : Quiet o) (w : SignupWorld fold userFold) : env.run text o w =
    ((o.run env.toAuthEnv w.toAuthWorld).1, { w with toAuthWorld := (o.run env.toAuthEnv w.toAuthWorld).2 }) := by
  cases o with
  | createUser inp => exact ho.elim
  | sql s =>
    have hfault : env.faultOf (.sql s) = env.fault := by
      cases s with
      | createCredential cred => cases ho
      | deleteCredential userID => cases ho
      | _ => rfl
    simp only [SignupEnv.run, hfault]
  | _ => rfl

theorem Quiet.eval_eq {β : Type} : ∀ {p : AuthProg β}, p.All Quiet → ∀ w : SignupWorld fold userFold,
    p.eval (env.run text) w = ((p.eval (AuthOp.run env.toAuthEnv) w.toAuthWorld).1,
      { w with toAuthWorld := (p.eval (AuthOp.run env.toAuthEnv) w.toAuthWorld).2 })
  | .ret _, _, _ => rfl
  | .call o k, hp, w => by
    rw [Prog.eval_call, Prog.eval_call, Quiet.run_eq hp.1]
    exact Quiet.eval_eq (hp.2 _) _

end Silent

/-! ## A registration, step by step -/

section Steps

variable {uc : AuthUseCase} {text : CaseRules} {env : SignupEnv} {w w' : SignupWorld fold userFold}

/-- What the insertion of an account leaves: an error and nothing, or the account. -/
theorem createCredential_cases {cred : Credential} {stored : Except StoreErr Unit}
    (h : env.Exec text (.sql (.createCredential cred)) w stored w') : w'.users = w.users ∧
      (((∃ err, stored = .error err) ∧ w'.db.creds = w.db.creds ∧ ((∃ err, env.credentialFault = .before err) ∨
          (∀ err, env.credentialFault ≠ .before err) ∧ ∃ v, w.db.creds.insert (CredentialRepo.passwordRow cred) = .error v)) ∨
        (w.db.creds.insert (CredentialRepo.passwordRow cred) = .ok w'.db.creds ∧
          (env.credentialFault = .none ∧ stored = .ok () ∨
            (∃ err, env.credentialFault = .after err) ∧ ∃ err, stored = .error err))) := by
  obtain ⟨rfl, rfl⟩ := Prod.mk.inj h
  refine ⟨rfl, ?_⟩
  simp only [AuthOp.run, SignupEnv.faultOf]
  cases hfault : env.credentialFault with
  | before err => exact .inl ⟨⟨_, rfl⟩, rfl, .inl ⟨_, rfl⟩⟩
  | after err =>
    cases hins : w.db.creds.insert (CredentialRepo.passwordRow cred) with
    | ok creds =>
      simp [AuthSql.run, CredentialRepo.create, CredentialRepo.insertRow, hins]
    | error v =>
      simp [AuthSql.run, CredentialRepo.create, CredentialRepo.insertRow, hins]
  | none =>
    cases hins : w.db.creds.insert (CredentialRepo.passwordRow cred) with
    | ok creds =>
      simp [AuthSql.run, CredentialRepo.create, CredentialRepo.insertRow, hins]
    | error v =>
      simp [AuthSql.run, CredentialRepo.create, CredentialRepo.insertRow, hins]

/-- After the request for a user nothing is asked of the user service. -/
theorem registerUser_call (inp : RegisterInput) (userID : String) : ∃ k : Except Err UserRecord → AuthProg (Except Err AuthResult),
    uc.registerUser inp userID = .call (.createUser (inp.user userID)) k ∧
      ∀ res, (k res).All Silent := by
  simp only [registerUser, Prog.bind_eq, Prog.perform_bind, Prog.pure_eq]
  refine ⟨_, rfl, fun res => ?_⟩
  cases res with
  | error err => exact ⟨trivial, fun _ => Prog.All.ite trivial (Prog.All.ite trivial trivial)⟩
  | ok user =>
    refine Prog.All.bind (fun res => ?_) (uc.generateTokenPair_silent user.id inp.email inp.role)
    cases res with
    | error err => trivial
    | ok tokens =>
      generalize hmail : uc.sendVerificationEmail user.id inp.email = p
      dsimp only
      refine Prog.All.ite (Prog.All.bind (fun _ => ?_) ((uc.sendVerificationEmail_quiet hmail).mono fun _ => Quiet.silent)) trivial
      trivial

theorem registerUser_users {inp : RegisterInput} {userID : String} {res : Except Err AuthResult}
    (h : (uc.registerUser inp userID).Runs (env.Exec text) w res w') :
    w'.users = (env.run text (.createUser (inp.user userID)) w).2.users := by
  obtain ⟨k, hk, hsilent⟩ := @registerUser_call uc inp userID
  rw [hk] at h
  obtain ⟨answer, w₁, hasked, h⟩ := h
  rw [Silent.runs_users (hsilent answer) h]
  exact (congrArg (fun x => x.2.users) hasked).symm

/-- A registration that goes through has its user made. -/
theorem registerUser_made {inp : RegisterInput} {userID : String} {res : AuthResult}
    (h : (uc.registerUser inp userID).Runs (env.Exec text) w (.ok res) w') :
    ∃ user, (UserClientAdapter.createUser text env.userNow (inp.user userID) w.users).1 = .ok user := by
  simp only [registerUser, Prog.bind_eq, Prog.perform_bind, Prog.pure_eq] at h
  obtain ⟨created, w₁, hcreated, h⟩ := h
  cases created with
  | error err =>
    obtain ⟨_, w₂, -, h⟩ := h
    dsimp only at h
    split at h
    · cases h.1
    · split at h <;> cases h.1
  | ok user =>
    have hrun := Fault.of_ok (show env.userFault.apply id (fun w : SignupWorld fold userFold =>
      ((UserClientAdapter.createUser text env.userNow (inp.user userID) w.users).1,
        { w with users := (UserClientAdapter.createUser text env.userNow (inp.user userID) w.users).2 })) w =
          (.ok user, w₁) from hcreated)
    exact ⟨user, congrArg Prod.fst hrun⟩

/-- A user that is made and has a pair of tokens is registered; the link to verify the email is not waited for. -/
theorem registerUser_runs {inp : RegisterInput} {userID : String} {user : UserRecord} {tokens : TokenPair}
    {w₁ w₂ : SignupWorld fold userFold} (hmade : env.Exec text (.createUser (inp.user userID)) w (.ok user) w₁)
    (hpair : (uc.generateTokenPair user.id inp.email inp.role).Runs (env.Exec text) w₁ (.ok tokens) w₂) :
    ∃ res w', (uc.registerUser inp userID).Runs (env.Exec text) w (.ok res) w' := by
  generalize hmail : uc.sendVerificationEmail user.id inp.email = mail
  have hsent := @SignupEnv.runs_eval _ _ text env _ mail w₂
  suffices hrest : ∃ w', (if inp.role = "master" ∨ inp.role = "venue_owner" then
      mail.bind fun _ => .ret (Except.ok ⟨user.id, tokens⟩) else .ret (Except.ok ⟨user.id, tokens⟩) :
        AuthProg (Except Err AuthResult)).Runs (env.Exec text) w₂ (.ok ⟨user.id, tokens⟩) w' by
    obtain ⟨w', hrest⟩ := hrest
    refine ⟨⟨user.id, tokens⟩, w', ?_⟩
    simp only [registerUser, Prog.bind_eq, Prog.perform_bind, Prog.pure_eq]
    refine ⟨.ok user, w₁, hmade, (Prog.runs_bind _ _ _ _ _ _).2 ⟨.ok tokens, w₂, hpair, ?_⟩⟩
    simp only [hmail]
    exact hrest
  by_cases hrole : inp.role = "master" ∨ inp.role = "venue_owner"
  · rw [if_pos hrole]
    exact ⟨_, (Prog.runs_bind _ _ _ _ _ _).2 ⟨_, _, hsent, rfl, rfl⟩⟩
  · rw [if_neg hrole]
    exact ⟨w₂, rfl, rfl⟩

/-- A request that is not executed is undone. -/
theorem registerUser_undone {inp : RegisterInput} {userID : String} {res : Except Err AuthResult} {err : Err}
    (hfault : env.userFault = .before err) (hdelete : env.deleteFault = .none)
    (h : (uc.registerUser inp userID).Runs (env.Exec text) w res w') :
    w'.db.creds = w.db.creds.delete (·.userID == userID) := by
  simp only [registerUser, Prog.bind_eq, Prog.perform_bind, Prog.pure_eq] at h
  obtain ⟨created, w₁, hcreated, h⟩ := h
  simp only [SignupEnv.Exec, SignupEnv.run, hfault, Fault.apply_before] at hcreated
  obtain ⟨rfl, rfl⟩ := Prod.mk.inj hcreated
  obtain ⟨deleted, w₂, hdeleted, h⟩ := h
  have hlast : w' = w₂ := by
    dsimp only at h
    split at h
    · exact h.2
    · split at h <;> exact h.2
  have hcreds : w₂.db.creds = _ := (congrArg (fun x => x.2.db.creds) hdeleted).symm
  rw [hlast, hcreds]
  simp only [SignupEnv.run, AuthOp.run, SignupEnv.faultOf, hdelete, Fault.apply_none]
  rfl

/-- A registration with an input that passes the checks comes to the account, and from there to the user. -/
theorem register_stages {inp inp' : RegisterInput} {p : AuthProg (Except Err AuthResult)} (hp : uc.register inp = p)
    (hvalid : uc.validateRegisterInput inp = .ok inp') {res : Except Err AuthResult} (h : p.Runs (env.Exec text) w res w') :
    ((∃ err, env.passwordHash = .error err) ∧ (∃ err, res = .error err) ∧ w'.db = w.db ∧ w'.users = w.users) ∨
      ∃ hash w₁ stored w₂, env.passwordHash = .ok hash ∧ w₁.db = w.db ∧ w₁.users = w.users ∧
        env.Exec text (.sql (.createCredential (inp'.credential env.newID hash))) w₁ stored w₂ ∧
        ((∃ err, stored = .error err) ∧ w' = w₂ ∧ (∃ err, res = .error err) ∨
          stored = .ok () ∧ (uc.registerUser inp' env.newID).Runs (env.Exec text) w₂ res w') := by
  subst hp
  simp only [register, Prog.bind_eq, Prog.perform_bind, Prog.pure_eq, hvalid] at h
  obtain ⟨hashed, w₀, hhash, h⟩ := h
  have hanswer : env.passwordHash = hashed := congrArg Prod.fst hhash
  have hdb : w₀.db = w.db := (congrArg (fun x => x.2.db) hhash).symm
  have husers : w₀.users = w.users := (congrArg (fun x => x.2.users) hhash).symm
  cases hashed with
  | error err =>
    obtain ⟨rfl, rfl⟩ := h
    exact .inl ⟨⟨err, hanswer⟩, ⟨_, rfl⟩, hdb, husers⟩
  | ok hash =>
    obtain ⟨userID, w₁, hdrawn, stored, w₂, hstored, h⟩ := h
    have hid : env.newID = userID := congrArg Prod.fst hdrawn
    subst hid
    have hdb₁ : w₁.db = w₀.db := (congrArg (fun x => x.2.db) hdrawn).symm
    have husers₁ : w₁.users = w₀.users := (congrArg (fun x => x.2.users) hdrawn).symm
    refine .inr ⟨hash, w₁, stored, w₂, hanswer, hdb₁.trans hdb, husers₁.trans husers, hstored, ?_⟩
    cases stored with
    | error err =>
      have hlast : w' = w₂ ∧ ∃ err, res = .error err := by
        dsimp only at h
        split at h
        · exact ⟨h.2, _, h.1⟩
        · split at h
          · exact ⟨h.2, _, h.1⟩
          · exact ⟨h.2, _, h.1⟩
      exact .inl ⟨⟨err, rfl⟩, hlast⟩
    | ok _ => exact .inr ⟨rfl, h⟩

end Steps

/-! ## Room for a registration -/

section Room

variable {uc : AuthUseCase} {env : SignupEnv} {w w' : SignupWorld uc.text.fold userFold} {inp inp' : RegisterInput}

/-- Both stores take what is registered, and neither has the email. -/
structure Room (uc : AuthUseCase) (inp : RegisterInput) (w : SignupWorld uc.text.fold userFold) : Prop where
  storable : inp.Storable uc.text
  creds : ¬ CredentialUsed uc.text.fold inp.email w.db.creds
  users : ¬ EmailUsed uc.text inp.email w.users

theorem stored_iff (hvalid : uc.validateRegisterInput inp = .ok inp') (hnew : env.DrawsNew w) (hash : String) :
    (∃ creds, w.db.creds.insert (CredentialRepo.passwordRow (inp'.credential env.newID hash)) = .ok creds) ↔
      inp'.email.length ≤ 255 ∧ ¬ CredentialUsed uc.text.fold inp'.email w.db.creds := by
  have hemail := (uc.validateRegisterInput_ok hvalid).1
  refine insert_credential_iff hnew.id hnew.creds ?_
  show uc.text.fold inp'.email = inp'.email
  rw [hemail, uc.text.fold_normalize]

theorem user_fresh (hvalid : uc.validateRegisterInput inp = .ok inp') (hnew : env.DrawsNew w) :
    (inp'.user env.newID).Fresh w.users :=
  ⟨hnew.id, hnew.users, (uc.validateRegisterInput_ok hvalid).2.2.1⟩

/-- The user is stored exactly if there is room for it; the answer says so. -/
theorem made_cases (hvalid : uc.validateRegisterInput inp = .ok inp') (hnew : env.DrawsNew w) :
    (∃ t', w.users.insert ((inp'.user env.newID).row uc.text env.userNow) = .ok t' ∧
        (UserClientAdapter.createUser uc.text env.userNow (inp'.user env.newID) w.users).2 = t') ∨
      ((∃ v, w.users.insert ((inp'.user env.newID).row uc.text env.userNow) = .error v) ∧
        (UserClientAdapter.createUser uc.text env.userNow (inp'.user env.newID) w.users).2 = w.users ∧
        ∃ err, (UserClientAdapter.createUser uc.text env.userNow (inp'.user env.newID) w.users).1 = .error err) :=
  have hchecked := (uc.validateRegisterInput_ok hvalid).2.2.2
  createUser_users env.userNow (user_fresh hvalid hnew) hchecked.1 hchecked.2

/-- **A registration that succeeds had room.** -/
theorem Room.of_ok (hvalid : uc.validateRegisterInput inp = .ok inp') (hnew : env.DrawsNew w)
    {p : AuthProg (Except Err AuthResult)} (hp : uc.register inp = p) {res : AuthResult}
    (h : p.Runs (env.Exec uc.text) w (.ok res) w') : Room uc inp' w := by
  rcases register_stages hp hvalid h with ⟨-, ⟨err, herr⟩, -⟩ | ⟨hash, w₁, stored, w₂, -, hdb, husers, hstored, hrest⟩
  · cases herr
  rcases hrest with ⟨-, -, err, herr⟩ | ⟨rfl, hrest⟩
  · cases herr
  obtain ⟨husers₂, ⟨⟨err, herr⟩, -⟩ | ⟨hins, -⟩⟩ := createCredential_cases hstored
  · cases herr
  rw [hdb] at hins
  obtain ⟨hemail, hunused⟩ := (stored_iff hvalid hnew hash).1 ⟨_, hins⟩
  obtain ⟨user, huser⟩ := registerUser_made hrest
  rw [husers₂, husers] at huser
  rcases made_cases hvalid hnew with ⟨users, hmade, -⟩ | ⟨-, -, err, herr⟩
  · obtain ⟨hlen, hfree⟩ := (CreateUserInput.insert_iff env.userNow (user_fresh hvalid hnew)).1 ⟨users, hmade⟩
    exact ⟨⟨hemail, hlen⟩, hunused, hfree⟩
  · cases huser.symm.trans herr

/-- A pair of tokens is made. -/
theorem generateTokenPair_runs (h : env.Serves uc.hashRefreshToken w) {w₁ : SignupWorld uc.text.fold userFold}
    (hrefresh : w₁.db.refresh = w.db.refresh) (email role : String) : ∃ tokens w₂,
      (uc.generateTokenPair env.newID email role).Runs (env.Exec uc.text) w₁ (.ok tokens) w₂ := by
  obtain ⟨tokens, w₂, hpair, -⟩ := uc.generateTokenPair_served h.auth w₁.toAuthWorld hrefresh h.id email role
  have hruns := @SignupEnv.runs_eval _ _ uc.text env _ (uc.generateTokenPair env.newID email role) w₁
  rw [Quiet.eval_eq (uc.generateTokenPair_quiet _ _ _), hpair] at hruns
  exact ⟨tokens, _, hruns⟩

/-- **Where there is room, a registration that is served succeeds.** -/
theorem Room.served (hvalid : uc.validateRegisterInput inp = .ok inp') (hroom : Room uc inp' w)
    (h : env.Serves uc.hashRefreshToken w) {p : AuthProg (Except Err AuthResult)} (hp : uc.register inp = p) :
    ∃ res w', p.Runs (env.Exec uc.text) w (.ok res) w' := by
  obtain ⟨hash, hhash⟩ := h.passwordHash
  obtain ⟨creds, hins⟩ := (stored_iff hvalid h.toDrawsNew hash).2 ⟨hroom.storable.1, hroom.creds⟩
  have hchecked := (uc.validateRegisterInput_ok hvalid).2.2.2
  have hfresh := user_fresh hvalid h.toDrawsNew
  obtain ⟨users, hmade⟩ := (CreateUserInput.insert_iff env.userNow hfresh).2 ⟨hroom.storable.2, hroom.users⟩
  obtain ⟨w₁, hhashed, hdb₁, husers₁⟩ : ∃ w₁ : SignupWorld uc.text.fold userFold,
      env.Exec uc.text (.hashPassword inp'.password) w (.ok hash) w₁ ∧ w₁.db = w.db ∧ w₁.users = w.users :=
    ⟨_, Prod.ext hhash rfl, rfl, rfl⟩
  obtain ⟨w₂, hdrawn, hdb₂, husers₂⟩ : ∃ w₂ : SignupWorld uc.text.fold userFold,
      env.Exec uc.text .newUUID w₁ env.newID w₂ ∧ w₂.db = w₁.db ∧ w₂.users = w₁.users := ⟨_, rfl, rfl, rfl⟩
  obtain ⟨w₃, hstored, hdb₃, husers₃⟩ : ∃ w₃ : SignupWorld uc.text.fold userFold,
      env.Exec uc.text (.sql (.createCredential (inp'.credential env.newID hash))) w₂ (.ok ()) w₃ ∧
        w₃.db.refresh = w.db.refresh ∧ w₃.users = w₂.users := by
    have hrun : (AuthSql.createCredential (inp'.credential env.newID hash)).run w₂.clock w₂.db =
        (.ok (), { w.db with creds := creds }) := by
      rw [hdb₂, hdb₁]
      simp only [AuthSql.run, CredentialRepo.create, CredentialRepo.insertRow, hins]
    refine ⟨{ w₂ with db := { w.db with creds := creds } }, ?_, rfl, rfl⟩
    simp only [SignupEnv.Exec, SignupEnv.run, AuthOp.run, SignupEnv.faultOf, h.credentialFault, Fault.apply_none, hrun]
  obtain ⟨w₄, hmade₄, hdb₄⟩ : ∃ w₄ : SignupWorld uc.text.fold userFold,
      env.Exec uc.text (.createUser (inp'.user env.newID)) w₃ (.ok ⟨env.newID, uc.text.normalize inp'.email, inp'.role⟩) w₄ ∧
        w₄.db = w₃.db := by
    have huser := @UserClientAdapter.createUser_eq uc.text _ env.userNow _ _ hfresh
    rw [hmade, if_neg (show (inp'.user env.newID).email ≠ "" from hchecked.1),
      if_neg (show (inp'.user env.newID).name ≠ "" from hchecked.2), ← husers₁, ← husers₂, ← husers₃] at huser
    refine ⟨_, Prod.ext ?_ rfl, ?_⟩
    · simp only [SignupEnv.run, h.userFault, Fault.apply_none]
      exact huser
    · simp only [SignupEnv.run, h.userFault, Fault.apply_none]
  obtain ⟨tokens, w₅, hpair⟩ := generateTokenPair_runs h (congrArg _ hdb₄ |>.trans hdb₃) inp'.email inp'.role
  obtain ⟨res, w', hrest⟩ := registerUser_runs hmade₄ hpair
  refine ⟨res, w', ?_⟩
  subst hp
  simp only [register, Prog.bind_eq, Prog.perform_bind, Prog.pure_eq, hvalid]
  exact ⟨_, w₁, hhashed, _, w₂, hdrawn, _, w₃, hstored, hrest⟩

theorem register_checked {p : AuthProg (Except Err AuthResult)} (hp : uc.register inp = p) {res : AuthResult}
    (h : p.Runs (env.Exec uc.text) w (.ok res) w') : ∃ inp', uc.validateRegisterInput inp = .ok inp' := by
  cases hvalid : uc.validateRegisterInput inp with
  | error err =>
    have hfailed : uc.register inp = .ret (.error err) := by simp only [register, hvalid, Prog.pure_eq]
    rw [← hp, hfailed] at h
    cases h.1
  | ok inp' => exact ⟨inp', rfl⟩

/-- **A registration can be repeated where there is room for it**, if it is served. -/
theorem retryable_iff (hserved : ∃ env : SignupEnv, env.Serves uc.hashRefreshToken w) :
    uc.Retryable inp w ↔ ∃ inp', uc.validateRegisterInput inp = .ok inp' ∧ Room uc inp' w := by
  unfold Retryable
  generalize hp : uc.register inp = p
  constructor
  · rintro ⟨-, env, hnew, res, w', h⟩
    obtain ⟨inp', hvalid⟩ := register_checked hp h
    exact ⟨inp', hvalid, Room.of_ok hvalid hnew hp h⟩
  · rintro ⟨inp', hvalid, hroom⟩
    obtain ⟨env, h⟩ := hserved
    rw [← (uc.validateRegisterInput_ok hvalid).1]
    exact ⟨hroom.creds, env, h.toDrawsNew, Room.served hvalid hroom h hp⟩

/-! ## What a failure leaves -/

/-- A request for a user that is executed leaves the email with the user service, or finds it there. -/
theorem asked_users (hvalid : uc.validateRegisterInput inp = .ok inp') (hnew : env.DrawsNew w) (hfits : inp'.Storable uc.text)
    {w₁ : SignupWorld uc.text.fold userFold} (husers : w₁.users = w.users) (hexecuted : ∀ err, env.userFault ≠ .before err) :
    EmailUsed uc.text inp'.email (env.run uc.text (.createUser (inp'.user env.newID)) w₁).2.users := by
  have hafter : (env.run uc.text (.createUser (inp'.user env.newID)) w₁).2.users =
      (UserClientAdapter.createUser uc.text env.userNow (inp'.user env.newID) w.users).2 := by
    rw [← husers]
    simp only [SignupEnv.run]
    cases hfault : env.userFault with
    | before err => exact absurd hfault (hexecuted err)
    | after err => rfl
    | none => rfl
  rw [hafter]
  rcases made_cases hvalid hnew with ⟨users, hmade, hrows⟩ | ⟨⟨v, hmade⟩, hrows, -⟩
  · rw [hrows]
    refine ⟨(inp'.user env.newID).row uc.text env.userNow, ?_, rfl⟩
    rw [Table.insert_rows hmade]
    exact List.mem_append_right _ (List.mem_singleton.2 rfl)
  · rw [hrows]
    by_contra hfree
    obtain ⟨users, hok⟩ := (CreateUserInput.insert_iff env.userNow (user_fresh hvalid hnew)).2 ⟨hfits.2, hfree⟩
    cases hmade.symm.trans hok

/-- **A failure leaves both stores without the email exactly if they were so and had nothing to keep.** -/
theorem register_leaves (hvalid : uc.validateRegisterInput inp = .ok inp') (hnew : env.DrawsNew w)
    (hdelete : env.deleteFault = .none) {p : AuthProg (Except Err AuthResult)} (hp : uc.register inp = p) {err : Err} (h : p.Runs (env.Exec uc.text) w (.error err) w') :
    Room uc inp' w' ↔ Room uc inp' w ∧ env.KeepsNothing := by
  have hroom : ∀ x : SignupWorld uc.text.fold userFold, x.db.creds.rows = w.db.creds.rows → x.users = w.users →
      (Room uc inp' x ↔ Room uc inp' w) := by
    intro x hcreds husers
    constructor
    · rintro ⟨hs, hc, hu⟩
      exact ⟨hs, fun ⟨r, hr, he⟩ => hc ⟨r, hcreds ▸ hr, he⟩, husers ▸ hu⟩
    · rintro ⟨hs, hc, hu⟩
      exact ⟨hs, fun ⟨r, hr, he⟩ => hc ⟨r, hcreds ▸ hr, he⟩, husers.symm ▸ hu⟩
  rcases register_stages hp hvalid h with ⟨hhash, -, hdb, husers⟩ | ⟨hash, w₁, stored, w₂, hhash, hdb, husers, hstored, hrest⟩
  · rw [hroom w' (by rw [hdb]) husers]
    exact ⟨fun hr => ⟨hr, .inl hhash⟩, And.left⟩
  obtain ⟨husers₂, ⟨⟨_, rfl⟩, hcreds, hwhy⟩ | ⟨hins, hfault⟩⟩ := createCredential_cases hstored
  · obtain ⟨-, rfl, -⟩ | ⟨hok, -⟩ := hrest
    · rw [hroom w' (by rw [hcreds, hdb]) (husers₂.trans husers)]
      refine ⟨fun hr => ⟨hr, ?_⟩, And.left⟩
      rcases hwhy with hbefore | ⟨-, v, hv⟩
      · exact .inr (.inl hbefore)
      · obtain ⟨creds, hins⟩ := (stored_iff hvalid hnew hash).2 ⟨hr.storable.1, hr.creds⟩
        rw [hdb, hins] at hv
        cases hv
    · cases hok
  · rw [hdb] at hins
    have hrows := Table.insert_rows hins
    rcases hfault with ⟨hnone, rfl⟩ | ⟨⟨err', hafter⟩, err'', rfl⟩
    · obtain ⟨⟨_, hno⟩, -⟩ | ⟨-, hrest⟩ := hrest
      · cases hno
      have hasked := registerUser_users hrest
      by_cases hbefore : ∃ err, env.userFault = .before err
      · obtain ⟨err', hbefore⟩ := hbefore
        have hundone : w'.db.creds.rows = w.db.creds.rows := by
          rw [registerUser_undone hbefore hdelete hrest]
          exact insert_delete hins (beq_self_eq_true _) fun r hr => beq_false_of_ne (hnew.creds r hr)
        have hunasked : w'.users = w.users := by
          rw [hasked, ← husers, ← husers₂]
          simp only [SignupEnv.run, hbefore, Fault.apply_before]
        rw [hroom w' hundone hunasked]
        exact ⟨fun hr => ⟨hr, .inr (.inr ⟨hnone, err', hbefore⟩)⟩, And.left⟩
      · constructor
        · rintro hr
          refine absurd ?_ hr.users
          rw [hasked]
          exact asked_users hvalid hnew hr.storable (husers₂.trans husers) fun err' he => hbefore ⟨err', he⟩
        · rintro ⟨-, ⟨_, hno⟩ | ⟨_, hno⟩ | ⟨-, hyes⟩⟩
          · cases hhash.symm.trans hno
          · cases hnone.symm.trans hno
          · exact absurd hyes hbefore
    · obtain ⟨-, rfl, -⟩ | ⟨hok, -⟩ := hrest
      · have hused : CredentialUsed uc.text.fold inp'.email w'.db.creds := by
          refine ⟨CredentialRepo.passwordRow (inp'.credential env.newID hash), ?_, ?_⟩
          · rw [hrows]
            exact List.mem_append_right _ (List.mem_singleton.2 rfl)
          · show uc.text.fold inp'.email = inp'.email
            rw [(uc.validateRegisterInput_ok hvalid).1, uc.text.fold_normalize]
        constructor
        · rintro hr
          exact absurd hused hr.creds
        · rintro ⟨-, ⟨_, hno⟩ | ⟨_, hno⟩ | ⟨hno, -⟩⟩
          · cases hhash.symm.trans hno
          · cases hafter.symm.trans hno
          · cases hafter.symm.trans hno
      · cases hok

/-- **A registration that fails can be repeated exactly if both stores had room for it and it failed with nothing kept.** -/
theorem register_retryable_iff (hnew : env.DrawsNew w) (hdelete : env.deleteFault = .none)
    {p : AuthProg (Except Err AuthResult)} (hp : uc.register inp = p) {err : Err}
    (h : p.Runs (env.Exec uc.text) w (.error err) w') (hserved : ∃ later : SignupEnv, later.Serves uc.hashRefreshToken w') :
    uc.Retryable inp w' ↔ ∃ inp', uc.validateRegisterInput inp = .ok inp' ∧ Room uc inp' w ∧ env.KeepsNothing := by
  rw [retryable_iff hserved]
  constructor
  · rintro ⟨inp', hvalid, hroom⟩
    exact ⟨inp', hvalid, (register_leaves hvalid hnew hdelete hp h).1 hroom⟩
  · rintro ⟨inp', hvalid, hkept⟩
    exact ⟨inp', hvalid, (register_leaves hvalid hnew hdelete hp h).2 hkept⟩

end Room

end AuthUseCase

/-! ## A registration whose answer is lost -/

/-- The user service fails the request for a user as `fault` says. -/
def signupEnv (fault : Fault Err) : SignupEnv where
  toAuthEnv := authEnv firstUser "s1"
  credentialFault := .none
  deleteFault := .none
  userFault := fault
  userNow := 0

def emptySignup : SignupWorld plainAuth.text.fold id := ⟨emptyAuth, .empty _⟩

def unavailable : Err := .status .unavailable "connection reset"

/-- What a registration of Ann's comes to. -/
def annsEnd (fault : Fault Err) : Except Err AuthUseCase.AuthResult × SignupWorld plainAuth.text.fold id :=
  (plainAuth.register annsInput).eval ((signupEnv fault).run plainAuth.text) emptySignup

theorem signupEnv_new (fault : Fault Err) : (signupEnv fault).DrawsNew emptySignup :=
  ⟨show isUUID firstUser = true by decide, fun _ hr => (nomatch hr), fun _ hr => (nomatch hr)⟩

theorem annsEnd_served {fault : Fault Err} (hcreds : (annsEnd fault).2.db.creds.rows = [])
    (hrefresh : (annsEnd fault).2.db.refresh.rows = [])
    (husers : ∀ r ∈ (annsEnd fault).2.users.rows, r.id = firstUser) :
    ∃ later : SignupEnv, later.Serves plainAuth.hashRefreshToken (annsEnd fault).2 := by
  have hnew : isUUID secondUser = true ∧ ∀ r ∈ (annsEnd fault).2.db.creds.rows, r.userID ≠ secondUser := by
    rw [hcreds]
    exact ⟨by decide, fun _ hr => nomatch hr⟩
  have huser : ∀ r ∈ (annsEnd fault).2.users.rows, r.id ≠ secondUser := by
    rintro r hr hid
    exact absurd ((husers r hr).symm.trans hid) (by decide)
  refine ⟨{ toAuthEnv := authEnv secondUser "s2", credentialFault := .none, deleteFault := .none, userFault := .none,
            userNow := 0 }, ⟨hnew.1, hnew.2, huser⟩, ⟨hnew, ⟨"s2", rfl, ?_⟩, ⟨_, rfl⟩, rfl, ⟨_, rfl⟩, rfl⟩, ⟨_, rfl⟩, rfl, rfl⟩
  rw [hrefresh]
  exact fun _ hr => nomatch hr

theorem register_retryable_iff_ann : plainAuth.Retryable annsInput (annsEnd (.before unavailable)).2 ↔
    ∃ inp', plainAuth.validateRegisterInput annsInput = .ok inp' ∧ AuthUseCase.Room plainAuth inp' emptySignup ∧
      (signupEnv (.before unavailable)).KeepsNothing := by
  have hres : (annsEnd (.before unavailable)).1 = .error (.ofInternal "ошибка при создании пользователя") := by decide +kernel
  have hruns := @SignupEnv.runs_eval _ _ plainAuth.text (signupEnv (.before unavailable)) _ (plainAuth.register annsInput) emptySignup
  rw [show ((plainAuth.register annsInput).eval ((signupEnv (.before unavailable)).run plainAuth.text) emptySignup).1 = _ from hres]
    at hruns
  exact AuthUseCase.register_retryable_iff (signupEnv_new _) rfl rfl hruns
    (annsEnd_served (by decide +kernel) (by decide +kernel) (by decide +kernel))

/-- The user is made, and the registration is told that the connection was lost. -/
theorem register_not_retryable : ¬ ∀ (uc : AuthUseCase) (userFold : String → String) (inp : AuthUseCase.RegisterInput)
    (env : SignupEnv) (w w' : SignupWorld uc.text.fold userFold) (err : Err), env.DrawsNew w → env.deleteFault = .none →
      (uc.register inp).Runs (env.Exec uc.text) w (.error err) w' → err.code ≠ .invalidArgument → err.code ≠ .alreadyExists →
        (∃ later : SignupEnv, later.Serves uc.hashRefreshToken w') → uc.Retryable inp w' := by
  intro hall
  have hres : (annsEnd (.after unavailable)).1 = .error (.ofInternal "ошибка при создании пользователя") := by decide +kernel
  have hruns := @SignupEnv.runs_eval _ _ plainAuth.text (signupEnv (.after unavailable)) _ (plainAuth.register annsInput) emptySignup
  rw [show ((plainAuth.register annsInput).eval ((signupEnv (.after unavailable)).run plainAuth.text) emptySignup).1 = _ from hres]
    at hruns
  have hserved := @annsEnd_served (.after unavailable) (by decide +kernel) (by decide +kernel) (by decide +kernel)
  have hretry := hall plainAuth id annsInput _ emptySignup _ _ (signupEnv_new _) rfl hruns nofun nofun hserved
  obtain ⟨inp', hvalid, hroom⟩ := (AuthUseCase.retryable_iff hserved).1 hretry
  obtain ⟨-, ⟨_, hno⟩ | ⟨_, hno⟩ | ⟨-, _, hno⟩⟩ :=
    (AuthUseCase.register_leaves hvalid (signupEnv_new _) rfl rfl hruns).1 hroom
  · cases hno
  · cases hno
  · cases hno

end Agregator
