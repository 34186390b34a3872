import Agregator.AuthSys
/-!
# AuthOAuth — logins through a provider
-/
namespace Agregator

open Rel Conc

/-! ## What a statement leaves of an account -/

namespace CredentialRow

/-- The columns no statement changes. -/
structure Same (r r' : CredentialRow) : Prop where
  userID : r'.userID = r.userID
  provider : r'.provider = r.provider
  providerID : r'.providerID = r.providerID

theorem Same.refl (r : CredentialRow) : r.Same r := ⟨rfl, rfl, rfl⟩

theorem Same.carries {r r' : CredentialRow} (h : r.Same r') (provider providerID : String) :
    r'.carries provider providerID = r.carries provider providerID := by
  unfold CredentialRow.carries
  rw [h.provider, h.providerID]

end CredentialRow

variable {fold : String → String}

theorem CredentialRepo.insertRow_same (r : CredentialRow) {db : AuthDB fold} {x : CredentialRow} (hx : x ∈ db.creds.rows) :
    ∃ x' ∈ (insertRow r db).2.creds.rows, x.Same x' := by
  unfold insertRow
  split
  · rename_i creds hi
    exact ⟨x, by rw [Table.insert_rows hi]; exact List.mem_append_left _ hx, .refl x⟩
  · exact ⟨x, hx, .refl x⟩

theorem CredentialRepo.updateRow_same {p : CredentialRow → Bool} {f : CredentialRow → CredentialRow} (missing : String)
    (hf : ∀ r : CredentialRow, r.Same (f r)) {db : AuthDB fold} {x : CredentialRow} (hx : x ∈ db.creds.rows) :
    ∃ x' ∈ (updateRow p f missing db).2.creds.rows, x.Same x' := by
  unfold updateRow
  split
  · exact ⟨x, hx, .refl x⟩
  · rename_i creds hu
    refine ⟨if p x then f x else x, ?_, ?_⟩
    · rw [Table.update_rows hu]
      exact List.mem_map_of_mem hx
    · split
      · exact hf x
      · exact .refl x

/-- **An account stays, with its identity, as long as it is not deleted.** -/
theorem AuthSql.run_same (now : Time) (s : AuthSql) {db : AuthDB fold} {x : CredentialRow} (hx : x ∈ db.creds.rows)
    (hs : s ≠ .deleteCredential x.userID) : ∃ x' ∈ (s.run now db).2.creds.rows, x.Same x' := by
  by_cases hw : s.writesAccounts = false
  · exact ⟨x, by rw [AuthSql.run_creds now db hw]; exact hx, .refl x⟩
  cases s with
  | createCredential cred | createOAuth cred => exact CredentialRepo.insertRow_same _ hx
  | deleteCredential userID =>
    refine ⟨x, List.mem_filter.2 ⟨hx, ?_⟩, .refl x⟩
    have hne : x.userID ≠ userID := fun h => hs (by rw [h])
    simp [hne]
  | updatePasswordHash userID passwordHash =>
    exact CredentialRepo.updateRow_same (f := fun r => { r with passwordHash := some passwordHash }) _
      (fun _ => ⟨rfl, rfl, rfl⟩) hx
  | setEmailVerified userID verified =>
    exact CredentialRepo.updateRow_same (f := fun r => { r with emailVerified := verified }) _ (fun _ => ⟨rfl, rfl, rfl⟩) hx
  | promoteOAuthEmail userID email =>
    exact CredentialRepo.updateRow_same (f := fun r => { r with email := email }) _ (fun _ => ⟨rfl, rfl, rfl⟩) hx
  | _ => exact absurd rfl hw

theorem AuthOp.Exec.same {hash : String → String} {o : AuthOp} {w w' : AuthWorld fold} {r : o.Res}
    (h : AuthOp.Exec hash o w r w') {x : CredentialRow} (hx : x ∈ w.db.creds.rows) (ho : o ≠ .sql (.deleteCredential x.userID)) :
    ∃ x' ∈ w'.db.creds.rows, x.Same x' := by
  rcases h.db with hdb | ⟨s, rfl, hdb⟩ <;> rw [hdb]
  · exact ⟨x, hx, .refl x⟩
  · exact s.run_same w.clock hx fun h => ho (by rw [h])

/-! ## A login that is served -/

/-- The row that carries the identity. -/
def AuthDB.identity (db : AuthDB fold) (provider providerID : String) : Option CredentialRow :=
  db.creds.get (·.carries provider providerID)

/-- The row of the email. -/
def AuthDB.byEmail (db : AuthDB fold) (email : String) : Option CredentialRow := db.creds.get fun r => fold r.email == email

/-- Everything that a login asks for is answered, and what is drawn is new. -/
structure AuthEnv.Serves (hash : String → String) (env : AuthEnv) (w : AuthWorld fold) : Prop where
  newID : isUUID env.newID = true ∧ ∀ r ∈ w.db.creds.rows, r.userID ≠ env.newID
  secret : ∃ raw, env.secret = .ok raw ∧ ∀ t ∈ w.db.refresh.rows, t.tokenHash ≠ hash raw
  accessToken : ∃ token, env.accessToken = .ok token
  createUser : env.createUser = .ok ()
  getUser : ∃ user, env.getUser = .ok user
  fault : env.fault = .none

theorem AuthOp.run_sql {env : AuthEnv} (hf : env.fault = .none) (s : AuthSql) (w : AuthWorld fold) :
    (AuthOp.sql s).run env w = ((s.run w.clock w.db).1, { w with db := (s.run w.clock w.db).2 }) := by
  unfold AuthOp.run
  rw [hf]
  rfl

namespace AuthUseCase

variable (uc : AuthUseCase) {env : AuthEnv} {w : AuthWorld fold}

/-- A pair is made, and no account is touched. -/
theorem generateTokenPair_served (h : env.Serves uc.hashRefreshToken w) (w' : AuthWorld fold)
    (hw : w'.db.refresh = w.db.refresh) {userID : String} (hu : isUUID userID = true) (email role : String) :
    ∃ tokens w'', (uc.generateTokenPair userID email role).eval (AuthOp.run env) w' = (.ok tokens, w'') ∧
      w''.db.creds = w'.db.creds := by
  obtain ⟨raw, hraw, hfresh⟩ := h.secret
  obtain ⟨token, htoken⟩ := h.accessToken
  obtain ⟨rows, hins⟩ := w.db.refresh.insert_ok (r := ⟨userID, uc.hashRefreshToken raw, w'.clock + uc.refreshTTL⟩) hu
    fun x hx => by simp [refreshTokenSchema, hfresh x hx]
  have hcreate : ∀ w₁ : AuthWorld fold, w₁.db = w'.db →
      (AuthSql.createRefresh ⟨userID, uc.hashRefreshToken raw, w'.clock + uc.refreshTTL⟩).run w₁.clock w₁.db =
        (.ok (), { w'.db with refresh := rows }) := by
    intro w₁ h₁
    rw [h₁]
    simp only [AuthSql.run, RefreshTokenRepo.create, hw, hins]
  refine ⟨⟨token, raw⟩, { w' with db := { w'.db with refresh := rows }, secrets := raw :: w'.secrets }, ?_, rfl⟩
  simp only [generateTokenPair, Prog.bind_eq, Prog.perform_bind, Prog.pure_eq, Prog.eval_call, AuthOp.run, htoken, hraw]
  rw [h.fault, Fault.apply_none, hcreate _ rfl]
  rfl

theorem issueOAuthTokens_served (h : env.Serves uc.hashRefreshToken w) (w' : AuthWorld fold)
    (hw : w'.db.refresh = w.db.refresh) {userID : String} (hu : isUUID userID = true) (isNewUser : Bool) :
    ∃ tokens w'', (uc.issueOAuthTokens userID isNewUser).eval (AuthOp.run env) w' = (.ok ⟨userID, tokens, isNewUser⟩, w'') ∧
      w''.db.creds = w'.db.creds := by
  obtain ⟨user, huser⟩ := h.getUser
  obtain ⟨tokens, w'', hpair, hcreds⟩ := uc.generateTokenPair_served h w' hw hu user.1 user.2
  refine ⟨tokens, w'', ?_, hcreds⟩
  simp only [issueOAuthTokens, Prog.bind_eq, Prog.perform_bind, Prog.pure_eq, Prog.eval_call, AuthOp.run, huser, Except.map]
  rw [Prog.eval_bind, hpair]
  rfl

/-- **The account of an identity is the one that logs in.** -/
theorem oauthLogin_linked (inp : OAuthInput) (h : env.Serves uc.hashRefreshToken w) {r : CredentialRow}
    (hid : w.db.identity inp.provider inp.providerID = some r) :
    ∃ res w', (uc.oauthLogin inp).eval (AuthOp.run env) w = (.ok res, w') ∧ res.userID = r.userID ∧
      ∃ r' ∈ w'.db.creds.rows, r.Same r' := by
  obtain ⟨hmem, -⟩ := Table.get_mem hid
  have hu : isUUID r.userID = true := by
    have := w.db.creds.checked r hmem
    simp only [credentialSchema, Bool.and_eq_true] at this
    exact this.1.1.1
  have hget : CredentialRepo.getByProvider inp.provider inp.providerID w.db = .ok (CredentialRepo.linked r) := by
    unfold CredentialRepo.getByProvider
    rw [show w.db.creds.get (·.carries inp.provider inp.providerID) = some r from hid]
    rfl
  simp only [oauthLogin, Prog.bind_eq, Prog.perform_bind, Prog.eval_call, AuthOp.run_sql h.fault, AuthSql.run, hget]
  unfold oauthLinked
  dsimp only
  split
  · -- the email is written on the row, or is not
    simp only [Prog.bind_eq, Prog.perform_bind, Prog.eval_call, AuthOp.run_sql h.fault]
    have href : ((AuthSql.promoteOAuthEmail (CredentialRepo.linked r).userID (uc.text.normalize inp.email)).run w.clock w.db).2.refresh =
        w.db.refresh := by
      simp only [AuthSql.run, CredentialRepo.promoteOAuthEmail, CredentialRepo.updateRow]
      split <;> rfl
    obtain ⟨tokens, w'', heval, hcreds⟩ := uc.issueOAuthTokens_served h { w with
      db := ((AuthSql.promoteOAuthEmail (CredentialRepo.linked r).userID (uc.text.normalize inp.email)).run w.clock w.db).2 }
      href hu false
    refine ⟨_, w'', heval, rfl, ?_⟩
    rw [hcreds]
    exact AuthSql.run_same w.clock _ hmem (by simp)
  · obtain ⟨tokens, w'', heval, hcreds⟩ := uc.issueOAuthTokens_served h w rfl hu false
    refine ⟨_, w'', heval, rfl, r, ?_, .refl r⟩
    rw [hcreds]
    exact hmem

/-- The email a new account gets: the one the provider vouches for. -/
def registrationEmail (inp : OAuthInput) : String := if inp.emailVerified then uc.text.normalize inp.email else ""

/-- The columns hold what the provider sends. -/
def fits (inp : OAuthInput) : Bool :=
  decide ((uc.registrationEmail inp).length ≤ 255) && decide (inp.provider.length ≤ 50) && decide (inp.providerID.length ≤ 255)

theorem fold_registrationEmail (inp : OAuthInput) : uc.text.fold (uc.registrationEmail inp) = uc.registrationEmail inp := by
  unfold registrationEmail
  split
  · exact uc.text.fold_normalize inp.email
  · rfl

/-- The row a new account gets. -/
def newRow (inp : OAuthInput) (userID : String) : CredentialRow :=
  CredentialRepo.oauthRow (inp.credential userID (uc.registrationEmail inp) inp.emailVerified)

theorem newRow_check (inp : OAuthInput) {userID : String} (hu : isUUID userID = true) :
    (credentialSchema fold).check (uc.newRow inp userID) = uc.fits inp := by
  simp [credentialSchema, newRow, CredentialRepo.oauthRow, OAuthInput.credential, fits, hu, Bool.and_assoc]

section Stored

variable {w : AuthWorld uc.text.fold}

/-- With the identity unknown and the user new, it is the email that may clash. -/
theorem newRow_clash (inp : OAuthInput) (h : env.Serves uc.hashRefreshToken w)
    (hid : w.db.identity inp.provider inp.providerID = none) {x : CredentialRow} (hx : x ∈ w.db.creds.rows) :
    (credentialSchema uc.text.fold).clash x (uc.newRow inp env.newID) = (uc.text.fold x.email == uc.registrationEmail inp) := by
  have hcarries := Table.get_eq_none.1 hid x hx
  have huser := h.newID.2 x hx
  unfold credentialSchema newRow CredentialRepo.oauthRow OAuthInput.credential
  dsimp only
  rw [uc.fold_registrationEmail, beq_eq_false_iff_ne.2 huser, Bool.false_or]
  unfold CredentialRow.carries at hcarries
  rw [Bool.and_assoc, hcarries, Bool.and_false, Bool.or_false]

/-- A new account, where nothing clashes. -/
theorem oauthNew_served (inp : OAuthInput) (h : env.Serves uc.hashRefreshToken w)
    {creds : Table (credentialSchema uc.text.fold)} (hins : w.db.creds.insert (uc.newRow inp env.newID) = .ok creds) :
    ∃ tokens w', (uc.oauthNew { inp with email := uc.text.normalize inp.email }).eval (AuthOp.run env) w =
      (.ok ⟨env.newID, tokens, true⟩, w') ∧ w'.db.creds = creds := by
  obtain ⟨tokens, w', heval, hcreds⟩ := uc.generateTokenPair_served h
    { w with db := { w.db with creds := creds }, issued := env.newID :: w.issued } rfl h.newID.1 (uc.registrationEmail inp) "user"
  refine ⟨tokens, w', ?_, hcreds⟩
  have hrow : (AuthSql.createOAuth (inp.credential env.newID (uc.registrationEmail inp) inp.emailVerified)).run w.clock w.db =
      (.ok (), { w.db with creds := creds }) := by
    unfold newRow at hins
    simp only [AuthSql.run, CredentialRepo.createOAuth, CredentialRepo.insertRow, hins]
  simp only [oauthNew, Prog.bind_eq, Prog.perform_bind, Prog.pure_eq, Prog.eval_call, AuthOp.run, h.createUser, Except.map,
    h.fault, Fault.apply_none]
  unfold registrationEmail OAuthInput.credential at hrow
  unfold registrationEmail at heval
  unfold OAuthInput.credential
  rw [hrow]
  dsimp only
  rw [Prog.eval_bind, heval]
  rfl

/-- There is nobody to be found, unless someone has the identity. -/
theorem recoverRace_refused (inp : OAuthInput) (ctx : String) (hf : env.fault = .none) (w : AuthWorld fold)
    (hid : w.db.identity inp.provider inp.providerID = none) :
    ∃ err, ((uc.recoverRace inp ctx).eval (AuthOp.run env) w).1 = .error err := by
  have hget : CredentialRepo.getByProvider inp.provider inp.providerID w.db = .error (.notFound "credential not found") := by
    unfold CredentialRepo.getByProvider
    rw [show w.db.creds.get (·.carries inp.provider inp.providerID) = none from hid]
    rfl
  simp only [recoverRace, Prog.bind_eq, Prog.perform_bind, Prog.pure_eq, Prog.eval_call, AuthOp.run_sql hf, AuthSql.run, hget]
  exact ⟨_, rfl⟩

/-- No account, where something does. -/
theorem oauthNew_refused (inp : OAuthInput) (h : env.Serves uc.hashRefreshToken w)
    (hid : w.db.identity inp.provider inp.providerID = none) {v : Violation}
    (hins : w.db.creds.insert (uc.newRow inp env.newID) = .error v) :
    ∃ err, ((uc.oauthNew { inp with email := uc.text.normalize inp.email }).eval (AuthOp.run env) w).1 = .error err := by
  have hrow : (AuthSql.createOAuth (inp.credential env.newID (uc.registrationEmail inp) inp.emailVerified)).run w.clock w.db =
      (.error (.ofViolation v), w.db) := by
    unfold newRow at hins
    simp only [AuthSql.run, CredentialRepo.createOAuth, CredentialRepo.insertRow, hins]
  simp only [oauthNew, Prog.bind_eq, Prog.perform_bind, Prog.pure_eq, Prog.eval_call, AuthOp.run, h.createUser, Except.map,
    h.fault, Fault.apply_none]
  unfold registrationEmail OAuthInput.credential at hrow
  unfold OAuthInput.credential
  rw [hrow]
  dsimp only
  split
  · exact uc.recoverRace_refused _ _ h.fault _ hid
  · exact ⟨_, rfl⟩

/-- The account of the email has its row already. -/
theorem oauthLink_refused (inp : OAuthInput) (h : env.Serves uc.hashRefreshToken w)
    (hid : w.db.identity inp.provider inp.providerID = none) {r : CredentialRow} (hr : r ∈ w.db.creds.rows) :
    ∃ err, ((uc.oauthLink { inp with email := uc.text.normalize inp.email } (CredentialRepo.account r)).eval
      (AuthOp.run env) w).1 = .error err := by
  have hins : ∃ v, w.db.creds.insert (CredentialRepo.oauthRow ({ inp with email := uc.text.normalize inp.email }.credential
      r.userID (uc.text.normalize inp.email) true)) = .error v := by
    cases hi : w.db.creds.insert (CredentialRepo.oauthRow ({ inp with email := uc.text.normalize inp.email }.credential
        r.userID (uc.text.normalize inp.email) true)) with
    | error v => exact ⟨v, rfl⟩
    | ok creds =>
      have hclash := (Table.of_insert_ok hi).2 r hr
      simp [credentialSchema, CredentialRepo.oauthRow, OAuthInput.credential] at hclash
  obtain ⟨v, hins⟩ := hins
  simp only [oauthLink, Prog.bind_eq, Prog.perform_bind, Prog.pure_eq, Prog.eval_call, AuthOp.run, CredentialRepo.account,
    h.fault, Fault.apply_none, AuthSql.run, CredentialRepo.createOAuth, CredentialRepo.insertRow, hins]
  split
  · exact uc.recoverRace_refused _ _ h.fault _ hid
  · exact ⟨_, rfl⟩

/-! ## What a login is to yield, and when it does -/

/-- The user a login is to yield: the one of the identity, or the one of the email the provider vouches for, or a new one. -/
def owner (inp : OAuthInput) (db : AuthDB uc.text.fold) (newID : String) : String :=
  match db.identity inp.provider inp.providerID with
  | some r => r.userID
  | none =>
    match if inp.emailVerified then db.byEmail (uc.text.normalize inp.email) else none with
    | some r => r.userID
    | none => newID

/-- The identity has an account, or its row can be added: no account has the email the new one would get. -/
def Admits (inp : OAuthInput) (db : AuthDB uc.text.fold) : Prop :=
  (db.identity inp.provider inp.providerID).isSome = true ∨
    (db.byEmail (uc.registrationEmail inp) = none ∧ uc.fits inp = true)

/-- Nothing deletes the account. -/
def Spares (userID : String) : Sys.Cond (AuthWorld uc.text.fold) AuthCall AuthOp AuthOp.Res AuthAnswer :=
  fun _ _ o _ => o ≠ .sql (.deleteCredential userID)

/-- The login yields its user, and yields it again whenever it is repeated while the account is there. -/
def Meets (inp : OAuthInput) (env : AuthEnv) (w : AuthWorld uc.text.fold) : Prop :=
  ∃ res w', (uc.oauthLogin inp).eval (AuthOp.run env) w = (.ok res, w') ∧ res.userID = uc.owner inp w.db env.newID ∧
    ∀ c, (authSys uc).Reach (uc.Spares res.userID) w' c → ∀ env' : AuthEnv, env'.Serves uc.hashRefreshToken c.world →
      ∃ res', ((uc.oauthLogin inp).eval (AuthOp.run env') c.world).1 = .ok res' ∧ res'.userID = res.userID

/-- **A login that has left its identity on an account is repeated by any later one.** -/
theorem oauthLogin_again (inp : OAuthInput) {w : AuthWorld uc.text.fold} {r : CredentialRow} (hr : r ∈ w.db.creds.rows)
    (hcarries : r.carries inp.provider inp.providerID = true) {c : Config (AuthWorld uc.text.fold) AuthCall AuthOp AuthOp.Res AuthAnswer}
    (h : (authSys uc).Reach (uc.Spares r.userID) w c) {env : AuthEnv} (henv : env.Serves uc.hashRefreshToken c.world) :
    ∃ res, ((uc.oauthLogin inp).eval (AuthOp.run env) c.world).1 = .ok res ∧ res.userID = r.userID := by
  obtain ⟨r', hr', hsame⟩ := h.inv (fun w => ∃ r' ∈ w.db.creds.rows, r.Same r') ⟨r, hr, .refl r⟩
    (fun c t o res w' _ hok hI he => by
      obtain ⟨x, hx, hsame⟩ := hI
      obtain ⟨x', hx', hsame'⟩ := AuthOp.Exec.same he hx (by rw [hsame.userID]; exact hok)
      exact ⟨x', hx', hsame'.userID.trans hsame.userID, hsame'.provider.trans hsame.provider,
        hsame'.providerID.trans hsame.providerID⟩)
    (fun w w' hI he => by
      obtain ⟨later, -, rfl⟩ := he
      exact hI)
  have hid : c.world.db.identity inp.provider inp.providerID = some r' := by
    refine c.world.db.creds.get_key hr' (by rw [hsame.carries, hcarries]) fun x hx => ?_
    have hx' := (hsame.carries inp.provider inp.providerID).trans hcarries
    simp only [CredentialRow.carries, Bool.and_eq_true, beq_iff_eq] at hx hx'
    simp [credentialSchema, hx.1, hx.2, hx'.1, hx'.2]
  obtain ⟨res, w', heval, huser, -⟩ := uc.oauthLogin_linked inp henv hid
  exact ⟨res, by rw [heval], huser.trans hsame.userID⟩

/-- A login of an unknown identity: it is linked to the account of its email, or a new one is made. -/
theorem oauthLogin_unknown (inp : OAuthInput) (h : env.Serves uc.hashRefreshToken w)
    (hid : w.db.identity inp.provider inp.providerID = none) :
    (uc.oauthLogin inp).eval (AuthOp.run env) w =
      match if inp.emailVerified then w.db.byEmail (uc.text.normalize inp.email) else none with
      | some r => (uc.oauthLink { inp with email := uc.text.normalize inp.email } (CredentialRepo.account r)).eval
          (AuthOp.run env) w
      | none => (uc.oauthNew { inp with email := uc.text.normalize inp.email }).eval (AuthOp.run env) w := by
  have hget : CredentialRepo.getByProvider inp.provider inp.providerID w.db = .error (.notFound "credential not found") := by
    unfold CredentialRepo.getByProvider
    rw [show w.db.creds.get (·.carries inp.provider inp.providerID) = none from hid]
    rfl
  simp only [oauthLogin, Prog.bind_eq, Prog.perform_bind, Prog.eval_call, AuthOp.run_sql h.fault, AuthSql.run, hget]
  by_cases hv : inp.emailVerified = true
  · rw [if_pos hv, if_pos hv]
    simp only [Prog.eval_call, AuthOp.run_sql h.fault, AuthSql.run, CredentialRepo.getByEmail, AuthDB.byEmail]
    cases w.db.creds.get fun r => uc.text.fold r.email == uc.text.normalize inp.email <;> rfl
  · rw [if_neg hv, if_neg hv]

/-- Without an account of the identity it is the row of a new one that has to go in. -/
theorem admits_unknown (inp : OAuthInput) (h : env.Serves uc.hashRefreshToken w)
    (hid : w.db.identity inp.provider inp.providerID = none) :
    uc.Admits inp w.db ↔ ∃ creds, w.db.creds.insert (uc.newRow inp env.newID) = .ok creds := by
  constructor
  · rintro (hsome | ⟨hemail, hfits⟩)
    · rw [hid] at hsome
      cases hsome
    · refine w.db.creds.insert_ok ((uc.newRow_check inp h.newID.1).trans hfits) fun x hx => ?_
      rw [uc.newRow_clash inp h hid hx]
      exact Table.get_eq_none.1 hemail x hx
  · rintro ⟨creds, hins⟩
    obtain ⟨hcheck, hclash⟩ := Table.of_insert_ok hins
    refine .inr ⟨Table.get_eq_none.2 fun x hx => ?_, (uc.newRow_check inp h.newID.1).symm.trans hcheck⟩
    rw [← uc.newRow_clash inp h hid hx]
    exact hclash x hx

/-- Where nothing is admitted there is an error. -/
theorem oauthLogin_refused (inp : OAuthInput) (h : env.Serves uc.hashRefreshToken w) (hno : ¬ uc.Admits inp w.db) :
    ¬ uc.Meets inp env w := by
  have hid : w.db.identity inp.provider inp.providerID = none := by
    by_contra hsome
    exact hno (.inl (Option.isSome_iff_ne_none.2 hsome))
  have hlogin := uc.oauthLogin_unknown inp h hid
  have herr : ∃ err, ((uc.oauthLogin inp).eval (AuthOp.run env) w).1 = .error err := by
    cases hemail : if inp.emailVerified then w.db.byEmail (uc.text.normalize inp.email) else none with
    | some r =>
      -- the account of the email has a row, and a second one cannot stand beside it
      have hr : r ∈ w.db.creds.rows := by
        by_cases hv : inp.emailVerified = true
        · rw [if_pos hv] at hemail
          exact (Table.get_mem hemail).1
        · rw [if_neg hv] at hemail
          cases hemail
      rw [hlogin, hemail]
      exact uc.oauthLink_refused inp h hid hr
    | none =>
      cases hins : w.db.creds.insert (uc.newRow inp env.newID) with
      | error v =>
        rw [hlogin, hemail]
        exact uc.oauthNew_refused inp h hid hins
      | ok creds => exact absurd ((uc.admits_unknown inp h hid).2 ⟨creds, hins⟩) hno
  rintro ⟨res, w', heval, -⟩
  obtain ⟨err, herr⟩ := herr
  rw [heval] at herr
  cases herr

theorem oauthLogin_admitted (inp : OAuthInput) (h : env.Serves uc.hashRefreshToken w) (ha : uc.Admits inp w.db) :
    uc.Meets inp env w := by
  cases hid : w.db.identity inp.provider inp.providerID with
  | some r =>
    obtain ⟨res, w', heval, huser, r', hr', hsame⟩ := uc.oauthLogin_linked inp h hid
    refine ⟨res, w', heval, by rw [owner, hid]; exact huser, fun c hc env' henv' => ?_⟩
    have hu : res.userID = r'.userID := huser.trans hsame.userID.symm
    rw [hu] at hc ⊢
    exact uc.oauthLogin_again inp hr' (by rw [hsame.carries]; exact (Table.get_mem hid).2) hc henv'
  | none =>
    obtain ⟨creds, hins⟩ := (uc.admits_unknown inp h hid).1 ha
    obtain ⟨tokens, w', heval, hcreds⟩ := uc.oauthNew_served inp h hins
    have hemail : (if inp.emailVerified then w.db.byEmail (uc.text.normalize inp.email) else none) = none := by
      rcases ha with hsome | ⟨hfree, -⟩
      · rw [hid] at hsome
        cases hsome
      · by_cases hv : inp.emailVerified = true
        · rw [registrationEmail, if_pos hv] at hfree
          rw [if_pos hv, hfree]
        · rw [if_neg hv]
    have hlogin := uc.oauthLogin_unknown inp h hid
    rw [hemail] at hlogin
    refine ⟨_, w', hlogin.trans heval, by rw [owner, hid, hemail], fun c hc env' henv' => ?_⟩
    refine uc.oauthLogin_again inp (r := uc.newRow inp env.newID) ?_ ?_ hc henv'
    · rw [hcreds, Table.insert_rows hins]
      exact List.mem_append_right _ (List.mem_singleton.2 rfl)
    · simp [CredentialRow.carries, newRow, CredentialRepo.oauthRow, OAuthInput.credential]

/-- **A login through a provider yields its user, now and later, exactly when the identity has an account or nobody has the
email of the new one.** -/
theorem oauthLogin_meets_iff (inp : OAuthInput) (env : AuthEnv) (w : AuthWorld uc.text.fold)
    (h : env.Serves uc.hashRefreshToken w) : uc.Meets inp env w ↔ uc.Admits inp w.db := by
  constructor
  · intro hmeets
    by_contra hno
    exact uc.oauthLogin_refused inp h hno hmeets
  · exact uc.oauthLogin_admitted inp h

end Stored

end AuthUseCase

/-! ### An account with a password, and a provider that vouches for its email -/

/-- A letter of ASCII in upper case is moved by 32; any other stays. -/
theorem asciiLower_cases (c : Char) : (65 ≤ c.toNat ∧ c.toNat ≤ 90 ∧ c.toLower.toNat = c.toNat + 32) ∨
    (¬ (65 ≤ c.toNat ∧ c.toNat ≤ 90) ∧ c.toLower = c) := by
  have hbounds : (c.val ≥ 'A'.val ∧ c.val ≤ 'Z'.val) ↔ 65 ≤ c.toNat ∧ c.toNat ≤ 90 := by
    simp only [ge_iff_le, UInt32.le_iff_toNat_le]
    exact Iff.rfl
  unfold Char.toLower
  split
  · rename_i h
    have hn := hbounds.1 h
    refine .inl ⟨hn.1, hn.2, ?_⟩
    have hadd : (c.val + ('a'.val - 'A'.val)).toNat = (c.val.toNat + 32) % 2 ^ 32 := UInt32.toNat_add _ _
    have hc : c.val.toNat = c.toNat := rfl
    have hgoal : (c.val + ('a'.val - 'A'.val)).toNat = c.toNat + 32 := by omega
    exact hgoal
  · rename_i h
    exact .inr ⟨fun hn => h (hbounds.2 hn), rfl⟩

def asciiRules : CaseRules where
  toLower := Char.toLower
  isLetter := Char.isAlpha
  isDigit := Char.isDigit
  toLower_idem c := by
    rcases asciiLower_cases c with ⟨h1, h2, h3⟩ | ⟨-, h⟩
    · rcases asciiLower_cases c.toLower with ⟨-, h4, -⟩ | ⟨-, h⟩
      · omega
      · exact h
    · rw [h, h]
  toLower_space c h := by
    rcases asciiLower_cases c with ⟨h1, -, h3⟩ | ⟨-, h'⟩
    · rw [h] at h3
      have : (32 : ℕ) = c.toNat + 32 := h3
      omega
    · rw [← h', h]
      rfl

def plainAuth : AuthUseCase where
  text := asciiRules
  hashRefreshToken := id
  verifyPassword password hash := password == hash
  dummyPasswordHash := ""
  resetMail := true
  resetTokens := true
  resetTTL := 3600
  verifyMail := true
  verifyTokens := true
  verifyTTL := 86400
  refreshTTL := 604800

def emptyAuth : AuthWorld plainAuth.text.fold := ⟨⟨.empty _, .empty _, fun _ => .empty _⟩, 0, [], []⟩

def authEnv (newID secret : String) : AuthEnv where
  newID := newID
  secret := .ok secret
  accessToken := .ok "jwt"
  passwordHash := .ok "Password1"
  createUser := .ok ()
  getUser := .ok ("", "user")
  mail := .ok ()
  fault := .none

def firstUser : String := "11111111-1111-1111-1111-111111111111"

def secondUser : String := "22222222-2222-2222-2222-222222222222"

def annsInput : AuthUseCase.RegisterInput := ⟨"ann@example.test", "", "Password1", "Ann", "user"⟩

def annsLogin : AuthUseCase.OAuthInput := ⟨"google", "ann", "ann@example.test", "Ann", true⟩

theorem oauthLogin_meets_ann : plainAuth.Meets annsLogin (authEnv firstUser "s1") emptyAuth := by
  refine (plainAuth.oauthLogin_meets_iff annsLogin (authEnv firstUser "s1") emptyAuth ?_).2 (.inr ⟨rfl, by decide⟩)
  exact ⟨⟨by decide, nofun⟩, ⟨"s1", rfl, nofun⟩, ⟨_, rfl⟩, rfl, ⟨_, rfl⟩, rfl⟩

/-- The account of the registration. -/
def annsRow : CredentialRow := CredentialRepo.passwordRow
  { userID := firstUser, email := "ann@example.test", passwordHash := "Password1", consentVersion := "2026-07-16" }

def annsWorld : AuthWorld plainAuth.text.fold :=
  { emptyAuth with db := { emptyAuth.db with creds := ⟨[annsRow], by decide, by simp⟩ }, issued := [firstUser] }

theorem authEnv_exec (newID secret : String) {o : AuthOp} {w : AuthWorld plainAuth.text.fold} (w' : AuthWorld plainAuth.text.fold) {r : o.Res}
    (hn : isUUID newID = true ∧ newID ∉ w.issued) (hs : secret ∉ w.secrets) (h : o.run (authEnv newID secret) w = (r, w')) :
    AuthOp.Exec plainAuth.hashRefreshToken o w r w' := by
  refine ⟨authEnv newID secret, hn.1, hn.2, fun raw hraw raw' hmem heq => ?_, h⟩
  obtain rfl : secret = raw := Except.ok.inj hraw
  obtain rfl : secret = raw' := heq
  exact hs hmem

/-- The registration, up to its row. -/
theorem annsWorld_reach : ∃ ts, (authSys plainAuth).Reach anyStep emptyAuth ⟨annsWorld, ts⟩ := by
  have hvalid : plainAuth.validateRegisterInput annsInput = .ok annsInput := by decide +kernel
  have hprog : (AuthCall.prog plainAuth (.register annsInput)).Reaches (AuthOp.Exec plainAuth.hashRefreshToken)
      (fun _ w => w = annsWorld) emptyAuth := by
    simp only [AuthCall.prog, AuthUseCase.register, Prog.bind_eq, hvalid, Prog.perform_bind]
    refine .call (authEnv_exec firstUser "s1" _ (by decide) (by decide) rfl) ?_
    refine .call (authEnv_exec firstUser "s1" _ (by decide) (by decide) rfl) ?_
    refine .call (authEnv_exec secondUser "s1" annsWorld (by decide) (by decide) rfl) ?_
    exact .here rfl
  have hstart : (authSys plainAuth).Reach anyStep emptyAuth ⟨emptyAuth, [⟨.register annsInput, [],
    AuthCall.prog plainAuth (.register annsInput)⟩]⟩ := Sys.Reach.init.step (.start _ [] _ trivial)
  obtain ⟨did, q, w, rfl, hr⟩ := hstart.reaches (fun o w r w' he => ⟨he, fun _ _ _ => trivial⟩) [] [] hprog
  exact ⟨_, hr⟩

theorem oauthLogin_fails : ¬ ∀ (uc : AuthUseCase) (w₀ : AuthWorld uc.text.fold)
    (c : Config (AuthWorld uc.text.fold) AuthCall AuthOp AuthOp.Res AuthAnswer), w₀.db.creds.rows = [] →
    (authSys uc).Reach anyStep w₀ c → ∀ (inp : AuthUseCase.OAuthInput) (env : AuthEnv),
      env.Serves uc.hashRefreshToken c.world → uc.Meets inp env c.world := by
  intro hall
  obtain ⟨ts, h⟩ := annsWorld_reach
  have hserves : (authEnv secondUser "s2").Serves plainAuth.hashRefreshToken annsWorld := by
    refine ⟨⟨by decide, ?_⟩, ⟨"s2", rfl, nofun⟩, ⟨_, rfl⟩, rfl, ⟨_, rfl⟩, rfl⟩
    decide
  refine plainAuth.oauthLogin_refused annsLogin hserves ?_ (hall plainAuth emptyAuth _ rfl h annsLogin _ hserves)
  rintro (hid | ⟨hfree, -⟩)
  · exact absurd hid (by decide)
  · exact absurd hfree (by decide)

end Agregator
