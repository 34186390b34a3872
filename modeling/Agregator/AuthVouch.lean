import Agregator.AuthOAuth
/-!
# AuthVouch — logins whose email nobody vouches for
-/
namespace Agregator

open Rel Conc

/-- What writes an email, here or at the user service, writes none. -/
def AuthOp.Anonymous : AuthOp → Prop
  | .sql (.createOAuth cred) => cred.email = ""
  | .sql (.createCredential _) | .sql (.promoteOAuthEmail _ _) | .sendLink _ _ _ => False
  | .createUser inp => inp.email = ""
  | _ => True

/-- The user is that of an account that carries the identity, or that has been made with it. -/
def Vouched (provider providerID userID : String) (h : List (Event AuthOp AuthOp.Res)) : Prop :=
  (∃ cred, ⟨.sql (.getByProvider provider providerID), .ok cred⟩ ∈ h ∧ cred.userID = userID) ∨
    ∃ cred, ⟨.sql (.createOAuth cred), .ok ()⟩ ∈ h ∧ cred.userID = userID ∧ cred.provider = provider ∧
      cred.providerID = providerID

theorem Vouched.grows {provider providerID userID : String} {h h' : List (Event AuthOp AuthOp.Res)}
    (hv : Vouched provider providerID userID h) (hh : h <+: h') : Vouched provider providerID userID h' := by
  rcases hv with ⟨cred, hm, hu⟩ | ⟨cred, hm, hu⟩
  · exact .inl ⟨cred, hh.subset hm, hu⟩
  · exact .inr ⟨cred, hh.subset hm, hu⟩

/-- The account has been found. -/
theorem Vouched.found (provider providerID : String) (cred : Credential) (h : List (Event AuthOp AuthOp.Res)) :
    Vouched provider providerID cred.userID (h ++ [⟨.sql (.getByProvider provider providerID), .ok cred⟩]) :=
  .inl ⟨cred, List.mem_append_right _ (List.mem_singleton.2 rfl), rfl⟩

/-- The account has been stored. -/
theorem Vouched.stored (inp : AuthUseCase.OAuthInput) (userID email : String) (emailVerified : Bool)
    (h : List (Event AuthOp AuthOp.Res)) : Vouched inp.provider inp.providerID userID
      (h ++ [⟨.sql (.createOAuth (inp.credential userID email emailVerified)), .ok ()⟩]) :=
  .inr ⟨_, List.mem_append_right _ (List.mem_singleton.2 rfl), rfl, rfl, rfl⟩

namespace AuthUseCase

variable (uc : AuthUseCase) {inp : OAuthInput} {h : List (Event AuthOp AuthOp.Res)}

theorem recoverRace_email (provider providerID email name ctx : String) :
    uc.recoverRace ⟨provider, providerID, email, name, false⟩ ctx = uc.recoverRace ⟨provider, providerID, "", name, false⟩ ctx := by
  simp only [recoverRace, Prog.bind_eq, Prog.perform_bind]
  refine Prog.call_congr fun r => ?_
  cases r <;> rfl

theorem oauthNew_email (provider providerID email name : String) :
    uc.oauthNew ⟨provider, providerID, email, name, false⟩ = uc.oauthNew ⟨provider, providerID, "", name, false⟩ := by
  simp only [oauthNew, Prog.bind_eq, Prog.perform_bind, uc.recoverRace_email provider providerID email]
  refine Prog.call_congr fun userID => Prog.call_congr fun r => ?_
  cases r with
  | error err => rfl
  | ok user =>
    refine Prog.call_congr fun r => ?_
    cases r <;> rfl

/-- **The email of a login that is not vouched for is not looked at.** -/
theorem oauthLogin_email (hv : inp.emailVerified = false) (email : String) :
    uc.oauthLogin { inp with email := email } = uc.oauthLogin inp := by
  obtain ⟨provider, providerID, email', name, verified⟩ := inp
  obtain rfl : verified = false := hv
  have hlinked : ∀ (e : String) (cred : Credential),
      uc.oauthLinked ⟨provider, providerID, e, name, false⟩ cred = uc.issueOAuthTokens cred.userID false := by
    intro e cred
    unfold oauthLinked
    rw [if_neg fun h => by simp at h]
  simp only [oauthLogin, hlinked, uc.oauthNew_email provider providerID (uc.text.normalize _), Prog.bind_eq, Prog.perform_bind]
  refine Prog.call_congr fun r => ?_
  cases r with
  | ok cred => rfl
  | error err =>
    dsimp only
    rw [if_neg Bool.false_ne_true, if_neg Bool.false_ne_true]

theorem generateTokenPair_anonymous (userID email role : String) : (uc.generateTokenPair userID email role).All AuthOp.Anonymous := by
  simp only [generateTokenPair, Prog.bind_eq, Prog.perform_bind, Prog.pure_eq]
  refine ⟨trivial, fun r => ?_⟩
  cases r with
  | error err => trivial
  | ok accessToken =>
    refine ⟨trivial, fun r => ?_⟩
    cases r with
    | error err => trivial
    | ok raw =>
      refine ⟨trivial, fun now => ⟨trivial, fun r => ?_⟩⟩
      cases r <;> trivial

theorem issueOAuthTokens_anonymous (userID : String) (isNewUser : Bool) :
    (uc.issueOAuthTokens userID isNewUser).All AuthOp.Anonymous := by
  simp only [issueOAuthTokens, Prog.bind_eq, Prog.perform_bind, Prog.pure_eq]
  refine ⟨trivial, fun r => ?_⟩
  cases r with
  | error err => trivial
  | ok user => exact Prog.All.bind (fun a => by cases a <;> trivial) (uc.generateTokenPair_anonymous _ _ _)

theorem recoverRace_anonymous (inp : OAuthInput) (ctx : String) : (uc.recoverRace inp ctx).All AuthOp.Anonymous := by
  simp only [recoverRace, Prog.bind_eq, Prog.perform_bind, Prog.pure_eq]
  refine ⟨trivial, fun r => ?_⟩
  cases r with
  | error err => trivial
  | ok cred => exact uc.issueOAuthTokens_anonymous _ _

theorem oauthLogin_anonymous (hv : inp.emailVerified = false) : (uc.oauthLogin inp).All AuthOp.Anonymous := by
  simp only [oauthLogin, Prog.bind_eq, Prog.perform_bind, hv]
  refine ⟨trivial, fun r => ?_⟩
  cases r with
  | ok cred =>
    dsimp only
    unfold oauthLinked
    rw [if_neg fun h => by simp at h]
    exact uc.issueOAuthTokens_anonymous _ _
  | error err =>
    simp only [oauthNew, Prog.bind_eq, Prog.perform_bind, Prog.pure_eq]
    refine ⟨trivial, fun userID => ⟨rfl, fun r => ?_⟩⟩
    cases r with
    | error err =>
      dsimp only
      split <;> trivial
    | ok user =>
      refine ⟨rfl, fun r => ?_⟩
      cases r with
      | error err =>
        dsimp only
        split
        · exact uc.recoverRace_anonymous _ _
        · trivial
      | ok u => exact Prog.All.bind (fun a => by cases a <;> trivial) (uc.generateTokenPair_anonymous _ _ _)

/-! ## Whose user a login yields -/

/-- A login that has its user keeps it to its end. -/
theorem issueOAuthTokens_vouched {provider providerID userID : String} (hv : Vouched provider providerID userID h)
    (isNewUser : Bool) :
    (uc.issueOAuthTokens userID isNewUser).Ends (fun h' a => ∀ res, a = .ok res → Vouched provider providerID res.userID h') h := by
  simp only [issueOAuthTokens, Prog.bind_eq, Prog.perform_bind, Prog.pure_eq]
  intro r
  cases r with
  | error err => exact fun _ hres => by cases hres
  | ok user =>
    refine Prog.Ends.bind ((Prog.Ends.grows _ _).mono fun h' a hh => ?_)
    cases a with
    | error err => exact fun _ hres => by cases hres
    | ok tokens =>
      rintro res ⟨⟩
      exact hv.grows ((List.prefix_append _ _).trans hh)

theorem recoverRace_vouched (inp : OAuthInput) (ctx : String) :
    (uc.recoverRace inp ctx).Ends (fun h' a => ∀ res, a = .ok res → Vouched inp.provider inp.providerID res.userID h') h := by
  simp only [recoverRace, Prog.bind_eq, Prog.perform_bind, Prog.pure_eq]
  intro r
  cases r with
  | error err => exact fun _ hres => by cases hres
  | ok cred => exact uc.issueOAuthTokens_vouched (.found _ _ cred h) false

theorem oauthNew_vouched (inp : OAuthInput) :
    (uc.oauthNew inp).Ends (fun h' a => ∀ res, a = .ok res → Vouched inp.provider inp.providerID res.userID h') h := by
  simp only [oauthNew, Prog.bind_eq, Prog.perform_bind, Prog.pure_eq]
  intro userID r
  cases r with
  | error err => exact .ite (fun _ hres => by cases hres) fun _ hres => by cases hres
  | ok user =>
    intro r
    cases r with
    | error err => exact .ite (uc.recoverRace_vouched inp _) fun _ hres => by cases hres
    | ok u =>
      refine Prog.Ends.bind ((Prog.Ends.grows _ _).mono fun h' a hh => ?_)
      cases a with
      | error err => exact fun _ hres => by cases hres
      | ok tokens =>
        rintro res ⟨⟩
        exact (Vouched.stored inp _ _ _ _).grows hh

theorem oauthLink_vouched (inp : OAuthInput) (existingCred : Credential) :
    (uc.oauthLink inp existingCred).Ends (fun h' a => ∀ res, a = .ok res → Vouched inp.provider inp.providerID res.userID h') h := by
  simp only [oauthLink, Prog.bind_eq, Prog.perform_bind, Prog.pure_eq]
  intro r
  cases r with
  | error err => exact .ite (uc.recoverRace_vouched inp _) fun _ hres => by cases hres
  | ok u => exact uc.issueOAuthTokens_vouched (.stored inp _ _ _ h) false

/-- **A login yields the user of the identity**, as a row that was read or written has it. -/
theorem oauthLogin_vouched (inp : OAuthInput) :
    (uc.oauthLogin inp).Ends (fun h' a => ∀ res, a = .ok res → Vouched inp.provider inp.providerID res.userID h') h := by
  simp only [oauthLogin, Prog.bind_eq, Prog.perform_bind]
  intro r
  cases r with
  | ok cred =>
    have hv := Vouched.found inp.provider inp.providerID cred h
    dsimp only
    unfold oauthLinked
    refine .ite ?_ (uc.issueOAuthTokens_vouched hv false)
    simp only [Prog.bind_eq, Prog.perform_bind]
    exact fun r => uc.issueOAuthTokens_vouched (hv.grows (List.prefix_append _ _)) false
  | error err =>
    refine .ite (fun r => ?_) (uc.oauthNew_vouched { inp with email := uc.text.normalize inp.email })
    cases r with
    | error err => exact uc.oauthNew_vouched { inp with email := uc.text.normalize inp.email }
    | ok existingCred => exact uc.oauthLink_vouched { inp with email := uc.text.normalize inp.email } existingCred

end AuthUseCase

/-! ## The accounts -/

variable {fold : String → String}

/-- The emails of the accounts are those they had, or none. -/
def NoNewEmail (db db' : AuthDB fold) : Prop :=
  ∀ r' ∈ db'.creds.rows, r'.email = "" ∨ ∃ r ∈ db.creds.rows, r.userID = r'.userID ∧ r.email = r'.email

theorem NoNewEmail.of_creds {db db' : AuthDB fold} (h : db'.creds = db.creds) : NoNewEmail db db' := by
  intro r hr
  rw [h] at hr
  exact .inr ⟨r, hr, rfl, rfl⟩

theorem NoNewEmail.insertRow {r : CredentialRow} (hr : r.email = "") (db : AuthDB fold) :
    NoNewEmail db (CredentialRepo.insertRow r db).2 := by
  unfold CredentialRepo.insertRow
  split
  · rename_i creds hi
    intro x hx
    rw [Table.insert_rows hi] at hx
    rcases List.mem_append.1 hx with hx | hx
    · exact .inr ⟨x, hx, rfl, rfl⟩
    · rw [List.mem_singleton.1 hx]
      exact .inl hr
  · exact .of_creds rfl

theorem NoNewEmail.updateRow {f : CredentialRow → CredentialRow} (hf : ∀ r, (f r).userID = r.userID ∧ (f r).email = r.email)
    (p : CredentialRow → Bool) (missing : String) (db : AuthDB fold) :
    NoNewEmail db (CredentialRepo.updateRow p f missing db).2 := by
  unfold CredentialRepo.updateRow
  split
  · exact .of_creds rfl
  · rename_i creds hu
    intro x hx
    rw [Table.update_rows hu] at hx
    obtain ⟨r, hr, rfl⟩ := List.mem_map.1 hx
    refine .inr ⟨r, hr, ?_⟩
    split
    · exact ⟨(hf r).1.symm, (hf r).2.symm⟩
    · exact ⟨rfl, rfl⟩

theorem AuthSql.run_emails (now : Time) (s : AuthSql) (hs : (AuthOp.sql s).Anonymous) (db : AuthDB fold) :
    NoNewEmail db (s.run now db).2 := by
  by_cases hw : s.writesAccounts = false
  · exact .of_creds (AuthSql.run_creds now db hw)
  cases s with
  | createCredential | promoteOAuthEmail => exact hs.elim
  | createOAuth cred => exact .insertRow (r := CredentialRepo.oauthRow cred) hs db
  | deleteCredential userID => exact fun r hr => .inr ⟨r, (List.mem_filter.1 hr).1, rfl, rfl⟩
  | updatePasswordHash userID passwordHash =>
    exact .updateRow (f := fun r => { r with passwordHash := some passwordHash }) (fun _ => ⟨rfl, rfl⟩) _ _ db
  | setEmailVerified userID verified =>
    exact .updateRow (f := fun r => { r with emailVerified := verified }) (fun _ => ⟨rfl, rfl⟩) _ _ db
  | _ => exact absurd rfl hw

/-- The row an operation of a login that succeeds has read or written. -/
theorem Vouched.row {uc : AuthUseCase} {w₀ : AuthWorld uc.text.fold} {tr : List (Moment _ AuthCall AuthOp AuthOp.Res AuthAnswer)}
    {c : Config (AuthWorld uc.text.fold) AuthCall AuthOp AuthOp.Res AuthAnswer} (h : (authSys uc).Trace w₀ tr c)
    {t : AuthThread} (ht : t ∈ c.threads) {provider providerID userID : String} (hv : Vouched provider providerID userID t.did) :
    ∃ m ∈ tr, m.thread.call = t.call ∧ m.thread.did ++ [m.event] <+: t.did ∧
      ∃ r ∈ m.after.db.creds.rows, r.userID = userID ∧ r.carries provider providerID = true := by
  rcases hv with ⟨cred, hmem, rfl⟩ | ⟨cred, hmem, rfl, rfl, rfl⟩
  · obtain ⟨m, hm, hcall, hdid, -, he⟩ := h.performing ht hmem
    refine ⟨m, hm, hcall, hdid, ?_⟩
    obtain ⟨hget, hdb⟩ := Prod.mk.inj (AuthOp.Exec.ok he)
    have hget : CredentialRepo.getByProvider provider providerID m.before.world.db = .ok cred := hget
    unfold CredentialRepo.getByProvider at hget
    cases hrow : m.before.world.db.creds.get (·.carries provider providerID) with
    | none =>
      rw [hrow] at hget
      cases hget
    | some r =>
      rw [hrow] at hget
      cases hget
      obtain ⟨hr, hcarries⟩ := Table.get_mem hrow
      exact ⟨r, by rw [← hdb]; exact hr, rfl, hcarries⟩
  · obtain ⟨m, hm, hcall, hdid, -, he⟩ := h.performing ht hmem
    refine ⟨m, hm, hcall, hdid, CredentialRepo.oauthRow cred, ?_, rfl, by simp [CredentialRow.carries, CredentialRepo.oauthRow]⟩
    have hrun : CredentialRepo.insertRow (CredentialRepo.oauthRow cred) m.before.world.db = (.ok (), m.after.db) := AuthOp.Exec.ok he
    unfold CredentialRepo.insertRow at hrun
    split at hrun
    · rename_i creds hi
      rw [← (Prod.mk.inj hrun).2, Table.insert_rows hi]
      exact List.mem_append_right _ (List.mem_singleton.2 rfl)
    · cases hrun

/-- **A login whose email nobody vouches for yields the user of an account that carries its identity, and nothing of it
depends on the email.** -/
theorem oauthLogin_unvouched {uc : AuthUseCase} {w₀ : AuthWorld uc.text.fold}
    {tr : List (Moment (AuthWorld uc.text.fold) AuthCall AuthOp AuthOp.Res AuthAnswer)}
    {c : Config (AuthWorld uc.text.fold) AuthCall AuthOp AuthOp.Res AuthAnswer} (h : (authSys uc).Trace w₀ tr c)
    {inp : AuthUseCase.OAuthInput} (hv : inp.emailVerified = false) :
    (∀ m ∈ tr, m.thread.call = .oauthLogin inp → m.op.Anonymous ∧ NoNewEmail m.before.world.db m.after.db) ∧
    (∀ t ∈ c.threads, t.call = .oauthLogin inp → ∀ res, t.rest = .ret (.oauth res) →
      ∃ tr₁ m tr₂, tr = tr₁ ++ m :: tr₂ ∧ m.thread.call = t.call ∧ m.thread.did ++ [m.event] <+: t.did ∧
        (∃ r ∈ m.after.db.creds.rows, r.userID = res.userID ∧ r.carries inp.provider inp.providerID = true) ∧
        ((∀ m' ∈ tr₂, m'.op ≠ .sql (.deleteCredential res.userID)) →
          ∃ r ∈ c.world.db.creds.rows, r.userID = res.userID ∧ r.carries inp.provider inp.providerID = true)) ∧
    ∀ email, (authSys uc).prog (.oauthLogin { inp with email := email }) = (authSys uc).prog (.oauthLogin inp) := by
  refine ⟨fun m hm hcall => ?_, fun t ht hcall res hres => ?_, fun email => ?_⟩
  · have hanon : m.op.Anonymous := by
      refine h.prior (P := fun call _ o => call = .oauthLogin inp → o.Anonymous) (fun call => ?_) m hm hcall
      by_cases hc : call = .oauthLogin inp
      · subst hc
        refine Prog.After.bind (fun _ _ => by trivial) ?_
        exact Prog.All.after ((uc.oauthLogin_anonymous hv).mono fun o ho _ _ => ho)
      · exact Prog.All.after (Prog.All.of_forall (fun o _ hcall => absurd hcall hc) _)
    refine ⟨hanon, ?_⟩
    rcases AuthOp.Exec.db (h.steps m hm).exec with hdb | ⟨s, ho, hdb⟩
    · exact .of_creds (by rw [hdb])
    · rw [hdb]
      exact s.run_emails _ (ho ▸ hanon) _
  · have hends := h.reach.ends (Q := fun call did a => call = .oauthLogin inp → ∀ res, a = .oauth res →
      Vouched inp.provider inp.providerID res.userID did) (fun call => ?_) t ht
    · rw [hres] at hends
      obtain ⟨m, hm, hmcall, hdid, r, hr, huser, hcarries⟩ := Vouched.row h ht (hends hcall res rfl)
      obtain ⟨tr₁, tr₂, rfl⟩ := List.append_of_mem hm
      refine ⟨tr₁, m, tr₂, rfl, hmcall, hdid, ⟨r, hr, huser, hcarries⟩, fun hkept => ?_⟩
      have hstays := h.keeps_from (F := fun w => ∃ r ∈ w.db.creds.rows, r.userID = res.userID ∧
        r.carries inp.provider inp.providerID = true) ⟨r, hr, huser, hcarries⟩ ?_ ?_
      · exact hstays
      · rintro m' hm' hstep ⟨x, hx, hxu, hxc⟩
        obtain ⟨x', hx', hsame⟩ := AuthOp.Exec.same hstep.exec hx (by rw [hxu]; exact hkept m' hm')
        exact ⟨x', hx', hsame.userID.trans hxu, (hsame.carries _ _).trans hxc⟩
      · rintro w w' ⟨later, -, rfl⟩ hw
        exact hw
    · by_cases hc : call = .oauthLogin inp
      · subst hc
        refine Prog.Ends.bind ((uc.oauthLogin_vouched inp).mono fun did a ha _ res hres => ?_)
        cases a with
        | error err => cases hres
        | ok res' =>
          obtain rfl : res' = res := AuthAnswer.oauth.inj hres
          exact ha res' rfl
      · exact Prog.Ends.of_forall (fun _ _ hcall => absurd hcall hc) _ _
  · show (do return AuthAnswer.of .oauth (← uc.oauthLogin { inp with email := email }) : AuthProg AuthAnswer) = _
    rw [uc.oauthLogin_email hv]
    rfl

/-- A login that shows an email of someone's. -/
def shownLogin : AuthUseCase.OAuthInput := { annsLogin with emailVerified := false }

def shownResult : AuthUseCase.OAuthResult := ⟨firstUser, ⟨"jwt", "s1"⟩, true⟩

theorem shownLogin_trace : ∃ tr w did, (authSys plainAuth).Trace emptyAuth tr
    ⟨w, [⟨.oauthLogin shownLogin, did, .ret (.oauth shownResult)⟩]⟩ := by
  have hruns : ∃ w, (AuthCall.prog plainAuth (.oauthLogin shownLogin)).Runs (AuthOp.Exec plainAuth.hashRefreshToken) emptyAuth
      (.oauth shownResult) w := by
    constructor
    simp only [AuthCall.prog, AuthUseCase.oauthLogin, Prog.bind_eq, Prog.perform_bind]
    refine ⟨_, _, authEnv_exec firstUser "s1" _ (by decide) (by decide) rfl, ?_⟩
    refine ⟨_, _, authEnv_exec firstUser "s1" _ (by decide) (by decide) rfl, ?_⟩
    refine ⟨_, _, authEnv_exec secondUser "s1" _ (by decide) (by decide) rfl, ?_⟩
    refine ⟨_, _, authEnv_exec secondUser "s1" _ (by decide) (by decide) rfl, ?_⟩
    refine ⟨_, _, authEnv_exec secondUser "s1" _ (by decide) (by decide) rfl, ?_⟩
    refine ⟨_, _, authEnv_exec secondUser "s1" _ (by decide) (by decide) rfl, ?_⟩
    refine ⟨_, _, authEnv_exec secondUser "s2" _ (by decide) (by decide) rfl, ?_⟩
    refine ⟨_, _, authEnv_exec secondUser "s2" _ (by decide) (by decide) rfl, ?_⟩
    exact ⟨rfl, rfl⟩
  obtain ⟨w, hruns⟩ := hruns
  obtain ⟨tr, did, ht⟩ := Sys.Trace.runs (fun _ _ _ _ he => he) hruns
    (show (authSys plainAuth).Trace emptyAuth [] ⟨emptyAuth, [] ++ [⟨.oauthLogin shownLogin, [], _⟩]⟩ from
      Sys.Trace.init.start _ trivial)
  exact ⟨tr, w, did, ht⟩

theorem oauthLogin_unvouched_ann : ∃ tr c, (authSys plainAuth).Trace emptyAuth tr c ∧ ∃ tr₁ m tr₂, tr = tr₁ ++ m :: tr₂ ∧
    ∃ r ∈ m.after.db.creds.rows, r.userID = firstUser ∧ r.carries "google" "ann" = true := by
  obtain ⟨tr, w, did, ht⟩ := shownLogin_trace
  obtain ⟨-, huser, -⟩ := oauthLogin_unvouched ht (show shownLogin.emailVerified = false from rfl)
  obtain ⟨tr₁, m, tr₂, htr, -, -, hrow, -⟩ := huser _ (List.mem_singleton.2 rfl) rfl shownResult rfl
  exact ⟨tr, _, ht, tr₁, m, tr₂, htr, hrow⟩

end Agregator
