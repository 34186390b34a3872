import Agregator.AuthOAuth
/-!
# AuthDeletion — what is left of a deleted account

A deletion takes the sessions of a user away and then the account.  From then on no answer of the tables names the user
(`AuthOp.Exec.without`), as long as nobody stores the account anew, and a login names its user from such an answer.
-/
namespace Agregator

open Rel Conc

/-! ## The accounts of a user -/

variable {fold : String → String}

/-- No account of the user is stored. -/
def AuthDB.Without (db : AuthDB fold) (userID : String) : Prop := ∀ r ∈ db.creds.rows, r.userID ≠ userID

/-- The user a statement stores an account of. -/
def AuthSql.stores : AuthSql → Option String
  | createCredential cred | createOAuth cred => some cred.userID
  | _ => none

theorem CredentialRepo.insertRow_without {r : CredentialRow} {db : AuthDB fold} {userID : String} (h : db.Without userID)
    (hr : r.userID ≠ userID) : (insertRow r db).2.Without userID := by
  unfold insertRow
  split
  · rename_i creds hi
    intro x hx
    rw [Table.insert_rows hi] at hx
    rcases List.mem_append.1 hx with hx | hx
    · exact h x hx
    · rwa [List.mem_singleton.1 hx]
  · exact h

theorem CredentialRepo.updateRow_without {p : CredentialRow → Bool} {f : CredentialRow → CredentialRow} (missing : String)
    (hf : ∀ r, (f r).userID = r.userID) {db : AuthDB fold} {userID : String} (h : db.Without userID) :
    (updateRow p f missing db).2.Without userID := by
  unfold updateRow
  split
  · exact h
  · rename_i creds hu
    intro x hx
    rw [Table.update_rows hu] at hx
    obtain ⟨r, hr, rfl⟩ := List.mem_map.1 hx
    by_cases hp : p r = true
    · rw [if_pos hp, hf]
      exact h r hr
    · rw [if_neg hp]
      exact h r hr

/-- **Only what stores an account of a user brings one about.** -/
theorem AuthSql.run_without (now : Time) (s : AuthSql) {db : AuthDB fold} {userID : String} (h : db.Without userID)
    (hs : s.stores ≠ some userID) : (s.run now db).2.Without userID := by
  by_cases hw : s.writesAccounts = false
  · unfold AuthDB.Without
    rw [AuthSql.run_creds now db hw]
    exact h
  cases s with
  | createCredential cred | createOAuth cred =>
    exact CredentialRepo.insertRow_without h fun hu => hs (congrArg some hu)
  | deleteCredential userID => exact fun r hr => h r (List.mem_filter.1 hr).1
  | updatePasswordHash id passwordHash =>
    exact CredentialRepo.updateRow_without (f := fun r => { r with passwordHash := some passwordHash }) _ (fun _ => rfl) h
  | setEmailVerified id verified =>
    exact CredentialRepo.updateRow_without (f := fun r => { r with emailVerified := verified }) _ (fun _ => rfl) h
  | promoteOAuthEmail id email =>
    exact CredentialRepo.updateRow_without (f := fun r => { r with email := email }) _ (fun _ => rfl) h
  | _ => exact absurd rfl hw

/-- The deletion leaves none. -/
theorem AuthOp.Exec.deleted {hash : String → String} {w w' : AuthWorld fold} {userID : String}
    (h : AuthOp.Exec hash (.sql (.deleteCredential userID)) w (.ok ()) w') : w'.db.Without userID := by
  obtain ⟨-, hdb⟩ := Prod.mk.inj (AuthOp.Exec.ok h)
  intro r hr
  rw [← hdb] at hr
  have hkept := (List.mem_filter.1 hr).2
  simpa using hkept

/-- The answer is about an account of the user, which was found or has been stored. -/
def NamesUser (userID : String) : Event AuthOp AuthOp.Res → Prop
  | ⟨.sql (.getByEmail _), .ok cred⟩ | ⟨.sql (.getByProvider _ _), .ok cred⟩ => cred.userID = userID
  | ⟨.sql (.getByUserID id), .ok _⟩ => id = userID
  | ⟨.sql (.createOAuth cred), .ok _⟩ => cred.userID = userID
  | _ => False

theorem CredentialRepo.found_ok {sel : CredentialRow → Credential} {o : Option CredentialRow} {cred : Credential}
    (h : found sel o = .ok cred) : ∃ r, o = some r ∧ sel r = cred := by
  cases o with
  | none => cases h
  | some r => exact ⟨r, rfl, Except.ok.inj h⟩

/-- **Where a user has no account before an operation and after it, its answer does not name the user.** -/
theorem AuthOp.Exec.names {hash : String → String} {e : Event AuthOp AuthOp.Res} {w w' : AuthWorld fold}
    (h : AuthOp.Exec hash e.1 w e.2 w') {userID : String} (hw : w.db.Without userID) (hw' : w'.db.Without userID) :
    ¬ NamesUser userID e := by
  have hfind : ∀ {sel : CredentialRow → Credential} {p : CredentialRow → Bool} {cred : Credential},
      CredentialRepo.found sel (w.db.creds.get p) = .ok cred → ∃ r ∈ w.db.creds.rows, p r = true ∧ sel r = cred := by
    intro sel p cred hf
    obtain ⟨r, hget, hsel⟩ := CredentialRepo.found_ok hf
    obtain ⟨hr, hp⟩ := Table.get_mem hget
    exact ⟨r, hr, hp, hsel⟩
  unfold NamesUser
  split
  · rename_i email cred
    obtain ⟨r, hr, -, rfl⟩ := hfind (Prod.mk.inj (AuthOp.Exec.ok h)).1
    exact hw r hr
  · rename_i provider providerID cred
    obtain ⟨r, hr, -, rfl⟩ := hfind (Prod.mk.inj (AuthOp.Exec.ok h)).1
    exact hw r hr
  · rename_i id cred
    obtain ⟨r, hr, hp, -⟩ := hfind (Prod.mk.inj (AuthOp.Exec.ok h)).1
    rintro rfl
    exact hw r hr (by simpa using hp)
  · rename_i cred u
    have hrun : CredentialRepo.insertRow (CredentialRepo.oauthRow cred) w.db = (.ok (), w'.db) := AuthOp.Exec.ok h
    unfold CredentialRepo.insertRow at hrun
    split at hrun
    · rename_i creds hi
      refine hw' (CredentialRepo.oauthRow cred) ?_
      rw [← (Prod.mk.inj hrun).2, Table.insert_rows hi]
      exact List.mem_append_right _ List.mem_cons_self
    · cases hrun
  · exact id

/-! ## Whose tokens a login makes -/

/-- The user of the tokens that an operation makes. -/
def AuthOp.tokensOf : AuthOp → Option String
  | generateAccessToken userID _ _ => some userID
  | sql (.createRefresh token) => some token.userID
  | _ => none

def Named (userID : String) (h : List (Event AuthOp AuthOp.Res)) : Prop := ∃ e ∈ h, NamesUser userID e

theorem Named.grows {userID : String} {h h' : List (Event AuthOp AuthOp.Res)} (hn : Named userID h) (hh : h <+: h') :
    Named userID h' := by
  obtain ⟨e, he, hn⟩ := hn
  exact ⟨e, hh.subset he, hn⟩

theorem Named.last {userID : String} {e : Event AuthOp AuthOp.Res} (h : List (Event AuthOp AuthOp.Res)) (he : NamesUser userID e) :
    Named userID (h ++ [e]) := ⟨e, List.mem_append_right _ List.mem_cons_self, he⟩

/-- Tokens are made for a user that an answer has named. -/
def Known (h : List (Event AuthOp AuthOp.Res)) (o : AuthOp) : Prop := ∀ userID, o.tokensOf = some userID → Named userID h

theorem known_of_none {h : List (Event AuthOp AuthOp.Res)} {o : AuthOp} (ho : o.tokensOf = none) : Known h o := by
  intro userID hu
  rw [ho] at hu
  cases hu

namespace AuthUseCase

variable (uc : AuthUseCase) {h : List (Event AuthOp AuthOp.Res)} {userID : String}

/-- The user that the end of a login is about has been named. -/
def Of {α : Type} (user : α → String) (h : List (Event AuthOp AuthOp.Res)) (a : Except Err α) : Prop :=
  ∀ res, a = .ok res → Named (user res) h

theorem of_error {α : Type} (user : α → String) (err : Err) : Of user h (.error err) := by
  rintro res ⟨⟩

theorem generateTokenPair_known (hn : Named userID h) (email role : String) :
    (uc.generateTokenPair userID email role).Obeys Known (fun h' _ => Named userID h') h := by
  have hmakes : ∀ {h' : List (Event AuthOp AuthOp.Res)} {o : AuthOp}, o.tokensOf = some userID → Named userID h' → Known h' o := by
    intro h' o ho hn userID' ho'
    obtain rfl : userID = userID' := Option.some.inj (ho.symm.trans ho')
    exact hn
  simp only [generateTokenPair, Prog.bind_eq, Prog.perform_bind, Prog.pure_eq]
  refine ⟨hmakes rfl hn, fun r => ?_⟩
  have hn := hn.grows (List.prefix_append h [⟨.generateAccessToken userID email role, r⟩])
  cases r with
  | error err => exact hn
  | ok accessToken =>
    refine ⟨known_of_none rfl, fun r => ?_⟩
    have hn := hn.grows (List.prefix_append _ [⟨.generateRefreshToken, r⟩])
    cases r with
    | error err => exact hn
    | ok raw =>
      refine ⟨known_of_none rfl, fun now => ?_⟩
      have hn := hn.grows (List.prefix_append _ [⟨.now, now⟩])
      refine ⟨hmakes rfl hn, fun r => ?_⟩
      have hn := hn.grows (List.prefix_append _
        [⟨.sql (.createRefresh ⟨userID, uc.hashRefreshToken raw, now + uc.refreshTTL⟩), r⟩])
      cases r <;> exact hn

theorem issueOAuthTokens_known (hn : Named userID h) (isNewUser : Bool) :
    (uc.issueOAuthTokens userID isNewUser).Obeys Known (Of OAuthResult.userID) h := by
  simp only [issueOAuthTokens, Prog.bind_eq, Prog.perform_bind, Prog.pure_eq]
  refine ⟨known_of_none rfl, fun r => ?_⟩
  cases r with
  | error err => exact of_error _ _
  | ok user =>
    refine Prog.Obeys.bind ((uc.generateTokenPair_known (hn.grows (List.prefix_append _ _)) _ _).mono fun h' a hn => ?_)
    cases a with
    | error err => exact of_error _ _
    | ok tokens =>
      rintro res ⟨⟩
      exact hn

theorem recoverRace_known (inp : OAuthInput) (ctx : String) :
    (uc.recoverRace inp ctx).Obeys Known (Of OAuthResult.userID) h := by
  simp only [recoverRace, Prog.bind_eq, Prog.perform_bind, Prog.pure_eq]
  refine ⟨known_of_none rfl, fun r => ?_⟩
  cases r with
  | error err => exact of_error _ _
  | ok cred => exact uc.issueOAuthTokens_known (by exact Named.last h rfl) false

theorem oauthLinked_known (inp : OAuthInput) {cred : Credential} (hn : Named cred.userID h) :
    (uc.oauthLinked inp cred).Obeys Known (Of OAuthResult.userID) h := by
  unfold oauthLinked
  split
  · simp only [Prog.bind_eq, Prog.perform_bind]
    exact ⟨known_of_none rfl, fun r => uc.issueOAuthTokens_known (hn.grows (List.prefix_append _ _)) false⟩
  · exact uc.issueOAuthTokens_known hn false

theorem oauthLink_known (inp : OAuthInput) (existingCred : Credential) :
    (uc.oauthLink inp existingCred).Obeys Known (Of OAuthResult.userID) h := by
  simp only [oauthLink, Prog.bind_eq, Prog.perform_bind, Prog.pure_eq]
  refine ⟨known_of_none rfl, fun r => ?_⟩
  cases r with
  | error err =>
    exact .ite (uc.recoverRace_known inp _) (of_error _ _)
  | ok u => exact uc.issueOAuthTokens_known (by exact Named.last h rfl) false

theorem oauthNew_known (inp : OAuthInput) : (uc.oauthNew inp).Obeys Known (Of OAuthResult.userID) h := by
  simp only [oauthNew, Prog.bind_eq, Prog.perform_bind, Prog.pure_eq]
  refine ⟨known_of_none rfl, fun userID => ⟨known_of_none rfl, fun r => ?_⟩⟩
  cases r with
  | error err =>
    exact .ite (of_error _ _) (of_error _ _)
  | ok user =>
    refine ⟨known_of_none rfl, fun r => ?_⟩
    cases r with
    | error err =>
      exact .ite (uc.recoverRace_known inp _) (of_error _ _)
    | ok u =>
      refine Prog.Obeys.bind ((uc.generateTokenPair_known (by exact Named.last _ rfl) _ _).mono fun h' a hn => ?_)
      cases a with
      | error err => exact of_error _ _
      | ok tokens =>
        rintro res ⟨⟩
        exact hn

theorem oauthLogin_known (inp : OAuthInput) : (uc.oauthLogin inp).Obeys Known (Of OAuthResult.userID) h := by
  simp only [oauthLogin, Prog.bind_eq, Prog.perform_bind]
  refine ⟨known_of_none rfl, fun r => ?_⟩
  cases r with
  | ok cred => exact uc.oauthLinked_known _ (by exact Named.last h rfl)
  | error err =>
    refine .ite ⟨known_of_none rfl, fun r => ?_⟩ (uc.oauthNew_known _)
    cases r with
    | error err => exact uc.oauthNew_known _
    | ok existingCred => exact uc.oauthLink_known _ existingCred

theorem login_known (email password : String) : (uc.login email password).Obeys Known (Of AuthResult.userID) h := by
  simp only [login, Prog.bind_eq, Prog.perform_bind, Prog.pure_eq]
  refine ⟨known_of_none rfl, fun r => ?_⟩
  cases r with
  | error err => exact of_error _ _
  | ok cred =>
    have hn : Named cred.userID (h ++ [⟨.sql (.getByEmail (uc.text.normalize email)), .ok cred⟩]) := Named.last h rfl
    refine .ite (of_error _ _) (.ite (of_error _ _) ⟨known_of_none rfl, fun r => ?_⟩)
    cases r with
    | error err => exact of_error _ _
    | ok user =>
      refine Prog.Obeys.bind ((uc.generateTokenPair_known (hn.grows (List.prefix_append _ _)) _ _).mono fun h' a hn => ?_)
      cases a with
      | error err => exact of_error _ _
      | ok tokens =>
        rintro res ⟨⟩
        exact hn

/-- A refreshed session is one of an account that is there. -/
theorem refreshToken_known (raw : String) : (uc.refreshToken raw).Obeys Known (fun _ _ => True) h := by
  simp only [refreshToken, Prog.bind_eq, Prog.perform_bind, Prog.pure_eq]
  refine ⟨known_of_none rfl, fun r => ?_⟩
  cases r with
  | error err =>
    exact .ite trivial trivial
  | ok stored =>
    refine ⟨known_of_none rfl, fun now => ?_⟩
    refine .ite trivial ⟨known_of_none rfl, fun r => ?_⟩
    cases r with
    | error err => trivial
    | ok cred =>
      have hn : Named stored.userID (h ++ [⟨.sql (.consumeByHash (uc.hashRefreshToken raw)), .ok stored⟩] ++ [⟨.now, now⟩] ++
        [⟨.sql (.getByUserID stored.userID), .ok cred⟩]) := Named.last _ rfl
      refine ⟨known_of_none rfl, fun r => ?_⟩
      cases r with
      | error err => trivial
      | ok user => exact (uc.generateTokenPair_known (hn.grows (List.prefix_append _ _)) _ _).mono fun _ _ _ => trivial

end AuthUseCase

/-- The calls that give tokens for an account there is. -/
def AuthCall.logsIn : AuthCall → Bool
  | login _ _ | oauthLogin _ | refreshToken _ => true
  | _ => false

/-- The user an answer is about. -/
def AuthAnswer.userID : AuthAnswer → Option String
  | account res => some res.userID
  | oauth res => some res.userID
  | _ => none

def AuthAnswer.tokens : AuthAnswer → Option AuthUseCase.TokenPair
  | account res => some res.tokens
  | oauth res => some res.tokens
  | session tokens => some tokens
  | _ => none

/-- The call has returned tokens for the user: it says so, or has the access token signed for it. -/
def Yields (userID : String) (t : AuthThread) : Prop :=
  ∃ a tokens, t.rest = .ret a ∧ a.tokens = some tokens ∧
    (a.userID = some userID ∨ ∃ email role, ⟨.generateAccessToken userID email role, .ok tokens.accessToken⟩ ∈ t.did)

/-- **A login makes tokens for a user that an answer of the tables has named.** -/
theorem AuthCall.known (uc : AuthUseCase) {call : AuthCall} (hc : call.logsIn = true) :
    (AuthCall.prog uc call).Obeys Known (fun h a => ∀ userID, a.userID = some userID → Named userID h) [] := by
  cases call with
  | login email password =>
    refine Prog.Obeys.bind ((uc.login_known email password).mono fun h a hn => ?_)
    rintro userID hu
    cases a with
    | error err => cases hu
    | ok res => exact Option.some.inj hu ▸ hn res rfl
  | oauthLogin inp =>
    refine Prog.Obeys.bind ((uc.oauthLogin_known inp).mono fun h a hn => ?_)
    rintro userID hu
    cases a with
    | error err => cases hu
    | ok res => exact Option.some.inj hu ▸ hn res rfl
  | refreshToken raw =>
    refine Prog.Obeys.bind ((uc.refreshToken_known raw).mono fun h a _ => ?_)
    rintro userID hu
    cases a <;> cases hu
  | _ => cases hc

/-! ## From the deletion on -/

abbrev AuthMoment (fold : String → String) := Moment (AuthWorld fold) AuthCall AuthOp AuthOp.Res AuthAnswer

/-- The step with which `DeleteAccount` of the user returns without an error. -/
def Deletes (userID : String) (m : AuthMoment fold) : Prop :=
  m.thread.call = .deleteAccount userID ∧ m.event = ⟨.sql (.deleteCredential userID), .ok ()⟩

/-- The step stores an account of the user. -/
def Stores (userID : String) (m : AuthMoment fold) : Prop :=
  (∃ s, m.op = .sql s ∧ s.stores = some userID) ∧ ¬ m.after.db.Without userID

section Since

variable {uc : AuthUseCase} {w₀ : AuthWorld uc.text.fold} {tr₁ tr₂ : List (AuthMoment uc.text.fold)} {d : AuthMoment uc.text.fold}
  {c : Config (AuthWorld uc.text.fold) AuthCall AuthOp AuthOp.Res AuthAnswer} {userID : String}

/-- A step after which a user without an account still has none. -/
theorem without_step {m : AuthMoment uc.text.fold} (hm : m.Step (authSys uc)) (hw : m.before.world.db.Without userID)
    (hS : ¬ Stores userID m) : m.after.db.Without userID := by
  rcases AuthOp.Exec.db hm.exec with hdb | ⟨s, ho, hdb⟩
  · rw [hdb]
    exact hw
  · by_cases hs : s.stores = some userID
    · by_contra hnot
      exact hS ⟨⟨s, ho, hs⟩, hnot⟩
    · rw [hdb]
      exact s.run_without _ hw hs

/-- **From the deletion on the user has no account, and no answer to a call that starts later names the user.** -/
theorem without_since (h : (authSys uc).Trace w₀ (tr₁ ++ d :: tr₂) c) (hd : Deletes userID d)
    (hS : ∀ m ∈ tr₂, ¬ Stores userID m) : c.world.db.Without userID ∧
      ∀ t ∈ c.threads.drop d.before.threads.length, ∀ e ∈ t.did, ¬ NamesUser userID e := by
  refine h.since (F := fun w => w.db.Without userID) (E := fun e => ¬ NamesUser userID e) ?_ (fun m hm hstep hw => ?_) ?_
  · have he : AuthOp.Exec uc.hashRefreshToken d.event.1 d.before.world d.event.2 d.after := (h.steps d (by simp)).exec
    rw [hd.2] at he
    exact he.deleted
  · have hw' := without_step hstep hw (hS m hm)
    exact ⟨hw', AuthOp.Exec.names (e := m.event) hstep.exec hw hw'⟩
  · rintro w w' ⟨later, -, rfl⟩ hw
    exact hw

/-- **A deletion is final where no account of the user is stored after it**: no login, no login through a provider and no
refresh that starts after it yields tokens for the user. -/
theorem deletion_final (h : (authSys uc).Trace w₀ (tr₁ ++ d :: tr₂) c) (hd : Deletes userID d)
    (hS : ∀ m ∈ tr₂, ¬ Stores userID m) :
    ∀ t ∈ c.threads.drop d.before.threads.length, t.call.logsIn = true → ¬ Yields userID t := by
  obtain ⟨-, hnames⟩ := without_since h hd hS
  intro t ht hl hy
  have hmem : t ∈ c.threads := List.mem_of_mem_drop ht
  have hnot : ∀ h' : List (Event AuthOp AuthOp.Res), (∀ e ∈ h', e ∈ t.did) → ¬ Named userID h' := by
    rintro h' hh ⟨e, he, hn⟩
    exact hnames t ht e (hh e he) hn
  obtain ⟨a, tokens, hrest, -, huser | ⟨email, role, hsigned⟩⟩ := hy
  · have hends := h.reach.ends (Q := fun call did a => call.logsIn = true → ∀ userID, a.userID = some userID → Named userID did)
      (fun call => ?_) t hmem
    · rw [hrest] at hends
      exact hnot t.did (fun _ he => he) (hends hl userID huser)
    · by_cases hc : call.logsIn = true
      · exact (AuthCall.known uc hc).ends.mono fun _ _ hq _ => hq
      · exact Prog.Ends.of_forall (fun _ _ hc' => absurd hc' hc) _ _
  · have hafter := h.reach.after (P := fun call did o => call.logsIn = true → Known did o) (fun call => ?_) t hmem
    · obtain ⟨h₁, h₂, hdid⟩ := List.append_of_mem hsigned
      refine hnot h₁ (fun e he => ?_) (hafter.2 h₁ _ h₂ hdid hl userID rfl)
      rw [hdid]
      exact List.mem_append_left _ he
    · by_cases hc : call.logsIn = true
      · exact (AuthCall.known uc hc).after.mono fun _ _ hk _ => hk
      · exact Prog.All.after (Prog.All.of_forall (fun o _ hc' => absurd hc' hc) _)

end Since

/-! ### Logins about a deletion -/

def thirdUser : String := "33333333-3333-3333-3333-333333333333"

abbrev AnnsRun := List (AuthMoment plainAuth.text.fold) × Config (AuthWorld plainAuth.text.fold) AuthCall AuthOp AuthOp.Res AuthAnswer

/-- At a place of the run the user is deleted, and a login that has started later has returned tokens for someone. -/
def loggedIn (userID someone : String) (k i : ℕ) (x : AnnsRun) : Bool :=
  (match x.1[k]? with
    | some ⟨p, ⟨.deleteAccount id, _, _⟩, .sql (.deleteCredential id'), .ok _, _⟩ =>
      id == userID && id' == userID && decide (p.threads.length ≤ i)
    | _ => false) &&
  match x.2.threads[i]? with
    | some ⟨.oauthLogin _, _, .ret (.oauth res)⟩ => res.userID == someone
    | _ => false

theorem loggedIn_split {userID someone : String} {k i : ℕ} {x : AnnsRun} (h : loggedIn userID someone k i x = true) :
    ∃ d t, x.1 = x.1.take k ++ d :: x.1.drop (k + 1) ∧ Deletes userID d ∧ t ∈ x.2.threads.drop d.before.threads.length ∧
      t.call.logsIn = true ∧ Yields someone t := by
  unfold loggedIn at h
  rw [Bool.and_eq_true] at h
  obtain ⟨hdel, hlogin⟩ := h
  split at hdel
  · rename_i p id did rest id' u w hget
    simp only [Bool.and_eq_true, beq_iff_eq, decide_eq_true_eq] at hdel
    obtain ⟨⟨rfl, rfl⟩, hlen⟩ := hdel
    split at hlogin
    · rename_i inp did' res hthread
      rw [beq_iff_eq] at hlogin
      have hy : Yields someone ⟨.oauthLogin inp, did', .ret (.oauth res)⟩ :=
        ⟨.oauth res, res.tokens, rfl, rfl, .inl (congrArg some hlogin)⟩
      exact ⟨_, _, (take_cons_drop hget).1, ⟨rfl, rfl⟩, mem_drop_of_place hthread hlen, rfl, hy⟩
    · cases hlogin
  · cases hdel

/-- Ann registers, is deleted, and comes back as someone else. -/
def returnMoves : List (Move AuthCall AuthEnv) :=
  [.start (.register annsInput), .step 0 (authEnv firstUser "s1"), .step 0 (authEnv firstUser "s1"),
    .step 0 (authEnv secondUser "s1"),
    .start (.deleteAccount firstUser), .step 1 (authEnv secondUser "s1"), .step 1 (authEnv secondUser "s1"),
    .start (.oauthLogin annsLogin)] ++
    List.replicate 3 (.step 2 (authEnv secondUser "s1")) ++ List.replicate 4 (.step 2 (authEnv thirdUser "s1")) ++
    List.replicate 2 (.step 2 (authEnv thirdUser "s2"))

/-- From a place of the run on, nothing stores an account of the user. -/
def storesNone (userID : String) (k : ℕ) (x : AnnsRun) : Bool :=
  (x.1.drop k).all fun m =>
    match m.op with
    | .sql s => s.stores != some userID
    | _ => true

theorem not_stores_of_storesNone {userID : String} {k : ℕ} {x : AnnsRun} (h : storesNone userID k x = true) :
    ∀ m ∈ x.1.drop k, ¬ Stores userID m := by
  rintro m hm ⟨⟨s, ho, hs⟩, -⟩
  have hnot := List.all_eq_true.1 h m hm
  rw [ho] at hnot
  simp [hs] at hnot

theorem deletion_final_ann : ∃ tr₁ d tr₂ c t, (authSys plainAuth).Trace emptyAuth (tr₁ ++ d :: tr₂) c ∧ Deletes firstUser d ∧
    t ∈ c.threads.drop d.before.threads.length ∧ Yields secondUser t ∧ ¬ Yields firstUser t := by
  obtain ⟨tr, c, ht, hQ⟩ : ∃ tr c, (authSys plainAuth).Trace emptyAuth tr c ∧
      (loggedIn firstUser secondUser 4 2 (tr, c) && storesNone firstUser 5 (tr, c)) = true :=
    Sys.Trace.played_to (Q := fun x => loggedIn firstUser secondUser 4 2 x && storesNone firstUser 5 x)
      (fun _ _ => trivial) AuthOp.exec_of_step returnMoves (by decide +kernel)
  rw [Bool.and_eq_true] at hQ
  obtain ⟨d, t, htr, hd, hmem, hl, hy⟩ := loggedIn_split hQ.1
  have htr : tr = tr.take 4 ++ d :: tr.drop 5 := htr
  rw [htr] at ht
  exact ⟨_, d, _, c, t, ht, hd, hmem, hy, deletion_final ht hd (not_stores_of_storesNone hQ.2) t hmem hl⟩

/-- Ann's login has found her account when it is deleted, and links it to her identity. -/
def relinkMoves : List (Move AuthCall AuthEnv) :=
  [.start (.register annsInput), .step 0 (authEnv firstUser "s1"), .step 0 (authEnv firstUser "s1"),
    .step 0 (authEnv secondUser "s1"),
    .start (.oauthLogin annsLogin), .step 1 (authEnv secondUser "s1"), .step 1 (authEnv secondUser "s1"),
    .start (.deleteAccount firstUser), .step 2 (authEnv secondUser "s1"), .step 2 (authEnv secondUser "s1"),
    .step 1 (authEnv secondUser "s1"),
    .start (.oauthLogin annsLogin)] ++
    List.replicate 4 (.step 3 (authEnv secondUser "s1")) ++ List.replicate 2 (.step 3 (authEnv secondUser "s2"))

/-- A login that was under way when the account was deleted brings it back. -/
theorem deletion_undone : ¬ ∀ (uc : AuthUseCase) (w₀ : AuthWorld uc.text.fold)
    (tr₁ : List (AuthMoment uc.text.fold)) (d : AuthMoment uc.text.fold) (tr₂ : List (AuthMoment uc.text.fold))
    (c : Config (AuthWorld uc.text.fold) AuthCall AuthOp AuthOp.Res AuthAnswer) (userID : String), w₀.db.creds.rows = [] →
    (authSys uc).Trace w₀ (tr₁ ++ d :: tr₂) c → Deletes userID d →
    ∀ t ∈ c.threads.drop d.before.threads.length, t.call.logsIn = true → ¬ Yields userID t := by
  intro hall
  obtain ⟨tr, c, ht, hQ⟩ : ∃ tr c, (authSys plainAuth).Trace emptyAuth tr c ∧ loggedIn firstUser firstUser 6 3 (tr, c) = true :=
    Sys.Trace.played_to (fun _ _ => trivial) AuthOp.exec_of_step relinkMoves (by decide +kernel)
  obtain ⟨d, t, htr, hd, hmem, hl, hy⟩ := loggedIn_split hQ
  have htr : tr = tr.take 6 ++ d :: tr.drop 7 := htr
  rw [htr] at ht
  exact hall plainAuth emptyAuth _ d _ c firstUser rfl ht hd t hmem hl hy

end Agregator
