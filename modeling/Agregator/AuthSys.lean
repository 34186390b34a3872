import Agregator.AuthUsecase
import Agregator.ConcPlay
/-!
# AuthSys — the auth service at work

Any number of its calls at once, over the tables, the clock and what has been drawn.  A statement may fail before or after
its effect; the identifiers that are drawn are new, and the secrets have hashes of their own.
-/
namespace Agregator

open Rel Conc

structure AuthWorld (fold : String → String) where
  db : AuthDB fold
  clock : Time
  issued : List String
  secrets : List String

/-- What the environment has in store for an operation. -/
structure AuthEnv where
  newID : String
  secret : Except Err String
  accessToken : Except Err String
  passwordHash : Except Err String
  createUser : Except Err Unit
  getUser : Except Err (String × String)
  mail : Except Err Unit
  fault : Fault StoreErr

namespace AuthOp

variable {fold : String → String}

/-- The user service keeps the identifier it is given. -/
def run (env : AuthEnv) : (o : AuthOp) → AuthWorld fold → o.Res × AuthWorld fold
  | sql s, w => env.fault.apply id (fun w => ((s.run w.clock w.db).1, { w with db := (s.run w.clock w.db).2 })) w
  | now, w => (w.clock, w)
  | newUUID, w => (env.newID, { w with issued := env.newID :: w.issued })
  | generateAccessToken _ _ _, w => (env.accessToken, w)
  | generateRefreshToken, w =>
    match env.secret with
    | .ok raw => (.ok raw, { w with secrets := raw :: w.secrets })
    | .error err => (.error err, w)
  | hashPassword _, w => (env.passwordHash, w)
  | createUser inp, w => (env.createUser.map fun _ => ⟨inp.id, inp.email, inp.role⟩, w)
  | getUser userID, w => (env.getUser.map fun user => ⟨userID, user.1, user.2⟩, w)
  | sendLink _ _ _, w => (env.mail, w)

/-- `hash` is the hash of a secret. -/
def Exec (hash : String → String) (o : AuthOp) (w : AuthWorld fold) (r : o.Res) (w' : AuthWorld fold) : Prop :=
  ∃ env : AuthEnv, isUUID env.newID = true ∧ env.newID ∉ w.issued ∧
    (∀ raw, env.secret = .ok raw → ∀ raw' ∈ w.secrets, hash raw ≠ hash raw') ∧ o.run env w = (r, w')

end AuthOp

/-- Time passes. -/
def AuthWorld.Passes {fold : String → String} (w w' : AuthWorld fold) : Prop :=
  ∃ later : Time, w.clock ≤ later ∧ w' = { w with clock := later }

inductive AuthCall where
  | register (inp : AuthUseCase.RegisterInput)
  | oauthLogin (inp : AuthUseCase.OAuthInput)
  | login (email password : String)
  | refreshToken (rawRefreshToken : String)
  | logout (rawRefreshToken : String)
  | deleteAccount (userID : String)
  | requestPasswordReset (email : String)
  | completePasswordReset (rawToken newPassword : String)
  | verifyEmail (rawToken : String)
  | resendVerification (email : String)
deriving DecidableEq

/-- What a call returns. -/
inductive AuthAnswer where
  | failed (err : Err)
  | done
  | account (res : AuthUseCase.AuthResult)
  | oauth (res : AuthUseCase.OAuthResult)
  | session (tokens : AuthUseCase.TokenPair)
deriving DecidableEq

def AuthAnswer.of {α : Type} (f : α → AuthAnswer) : Except Err α → AuthAnswer
  | .error err => failed err
  | .ok a => f a

def AuthCall.prog (uc : AuthUseCase) : AuthCall → AuthProg AuthAnswer
  | register inp => return .of .account (← uc.register inp)
  | oauthLogin inp => return .of .oauth (← uc.oauthLogin inp)
  | login email password => return .of .account (← uc.login email password)
  | refreshToken raw => return .of .session (← uc.refreshToken raw)
  | logout raw => return .of (fun _ => .done) (← uc.logout raw)
  | deleteAccount userID => return .of (fun _ => .done) (← AuthUseCase.deleteAccount userID)
  | requestPasswordReset email => return .of (fun _ => .done) (← uc.requestPasswordReset email)
  | completePasswordReset raw password => return .of (fun _ => .done) (← uc.completePasswordReset raw password)
  | verifyEmail raw => return .of (fun _ => .done) (← uc.verifyEmail raw)
  | resendVerification email => return .of (fun _ => .done) (← uc.resendVerification email)

def authSys (uc : AuthUseCase) : Sys (AuthWorld uc.text.fold) AuthCall AuthOp AuthOp.Res AuthAnswer where
  prog := AuthCall.prog uc
  ready _ _ := True
  exec := AuthOp.Exec uc.hashRefreshToken
  env := AuthWorld.Passes

abbrev AuthThread := Thread AuthCall AuthOp AuthOp.Res AuthAnswer

/-! ## What an operation leaves of the tables -/

variable {fold : String → String}

/-- An operation leaves the tables as they are, or does what its statement does. -/
theorem AuthOp.run_db (env : AuthEnv) (o : AuthOp) (w : AuthWorld fold) :
    (o.run env w).2.db = w.db ∨ ∃ s, o = .sql s ∧ (o.run env w).2.db = (s.run w.clock w.db).2 := by
  cases o with
  | sql s =>
    rcases env.fault.apply_state id
      (fun w : AuthWorld fold => ((s.run w.clock w.db).1, { w with db := (s.run w.clock w.db).2 })) w with h | h
    · exact .inl (congrArg AuthWorld.db h)
    · exact .inr ⟨s, rfl, (congrArg AuthWorld.db h).trans rfl⟩
  | generateRefreshToken =>
    refine .inl ?_
    unfold AuthOp.run
    split <;> rfl
  | now | newUUID | generateAccessToken | hashPassword | createUser | getUser | sendLink => exact .inl rfl

theorem AuthOp.Exec.db {hash : String → String} {o : AuthOp} {w w' : AuthWorld fold} {r : o.Res}
    (h : AuthOp.Exec hash o w r w') : w'.db = w.db ∨ ∃ s, o = .sql s ∧ w'.db = (s.run w.clock w.db).2 := by
  obtain ⟨env, -, -, -, he⟩ := h
  have hdb := AuthOp.run_db env o w
  rwa [he] at hdb

/-- A statement that succeeds has been run. -/
theorem AuthOp.Exec.ok {hash : String → String} {s : AuthSql} {w w' : AuthWorld fold} {a : s.Ans}
    (h : AuthOp.Exec hash (.sql s) w (.ok a) w') : s.run w.clock w.db = (.ok a, w'.db) := by
  obtain ⟨env, -, -, -, he⟩ := h
  have hrun := Fault.of_ok (show env.fault.apply id (fun w : AuthWorld fold => ((s.run w.clock w.db).1,
    { w with db := (s.run w.clock w.db).2 })) w = (.ok a, w') from he)
  obtain ⟨ha, rfl⟩ := Prod.mk.inj hrun
  exact Prod.ext ha rfl

/-! ## Schedules -/

/-- What is drawn is new. -/
def AuthEnv.draws (hash : String → String) (env : AuthEnv) (w : AuthWorld fold) : Bool :=
  isUUID env.newID && decide (env.newID ∉ w.issued) &&
    match env.secret with
    | .ok raw => w.secrets.all fun raw' => hash raw != hash raw'
    | .error _ => true

def AuthOp.step (hash : String → String) (env : AuthEnv) (o : AuthOp) (w : AuthWorld fold) : Option (o.Res × AuthWorld fold) :=
  if env.draws hash w then some (o.run env w) else none

theorem AuthOp.exec_of_step {hash : String → String} (env : AuthEnv) (o : AuthOp) (w : AuthWorld fold) (r : o.Res)
    (w' : AuthWorld fold) (h : AuthOp.step hash env o w = some (r, w')) : AuthOp.Exec hash o w r w' := by
  unfold AuthOp.step at h
  split at h
  · rename_i hd
    unfold AuthEnv.draws at hd
    simp only [Bool.and_eq_true, decide_eq_true_eq] at hd
    obtain ⟨⟨hid, hnew⟩, hsecret⟩ := hd
    refine ⟨env, hid, hnew, fun raw hraw raw' hmem => ?_, Option.some.inj h⟩
    rw [hraw] at hsecret
    simpa using List.all_eq_true.1 hsecret raw' hmem
  · cases h

end Agregator
