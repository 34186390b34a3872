import Agregator.MasterProfile
import Agregator.AuthOAuth
/-!
# MasterModeration — the decisions of the moderators and the edits of a profile

The status of a profile changes by a submission, by an edit of a published profile, by a decision or by the deletion of the
account.  A decision looks at the status it replaces; an edit writes back what it has read.
-/
namespace Agregator

open Rel Conc

/-! ## The system -/

inductive ProfileCall where
  | updateMyProfile (userID : String) (inp : UpdateMasterInput)
  | submitForReview (userID : String)
  | moderate (masterID moderatorID action comment : String)
  | suspendByUser (userID : String)
deriving DecidableEq

inductive ProfileAnswer where
  | found (res : Except Err (Option MasterProfile))
  | moderated (res : Except Err MasterProfile)
  | suspended (res : Except Err Bool)

def ProfileCall.prog (R : ProfileRules) : ProfileCall → ProfileProg ProfileAnswer
  | updateMyProfile userID inp => return .found (← MasterUseCase.updateMyProfile R userID inp)
  | submitForReview userID => return .found (← MasterUseCase.submitForReview R userID)
  | moderate masterID moderatorID action comment =>
    return .moderated (← MasterUseCase.moderate R masterID moderatorID action comment)
  | suspendByUser userID => return .suspended (← MasterUseCase.suspendByUser userID)

abbrev ProfileWorld := SqlWorld ProfileTable

abbrev ProfileRes := SqlOp.Res ProfileErr ProfileSql.Ans

def profileSys (R : ProfileRules) : Sys ProfileWorld ProfileCall ProfileOp ProfileRes ProfileAnswer :=
  sqlSys profileRules (ProfileCall.prog R)

abbrev ProfileMoment := Moment ProfileWorld ProfileCall ProfileOp ProfileRes ProfileAnswer

abbrev ProfileThread := Thread ProfileCall ProfileOp ProfileRes ProfileAnswer

/-! ## The changes of a status -/

def statusOf (id : String) (t : ProfileTable) : Option String := (t.get (·.id == id)).map (·.status)

/-- What the moderators may make of a status. -/
inductive ModerateAllows : String → String → Prop
  | approve : ModerateAllows "pending_review" "active"
  | approveSuspended : ModerateAllows "suspended" "active"
  | requestRevision : ModerateAllows "pending_review" "needs_revision"
  | reviseSuspended : ModerateAllows "suspended" "needs_revision"
  | reject : ModerateAllows "pending_review" "rejected"
  | suspend : ModerateAllows "active" "suspended"

/-- What a statement may make of the status of a profile. -/
def ProfileSql.Allows (s : ProfileSql) (old new : String) : Prop :=
  match s with
  | submitForReviewAtomic _ => old ∈ ProfileRepo.submittable ∧ new = "pending_review"
  | updateProfile _ _ _ => old = "active" ∧ new = "pending_review"
  | moderateAtomic _ _ _ _ _ => ModerateAllows old new
  | suspendByUser _ => new = "suspended"
  | getByUserID _ | getByID _ => False

/-- A moment at which the status of a profile becomes another one. -/
structure ProfileMoment.Changes (m : ProfileMoment) (id old new : String) : Prop where
  before : statusOf id m.before.world.db = some old
  after : statusOf id m.after.db = some new
  other : old ≠ new

/-- The decision of a moderator, or the deletion of the account. -/
def ProfileSql.isDecision : ProfileSql → Bool
  | moderateAtomic _ _ _ _ _ | suspendByUser _ => true
  | _ => false

/-- A decision that makes the status of a profile this one. -/
def ProfileMoment.Decides (m : ProfileMoment) (id new : String) : Prop :=
  ∃ s old, m.op = .sql s ∧ s.isDecision = true ∧ m.Changes id old new

/-- At this moment the call has read the profile it is going to write. -/
def ProfileMoment.Loaded (m : ProfileMoment) (t : ProfileThread) : Prop :=
  ∃ t' ∈ m.before.threads, t'.call = t.call ∧ t'.did ≠ [] ∧ t'.did.head? = t.did.head?

def ProfileSql.isEdit : ProfileSql → Bool
  | updateProfile _ _ _ => true
  | _ => false

/-- **The decisions are kept**: every change of a status is one of those, and none is an edit that undoes a decision made after
it has read the profile. -/
def DecisionsKept (tr : List ProfileMoment) : Prop :=
  ∀ tr₁ m tr₂, tr = tr₁ ++ m :: tr₂ → ∀ id old new, ProfileMoment.Changes m id old new → ∃ s, m.op = .sql s ∧
    s.Allows old new ∧ (s.isEdit = true → ∀ m' ∈ tr₁, ProfileMoment.Decides m' id old → ¬ ProfileMoment.Loaded m' m.thread)

/-! ## The edit and its profile -/

/-- The profile a call has read first. -/
def loaded : List (Event ProfileOp ProfileRes) → Option MasterProfile
  | ⟨.sql (.getByUserID _), .ok (some r)⟩ :: _ => some r
  | _ => none

def editedStatus (status : String) : String := if status = "active" then "pending_review" else status

/-- The edit takes effect. -/
def ProfileMoment.Writes (m : ProfileMoment) : Prop :=
  ∃ p services credentials, m.op = .sql (.updateProfile p services credentials) ∧
    ProfileRepo.updateProfile m.before.world.clock p services credentials m.before.world.db = (.ok (), m.after.db)

/-- The profile still has the status the edit has read, with no approval since; or it was published then and is under review
now. -/
def ProfileMoment.Current (tr₁ : List ProfileMoment) (m : ProfileMoment) : Prop :=
  ∀ r, loaded m.thread.did = some r →
    statusOf r.id m.before.world.db = some r.status ∧
      (r.status = "active" → ∀ m' ∈ tr₁, ProfileMoment.Decides m' r.id "active" → ¬ ProfileMoment.Loaded m' m.thread) ∨
    r.status = "active" ∧ statusOf r.id m.before.world.db = some "pending_review"

namespace MasterUseCase

variable {R : ProfileRules} {inp : UpdateMasterInput} {m m' : MasterProfile}

theorem applyFields_same (h : applyFields R inp m = .ok m') : m'.id = m.id ∧ m'.status = m.status := by
  unfold applyFields at h
  obtain ⟨_, -, h⟩ := Except.of_bind h
  obtain ⟨_, -, h⟩ := Except.of_bind h
  obtain ⟨⟨_, _⟩, -, h⟩ := Except.of_bind h
  obtain ⟨_, -, h⟩ := Except.of_bind h
  obtain ⟨_, -, h⟩ := Except.of_bind h
  obtain ⟨_, -, h⟩ := Except.of_bind h
  obtain ⟨_, -, h⟩ := Except.of_bind h
  cases h
  exact ⟨rfl, rfl⟩

theorem resubmit_same (m : MasterProfile) : (resubmit m).id = m.id ∧ (resubmit m).status = editedStatus m.status := by
  unfold resubmit editedStatus
  by_cases h : m.status = "active"
  · rw [if_pos h, if_pos h]
    exact ⟨rfl, rfl⟩
  · rw [if_neg h, if_neg h]
    exact ⟨rfl, rfl⟩

theorem clearTravelFieldsForVenue_same (m : MasterProfile) :
    (clearTravelFieldsForVenue m).id = m.id ∧ (clearTravelFieldsForVenue m).status = m.status := by
  unfold clearTravelFieldsForVenue
  split <;> exact ⟨rfl, rfl⟩

/-- **An edit that passes its checks writes the status that was read**, or sends a published profile to the moderators. -/
theorem edit_same {credentials : Option (List MasterCredential)} (h : edit R inp m = .ok (m', credentials)) :
    m'.id = m.id ∧ m'.status = editedStatus m.status := by
  unfold edit at h
  obtain ⟨m₁, hfields, h⟩ := Except.of_bind h
  have key : m' = clearTravelFieldsForVenue (resubmit m₁) := by
    simp only [bind, Except.bind] at h
    repeat' split at h
    all_goals first | cases h; rfl | cases h
  obtain ⟨hid, hstatus⟩ := applyFields_same hfields
  obtain ⟨hid', hstatus'⟩ := resubmit_same m₁
  obtain ⟨hid'', hstatus''⟩ := clearTravelFieldsForVenue_same (resubmit m₁)
  rw [key, hid'', hid', hid, hstatus'', hstatus', hstatus]
  exact ⟨rfl, rfl⟩

/-! ### What a call has behind it -/

/-- What a call knows when it comes to an operation. -/
def Knows (h : List (Event ProfileOp ProfileRes)) : ProfileOp → Prop
  | .sql (.updateProfile p _ _) => ∃ r, loaded h = some r ∧ p.id = r.id ∧ p.status = editedStatus r.status
  | .sql (.moderateAtomic _ expected status _ _) => ModerateAllows expected status
  | _ => True

theorem newServices_knows (items : List MasterServiceUpsert) :
    ∀ h : List (Event ProfileOp ProfileRes), (newServices items).After Knows h := by
  induction items with
  | nil => exact fun _ => trivial
  | cons it items ih =>
    intro h
    refine ⟨trivial, fun id => ?_⟩
    exact Prog.After.bind (p := newServices items) (fun _ _ => by trivial) (ih _)

theorem replacedServices_knows (items : Option (List MasterServiceUpsert)) (h : List (Event ProfileOp ProfileRes)) :
    (replacedServices items).After Knows h := by
  cases items with
  | none => trivial
  | some items => exact Prog.After.bind (fun _ _ => by trivial) (newServices_knows items h)

theorem reread_knows (userID : String) (h : List (Event ProfileOp ProfileRes)) : (reread userID).After Knows h := by
  refine ⟨trivial, fun r => ?_⟩
  cases r <;> trivial

theorem loaded_of_prefix {userID : String} {r : MasterProfile} {h : List (Event ProfileOp ProfileRes)}
    (hh : [⟨.sql (.getByUserID userID), .ok (some r)⟩] <+: h) : loaded h = some r := by
  obtain ⟨h₂, rfl⟩ := hh
  rfl

theorem updateMyProfile_knows (R : ProfileRules) (userID : String) (inp : UpdateMasterInput) :
    (updateMyProfile R userID inp).After Knows [] := by
  refine ⟨trivial, fun r => ?_⟩
  cases r with
  | error err => trivial
  | ok found =>
    cases found with
    | none => trivial
    | some m =>
      cases hedit : edit R inp m with
      | error err =>
        simp only [Prog.bind_ret, hedit]
        trivial
      | ok res =>
        obtain ⟨p, credentials⟩ := res
        obtain ⟨hid, hstatus⟩ := edit_same hedit
        simp only [Prog.bind_ret, hedit]
        refine Prog.After.bind_grows (fun h services hh => ?_) (replacedServices_knows _ _)
        refine ⟨⟨m, loaded_of_prefix hh, hid, hstatus⟩, fun r => ?_⟩
        cases r with
        | error err => trivial
        | ok _ => exact reread_knows userID _

theorem submitForReview_knows (R : ProfileRules) (userID : String) : (submitForReview R userID).After Knows [] := by
  refine ⟨trivial, fun r => ?_⟩
  cases r with
  | error err => trivial
  | ok found =>
    cases found with
    | none => trivial
    | some m =>
      simp only [Prog.bind_ret]
      split
      · trivial
      split
      · trivial
      split
      · trivial
      refine ⟨trivial, fun r => ?_⟩
      cases r with
      | ok _ => exact reread_knows userID _
      | error err =>
        simp only [Prog.bind_ret]
        split
        · exact reread_knows userID _
        · trivial

/-- **An action leads where the moderators may go.** -/
theorem newStatus_allowed {action comment status : String} (h : newStatus m action comment = .ok status) :
    ModerateAllows m.status status := by
  unfold newStatus at h
  split at h
  · cases h
  split at h
  · split at h
    · cases h
    · rename_i hs
      split at h
      · cases h
      · cases h
        by_cases hp : m.status = "pending_review"
        · rw [hp]
          exact .approve
        · rw [not_and_not_right.1 hs hp]
          exact .approveSuspended
  split at h
  · split at h
    · cases h
    · rename_i hs
      cases h
      by_cases hp : m.status = "pending_review"
      · rw [hp]
        exact .requestRevision
      · rw [not_and_not_right.1 hs hp]
        exact .reviseSuspended
  split at h
  · split at h
    · cases h
    · rename_i hs
      cases h
      rw [not_not.1 hs]
      exact .reject
  split at h
  · split at h
    · cases h
    · rename_i hs
      cases h
      rw [not_not.1 hs]
      exact .suspend
  · cases h

theorem moderateAs_knows (masterID moderatorID action comment : String) :
    (moderateAs masterID moderatorID action comment).After Knows [] := by
  unfold moderateAs
  refine Prog.After.ite (by trivial) ⟨trivial, fun r => ?_⟩
  cases r with
  | error err => trivial
  | ok found =>
    cases found with
    | none => trivial
    | some m =>
      simp only [Prog.bind_ret]
      split
      · trivial
      · rename_i status hstatus
        refine ⟨newStatus_allowed hstatus, fun r => ?_⟩
        cases r with
        | error err => trivial
        | ok _ =>
          refine ⟨trivial, fun r => ?_⟩
          cases r with
          | error err => trivial
          | ok found => cases found <;> trivial

theorem suspendByUser_knows (userID : String) : (suspendByUser userID).After Knows [] := by
  refine ⟨trivial, fun r => ?_⟩
  cases r <;> trivial

end MasterUseCase

theorem ProfileCall.prog_knows (R : ProfileRules) (c : ProfileCall) : (c.prog R).After MasterUseCase.Knows [] := by
  cases c <;> simp only [ProfileCall.prog, Prog.bind_eq]
  case updateMyProfile userID inp =>
    exact Prog.After.bind (fun _ _ => by trivial) (MasterUseCase.updateMyProfile_knows R userID inp)
  case submitForReview userID =>
    exact Prog.After.bind (fun _ _ => by trivial) (MasterUseCase.submitForReview_knows R userID)
  case moderate masterID moderatorID action comment =>
    unfold MasterUseCase.moderate
    generalize trimSpace (R.text.lower action) = action
    generalize trimSpace comment = comment
    exact Prog.After.bind (fun _ _ => by trivial) (MasterUseCase.moderateAs_knows masterID moderatorID action comment)
  case suspendByUser userID =>
    exact Prog.After.bind (fun _ _ => by trivial) (MasterUseCase.suspendByUser_knows userID)

/-! ## What the statements do to a status -/

section Statements

variable {t t' : ProfileTable} {id : String} {now : Time}

/-- An update that leaves the identifiers alone changes the rows it is for, or fails. -/
theorem ProfileRepo.updateRows_get (p : MasterProfile → Bool) (f : MasterProfile → MasterProfile) (hf : ∀ r, (f r).id = r.id)
    (id : String) : (ProfileRepo.updateRows p f t).2 = t ∨
      (ProfileRepo.updateRows p f t).1 = .ok (t.get p).isSome ∧
        (ProfileRepo.updateRows p f t).2.get (·.id == id) = (t.get (·.id == id)).map fun r => if p r then f r else r := by
  unfold ProfileRepo.updateRows
  cases hu : t.update p f with
  | error v => exact .inl rfl
  | ok t' => exact .inr ⟨rfl, Table.get_update hu fun r => by rw [hf r]⟩

/-- A status that an update changes is that of a row it is for. -/
theorem ProfileRepo.updateRows_changes {p : MasterProfile → Bool} {f : MasterProfile → MasterProfile} (hf : ∀ r, (f r).id = r.id)
    {old new : String} (hb : statusOf id t = some old) (ha : statusOf id (ProfileRepo.updateRows p f t).2 = some new)
    (hne : old ≠ new) : ∃ r, t.get (·.id == id) = some r ∧ r.id = id ∧ r.status = old ∧ p r = true ∧ (f r).status = new ∧
      (ProfileRepo.updateRows p f t).1 = .ok (t.get p).isSome := by
  rcases ProfileRepo.updateRows_get (t := t) p f hf id with hu | ⟨hok, hu⟩
  · rw [hu, hb] at ha
    exact absurd (Option.some.inj ha) hne
  · unfold statusOf at ha hb
    rw [hu] at ha
    cases hg : t.get (·.id == id) with
    | none =>
      rw [hg] at hb
      cases hb
    | some r =>
      rw [hg] at ha hb
      obtain rfl := Option.some.inj hb
      have hnew := Option.some.inj ha
      by_cases hp : p r = true
      · simp only [hp, if_true] at hnew
        exact ⟨r, rfl, beq_iff_eq.1 (Table.get_mem hg).2, rfl, hp, hnew, hok⟩
      · simp only [hp] at hnew
        exact absurd hnew hne

theorem ProfileRepo.updateProfile_state (p : MasterProfile) (services : Option (List MasterService))
    (credentials : Option (List MasterCredential)) : (ProfileRepo.updateProfile now p services credentials t).2 =
      (ProfileRepo.updateRows (·.id == p.id) (ProfileRepo.written now p services credentials) t).2 := by
  unfold ProfileRepo.updateProfile
  split <;> rename_i h <;> rw [h]

theorem ProfileRepo.submitForReviewAtomic_state (i : String) : (ProfileRepo.submitForReviewAtomic now i t).2 =
    (ProfileRepo.updateRows (fun r => r.id == i && ProfileRepo.submittable.contains r.status) (ProfileRepo.submitted now) t).2 := by
  unfold ProfileRepo.submitForReviewAtomic
  split <;> rename_i h <;> rw [h]

/-- An edit takes effect if its row is there and passes the checks. -/
theorem ProfileRepo.updateProfile_ok {p : MasterProfile} {services : Option (List MasterService)}
    {credentials : Option (List MasterCredential)}
    (h : (ProfileRepo.updateRows (·.id == p.id) (ProfileRepo.written now p services credentials) t).1 = .ok true) :
    (ProfileRepo.updateProfile now p services credentials t).1 = .ok () := by
  unfold ProfileRepo.updateProfile
  split <;> rename_i hu
  · rw [hu] at h
    cases h
  · rw [hu] at h
    cases h
  · rfl

/-- A decision that changes a status has found the one it expects. -/
theorem ProfileRepo.moderateAtomic_changes {i expected status comment moderatorID old new : String} (hb : statusOf id t = some old)
    (ha : statusOf id (ProfileRepo.moderateAtomic now i expected status comment moderatorID t).2 = some new) (hne : old ≠ new) :
    expected = old ∧ status = new := by
  unfold ProfileRepo.moderateAtomic at ha
  cases hr : ProfileRepo.getByID i t with
  | none =>
    rw [hr, hb] at ha
    exact absurd (Option.some.inj ha) hne
  | some r =>
    simp only [hr] at ha
    by_cases hexp : r.status ≠ expected
    · rw [if_pos hexp, hb] at ha
      exact absurd (Option.some.inj ha) hne
    rw [if_neg hexp] at ha
    have ha : statusOf id (ProfileRepo.updateRows (·.id == i) (ProfileRepo.moderated now status comment moderatorID) t).2 =
        some new := by
      split at ha <;> rename_i h <;> rw [h] <;> exact ha
    obtain ⟨r', hget, hid, hold, hp, hnew, -⟩ :=
      ProfileRepo.updateRows_changes (f := ProfileRepo.moderated now status comment moderatorID) (fun _ => rfl) hb ha hne
    have hi : i = id := (beq_iff_eq.1 hp).symm.trans hid
    subst hi
    have hrr : r' = r := Option.some.inj (hget.symm.trans hr)
    subst hrr
    exact ⟨(not_not.1 hexp).symm.trans hold, hnew⟩

/-- What a statement that changes a status has made of it. -/
def ProfileSql.Made (s : ProfileSql) (now : Time) (t : ProfileTable) (id old new : String) : Prop :=
  match s with
  | submitForReviewAtomic _ => old ∈ ProfileRepo.submittable ∧ new = "pending_review"
  | updateProfile p services credentials =>
    p.id = id ∧ p.status = new ∧ (ProfileRepo.updateProfile now p services credentials t).1 = .ok ()
  | moderateAtomic _ expected status _ _ => expected = old ∧ status = new
  | suspendByUser _ => new = "suspended"
  | getByUserID _ | getByID _ => False

theorem ProfileSql.run_changes {s : ProfileSql} {old new : String} (hb : statusOf id t = some old)
    (ha : statusOf id (s.run now t).2 = some new) (hne : old ≠ new) : s.Made now t id old new := by
  cases s with
  | getByUserID userID | getByID i => exact hne (Option.some.inj (hb.symm.trans ha))
  | updateProfile p services credentials =>
    have ha := (congrArg (statusOf id) (ProfileRepo.updateProfile_state p services credentials)).symm.trans ha
    obtain ⟨r, hget, hid, -, hp, hnew, hok⟩ :=
      ProfileRepo.updateRows_changes (f := ProfileRepo.written now p services credentials) (fun _ => rfl) hb ha hne
    have hpid : p.id = id := (beq_iff_eq.1 hp).symm.trans hid
    refine ⟨hpid, hnew, ProfileRepo.updateProfile_ok ?_⟩
    rw [hok, hpid, hget, Option.isSome_some]
  | suspendByUser userID =>
    obtain ⟨r, -, -, -, -, hnew, -⟩ :=
      ProfileRepo.updateRows_changes (f := ProfileRepo.suspended now) (fun _ => rfl) hb ha hne
    exact hnew.symm
  | moderateAtomic i expected status comment moderatorID => exact ProfileRepo.moderateAtomic_changes hb ha hne
  | submitForReviewAtomic i =>
    have ha := (congrArg (statusOf id) (ProfileRepo.submitForReviewAtomic_state i)).symm.trans ha
    obtain ⟨r, -, -, hold, hp, hnew, -⟩ :=
      ProfileRepo.updateRows_changes (f := ProfileRepo.submitted now) (fun _ => rfl) hb ha hne
    simp only [Bool.and_eq_true, List.contains_iff_mem] at hp
    exact ⟨hold ▸ hp.2, hnew.symm⟩

/-- What an edit that takes effect has written. -/
theorem updateProfile_status {p : MasterProfile} {services : Option (List MasterService)}
    {credentials : Option (List MasterCredential)} (h : ProfileRepo.updateProfile now p services credentials t = (.ok (), t')) :
    (∃ old, statusOf p.id t = some old) ∧ statusOf p.id t' = some p.status := by
  unfold ProfileRepo.updateProfile ProfileRepo.updateRows at h
  cases hu : t.update (·.id == p.id) (ProfileRepo.written now p services credentials) with
  | error v =>
    rw [hu] at h
    cases h
  | ok t₁ =>
    cases hget : t.get (·.id == p.id) with
    | none =>
      simp only [hu, hget] at h
      cases h
    | some r =>
      simp only [hu, hget] at h
      cases h
      refine ⟨⟨r.status, by rw [statusOf, hget, Option.map_some]⟩, ?_⟩
      rw [statusOf, Table.get_update hu fun r => rfl, hget, Option.map_some, Option.map_some, if_pos (Table.get_mem hget).2]
      rfl

/-- A statement updates rows, or leaves them as they are. -/
theorem ProfileSql.run_state (s : ProfileSql) (now : Time) (t : ProfileTable) : (s.run now t).2 = t ∨
    ∃ p f, (∀ r : MasterProfile, (f r).id = r.id) ∧ (s.run now t).2 = (ProfileRepo.updateRows p f t).2 := by
  cases s with
  | getByUserID userID | getByID i => exact .inl rfl
  | updateProfile p services credentials =>
    exact .inr ⟨_, ProfileRepo.written now p services credentials, fun _ => rfl, ProfileRepo.updateProfile_state p services credentials⟩
  | suspendByUser userID => exact .inr ⟨_, ProfileRepo.suspended now, fun _ => rfl, rfl⟩
  | moderateAtomic i expected status comment moderatorID =>
    simp only [ProfileSql.run, ProfileRepo.moderateAtomic]
    split
    · exact .inl rfl
    · split
      · exact .inl rfl
      · refine .inr ⟨(·.id == i), ProfileRepo.moderated now status comment moderatorID, fun _ => rfl, ?_⟩
        split <;> rename_i h <;> rw [h]
  | submitForReviewAtomic i => exact .inr ⟨_, ProfileRepo.submitted now, fun _ => rfl, ProfileRepo.submitForReviewAtomic_state i⟩

/-- No statement makes a row that was not there. -/
theorem ProfileSql.run_there {s : ProfileSql} {new : String} (h : statusOf id (s.run now t).2 = some new) :
    ∃ old, statusOf id t = some old := by
  rcases ProfileSql.run_state s now t with hs | ⟨p, f, hf, hs⟩
  · exact ⟨new, by rwa [hs] at h⟩
  rw [hs] at h
  rcases ProfileRepo.updateRows_get (t := t) p f hf id with hu | ⟨-, hu⟩
  · exact ⟨new, by rwa [hu] at h⟩
  · unfold statusOf at h ⊢
    cases hg : t.get (·.id == id) with
    | none =>
      rw [hu, hg] at h
      cases h
    | some r => exact ⟨_, rfl⟩

end Statements

/-! ## Every run -/

section Runs

variable {R : ProfileRules} {w₀ : ProfileWorld} {tr tr₁ tr₂ : List ProfileMoment} {m : ProfileMoment}
  {c : Config ProfileWorld ProfileCall ProfileOp ProfileRes ProfileAnswer}

/-- A change of a status is that of a statement. -/
theorem ProfileMoment.Changes.made {id old new : String} (hc : ProfileMoment.Changes m id old new) (hm : m.Step (profileSys R)) :
    ∃ s, m.op = .sql s ∧ m.after.db = (s.run m.before.world.clock m.before.world.db).2 ∧
      s.Made m.before.world.clock m.before.world.db id old new := by
  rcases SqlOp.Exec.db hm.exec with hdb | ⟨s, hs, hdb⟩
  · have ha := hc.after
    rw [hdb, hc.before] at ha
    exact absurd (Option.some.inj ha) hc.other
  · refine ⟨s, hs, hdb, ProfileSql.run_changes hc.before ?_ hc.other⟩
    have ha := hc.after
    rw [hdb] at ha
    exact ha

/-- An edit writes no profile as published. -/
theorem editedStatus_ne (status : String) : editedStatus status ≠ "active" := by
  unfold editedStatus
  by_cases h : status = "active"
  · rw [if_pos h]
    decide
  · rwa [if_neg h]

/-- **A profile that is published was approved**, since any moment at which it was not. -/
theorem approved_since {d : ProfileMoment} (h : (profileSys R).Trace w₀ (tr₁ ++ d :: tr₂) c) {id : String}
    (hd : statusOf id d.after.db ≠ some "active") (hc : statusOf id c.world.db = some "active") :
    ∃ m ∈ tr₂, ProfileMoment.Decides m id "active" := by
  by_contra hnone
  push Not at hnone
  refine h.keeps_from (F := fun w => statusOf id w.db ≠ some "active") hd (fun m hm hstep hw ha => ?_) ?_ hc
  · have hknows := h.prior (fun c => ProfileCall.prog_knows R c) m (by simp [hm])
    obtain ⟨old, hold⟩ : ∃ old, statusOf id m.before.world.db = some old := by
      rcases SqlOp.Exec.db hstep.exec with hdb | ⟨s, -, hdb⟩
      · exact ⟨_, by rwa [hdb] at ha⟩
      · rw [hdb] at ha
        exact ProfileSql.run_there ha
    have hchange : ProfileMoment.Changes m id old "active" :=
      ⟨hold, ha, fun he => hw (by rw [hold, he])⟩
    obtain ⟨s, hs, -, hmade⟩ := hchange.made hstep
    rw [hs] at hknows
    cases s with
    | getByUserID userID | getByID i => exact hmade
    | updateProfile p services credentials =>
      obtain ⟨r, -, -, hstatus⟩ := hknows
      exact editedStatus_ne r.status (hstatus.symm.trans hmade.2.1)
    | submitForReviewAtomic i => exact absurd hmade.2 (by decide)
    | suspendByUser userID =>
      have hmade : "active" = "suspended" := hmade
      exact absurd hmade (by decide)
    | moderateAtomic i expected status comment moderatorID => exact hnone m hm ⟨_, old, hs, rfl, hchange⟩
  · rintro w w' ⟨later, -, rfl⟩ hw
    exact hw

/-- The calls know what they are about to do. -/
theorem knows_at (h : (profileSys R).Trace w₀ tr c) (hm : m ∈ tr) : MasterUseCase.Knows m.thread.did m.op :=
  h.prior (P := fun _ => MasterUseCase.Knows) (fun c => ProfileCall.prog_knows R c) m hm

/-- An edit that changes a status takes effect, and is that of a profile it has read. -/
theorem edit_writes (h : (profileSys R).Trace w₀ tr c) (hm : m ∈ tr) {p : MasterProfile} {services : Option (List MasterService)}
    {credentials : Option (List MasterCredential)} (hop : m.op = .sql (.updateProfile p services credentials)) :
    ∃ r, loaded m.thread.did = some r ∧ p.id = r.id ∧ p.status = editedStatus r.status := by
  have hk := knows_at h hm
  rw [hop] at hk
  exact hk

/-- What an edit that finds its profile as it was makes of a status. -/
theorem edit_allowed {old new : String} {r : MasterProfile} (hnew : editedStatus r.status = new) (hne : old ≠ new)
    (hcur : old = r.status ∨ r.status = "active" ∧ old = "pending_review") : old = "active" ∧ r.status = "active" ∧ new = "pending_review" := by
  by_cases ha : r.status = "active"
  · rw [editedStatus, if_pos ha] at hnew
    subst hnew
    rcases hcur with rfl | ⟨-, hold⟩
    · exact ⟨ha, ha, rfl⟩
    · exact absurd hold hne
  · rw [editedStatus, if_neg ha] at hnew
    rcases hcur with rfl | ⟨hact, -⟩
    · exact absurd hnew hne
    · exact absurd hact ha

/-- If the edits find their profiles as they were, the decisions are kept. -/
theorem kept_of_current (h : (profileSys R).Trace w₀ tr c)
    (hcur : ∀ tr₁ m tr₂, tr = tr₁ ++ m :: tr₂ → ProfileMoment.Writes m → ProfileMoment.Current tr₁ m) : DecisionsKept tr := by
  intro tr₁ m tr₂ htr id old new hchange
  have hm : m ∈ tr := by simp [htr]
  obtain ⟨s, hs, hdb, hmade⟩ := hchange.made (h.steps m hm)
  refine ⟨s, hs, ?_⟩
  have hknows := knows_at h hm
  rw [hs] at hknows
  cases s with
  | getByUserID userID | getByID i => exact False.elim hmade
  | submitForReviewAtomic i => exact ⟨hmade, nofun⟩
  | suspendByUser userID => exact ⟨hmade, nofun⟩
  | moderateAtomic i expected status comment moderatorID =>
    obtain ⟨rfl, rfl⟩ := hmade
    exact ⟨hknows, nofun⟩
  | updateProfile p services credentials =>
    obtain ⟨rfl, hnew, hok⟩ := hmade
    obtain ⟨r, hr, hid, hstatus⟩ := hknows
    have hwrites : ProfileMoment.Writes m := ⟨p, services, credentials, hs, Prod.ext hok hdb.symm⟩
    have hbefore := hchange.before
    rw [hid] at hbefore
    have hold : old = r.status ∧ (r.status = "active" → ∀ m' ∈ tr₁, ProfileMoment.Decides m' r.id "active" →
        ¬ ProfileMoment.Loaded m' m.thread) ∨ r.status = "active" ∧ old = "pending_review" := by
      have h := hcur tr₁ m tr₂ htr hwrites r hr
      rw [hbefore] at h
      exact h.imp (fun h => ⟨Option.some.inj h.1, h.2⟩) fun h => ⟨h.1, Option.some.inj h.2⟩
    obtain ⟨hact, hread, hpend⟩ := edit_allowed (hstatus.symm.trans hnew) hchange.other (hold.imp_left And.left)
    refine ⟨⟨hact, hpend⟩, fun _ m' hm' => ?_⟩
    rcases hold with ⟨-, hnone⟩ | ⟨-, hpending⟩
    · rw [hact, hid]
      exact hnone hread m' hm'
    · rw [hact] at hpending
      exact absurd hpending (by decide)

theorem loaded_eq {h : List (Event ProfileOp ProfileRes)} {r : MasterProfile} (hr : loaded h = some r) :
    ∃ userID h₂, h = ⟨.sql (.getByUserID userID), .ok (some r)⟩ :: h₂ := by
  unfold loaded at hr
  split at hr
  · obtain rfl := Option.some.inj hr
    exact ⟨_, _, rfl⟩
  · cases hr

/-- The row that a read has found. -/
theorem statusOf_read {t : ProfileTable} {userID : String} {r : MasterProfile} (h : ProfileRepo.getByUserID userID t = some r) :
    statusOf r.id t = some r.status := by
  have hget : t.get (·.id == r.id) = some r := by
    refine t.get_key (Table.get_mem h).1 (beq_self_eq_true r.id) fun x hx => ?_
    simp only [masterProfileSchema, hx, Bool.true_or]
  rw [statusOf, hget, Option.map_some]

/-- **A profile that was published after an edit had read it, was approved since.** -/
theorem approved_after_load (h : (profileSys R).Trace w₀ (tr₁ ++ m :: tr₂) c) {r : MasterProfile} (hr : loaded m.thread.did = some r)
    (hread : r.status ≠ "active") (hnow : statusOf r.id m.before.world.db = some "active") :
    ∃ m' ∈ tr₁, ProfileMoment.Decides m' r.id "active" ∧ ProfileMoment.Loaded m' m.thread := by
  obtain ⟨ts₁, ts₂, k, hts, -⟩ := (h.steps m (by simp)).thread
  obtain ⟨userID, h₂, hdid⟩ := loaded_eq hr
  have hb := h.before rfl
  obtain ⟨d, hd, hcall, hnil, hevent⟩ := hb.performed m.thread (by rw [hts]; simp) [] _ h₂ hdid
  obtain ⟨a, b, rfl⟩ := List.append_of_mem hd
  have hrun := hb.ran hd hevent
  obtain ⟨hfound, hsame⟩ := Prod.ext_iff.1 hrun
  have hsame : d.before.world.db = d.after.db := hsame
  have hstatus : statusOf r.id d.after.db = some r.status := by
    rw [← hsame]
    exact statusOf_read (Except.ok.inj hfound)
  obtain ⟨m', hm', hdec⟩ := approved_since hb (by rw [hstatus]; exact fun he => hread (Option.some.inj he)) hnow
  refine ⟨m', by simp [hm'], hdec, ?_⟩
  obtain ⟨b₁, b₂, rfl⟩ := List.append_of_mem hm'
  have hsplit : a ++ d :: (b₁ ++ m' :: b₂) = (a ++ d :: b₁) ++ m' :: b₂ := by simp
  have hb' := hb.before hsplit
  obtain ⟨t, ht, htcall, h₃, htdid⟩ := hb'.lasting d (by simp)
  refine ⟨t, ht, htcall.trans hcall, by simp [htdid], ?_⟩
  rw [htdid, hdid, hnil, hevent]
  rfl

/-- If the decisions are kept, the edits have found their profiles as they were. -/
theorem current_of_kept (h : (profileSys R).Trace w₀ (tr₁ ++ m :: tr₂) c) (hkept : DecisionsKept (tr₁ ++ m :: tr₂))
    (hw : ProfileMoment.Writes m) : ProfileMoment.Current tr₁ m := by
  obtain ⟨p, services, credentials, hop, hrun⟩ := hw
  intro r hr
  obtain ⟨r', hr', hid, hstatus⟩ := edit_writes h (by simp) hop
  obtain rfl : r' = r := Option.some.inj (hr'.symm.trans hr)
  obtain ⟨⟨old, hold⟩, hnew⟩ := updateProfile_status hrun
  rw [hid] at hold hnew
  by_cases hsame : old = p.status
  · by_cases hact : r'.status = "active"
    · right
      rw [hold, hsame, hstatus, editedStatus, if_pos hact]
      exact ⟨hact, rfl⟩
    · left
      rw [hold, hsame, hstatus, editedStatus, if_neg hact]
      exact ⟨rfl, fun he => absurd he hact⟩
  · obtain ⟨s, hs, hallow, hnone⟩ := hkept tr₁ m tr₂ rfl r'.id old p.status ⟨hold, hnew, hsame⟩
    obtain rfl : ProfileSql.updateProfile p services credentials = s := SqlOp.sql.inj (hop.symm.trans hs)
    obtain ⟨rfl, hpend⟩ : old = "active" ∧ p.status = "pending_review" := hallow
    by_cases hact : r'.status = "active"
    · left
      rw [hold, hact]
      exact ⟨rfl, fun _ m' hm' => hnone rfl m' hm'⟩
    · obtain ⟨m', hm', hdec, hload⟩ := approved_after_load h hr hact hold
      exact absurd hload (hnone rfl m' hm' hdec)

/-- **The decisions are kept in a run if and only if every edit that takes effect finds its profile as it was.** -/
theorem decisions_kept_iff (h : (profileSys R).Trace w₀ tr c) : DecisionsKept tr ↔
    ∀ tr₁ m tr₂, tr = tr₁ ++ m :: tr₂ → ProfileMoment.Writes m → ProfileMoment.Current tr₁ m := by
  constructor
  · rintro hkept tr₁ m tr₂ rfl hw
    exact current_of_kept h hkept hw
  · exact kept_of_current h

end Runs

/-! ## An edit that runs into the deletion of the account -/

def plainRules : ProfileRules := ⟨asciiRules, id, fun _ => true, fun _ _ _ _ => false⟩

def annsProfile : MasterProfile where
  id := "0d4b7c2a-5f1e-4b8c-9a6d-3e2f1c0b9a87"
  status := "draft"
  services := []
  hourlyRate := 0
  priceWeekend := 0
  payoutLegalForm := ""
  payoutLegalName := ""
  payoutINN := ""
  payoutKPP := ""
  payoutOGRN := ""
  payoutOGRNIP := ""
  userID := firstUser
  displayName := "Ann"
  bio := ""
  phone := ""
  city := ""
  workFormat := "venue"
  travelRadiusKm := 0
  travelBaseLatitude := none
  travelBaseLongitude := none
  travelExcludeZones := []
  experienceYears := 0
  specializations := []
  availabilityJSON := "{}"
  payoutBankName := ""
  payoutBIK := ""
  payoutSettlementAccount := ""
  payoutCorrespondentAccount := ""
  payoutVerificationStatus := "unverified"
  credentials := []
  moderationComment := ""
  moderatedBy := none
  moderatedAt := none
  updatedAt := 0

def profileTable (m : MasterProfile) (h : masterProfileSchema.check m = true) : ProfileTable :=
  ⟨[m], fun r hr => by rwa [List.mem_singleton.1 hr], by simp⟩

def annsProfiles : ProfileTable := profileTable annsProfile (by decide +kernel)

def annSuspended : ProfileTable := profileTable (ProfileRepo.suspended 0 annsProfile) (by decide +kernel)

theorem annsProfile_edited : MasterUseCase.edit plainRules {} annsProfile = .ok (annsProfile, none) := by decide +kernel

theorem annsProfile_read : profileRules.run 0 (.getByUserID firstUser) annsProfiles = (.ok (some annsProfile), annsProfiles) :=
  Prod.ext (congrArg Except.ok (show ProfileRepo.getByUserID firstUser annsProfiles = some annsProfile by decide +kernel)) rfl

theorem annsProfile_suspended : profileRules.run 0 (.suspendByUser firstUser) annsProfiles = (.ok true, annSuspended) :=
  show ProfileRepo.suspendByUser 0 firstUser annsProfiles = (.ok true, annSuspended) from
    Prod.ext (by decide +kernel) (Table.ext (by decide +kernel))

theorem annsProfile_written :
    profileRules.run 0 (.updateProfile annsProfile none none) annSuspended = (.ok (), annsProfiles) :=
  show ProfileRepo.updateProfile 0 annsProfile none none annSuspended = (.ok (), annsProfiles) from
    Prod.ext (by decide +kernel) (Table.ext (by decide +kernel))

/-- The edit reads, and the account is deleted. -/
theorem annSuspended_trace : ∃ d₁ d₂ h h' k k', (profileSys plainRules).Trace ⟨annsProfiles, 0, []⟩ [d₁, d₂]
    ⟨⟨annSuspended, 0, []⟩, [⟨.updateMyProfile firstUser {}, h, .call (.sql (.updateProfile annsProfile none none)) k⟩,
      ⟨.suspendByUser firstUser, h', k'⟩]⟩ ∧ d₁.op = .sql (.getByUserID firstUser) ∧ d₂.op = .sql (.suspendByUser firstUser) := by
  have h : (profileSys plainRules).Trace ⟨annsProfiles, 0, []⟩ [] ⟨⟨annsProfiles, 0, []⟩, []⟩ := .init
  have h := h.start (.updateMyProfile firstUser {}) trivial
  have h := h.perform _ [] [] _ (SqlOp.exec_of_run annsProfile_read)
  have h := h.start (.suspendByUser firstUser) trivial
  have h := h.perform _ [_] [] _ (SqlOp.exec_of_run annsProfile_suspended)
  simp only [Prog.bind_ret, annsProfile_edited] at h
  exact ⟨_, _, _, _, _, _, h, rfl, rfl⟩

theorem annsProfiles_statuses : statusOf annsProfile.id annsProfiles = some "draft" ∧
    statusOf annsProfile.id annSuspended = some "suspended" := by decide +kernel

theorem annSuspended_kept : ∃ tr c, (profileSys plainRules).Trace ⟨annsProfiles, 0, []⟩ tr c ∧ DecisionsKept tr ∧
    statusOf annsProfile.id c.world.db = some "suspended" := by
  obtain ⟨d₁, d₂, h, h', k, k', ht, h₁, h₂⟩ := annSuspended_trace
  refine ⟨_, _, ht, (decisions_kept_iff ht).2 ?_, annsProfiles_statuses.2⟩
  rintro tr₁ m tr₂ htr ⟨p, services, credentials, hop, -⟩
  have hm : m ∈ [d₁, d₂] := by simp [htr]
  rcases List.mem_pair.1 hm with rfl | rfl
  · rw [h₁] at hop
    cases hop
  · rw [h₂] at hop
    cases hop

theorem decisions_lost : ¬ ∀ (R : ProfileRules) (w₀ : ProfileWorld) (tr : List ProfileMoment)
    (c : Config ProfileWorld ProfileCall ProfileOp ProfileRes ProfileAnswer), (profileSys R).Trace w₀ tr c → DecisionsKept tr := by
  intro hall
  obtain ⟨d₁, d₂, h, h', k, k', ht, -⟩ := annSuspended_trace
  have ht := ht.perform _ [] [_] _ (SqlOp.exec_of_run annsProfile_written)
  have hkept := hall _ _ _ _ ht [d₁, d₂] _ [] rfl annsProfile.id "suspended" "draft"
    ⟨annsProfiles_statuses.2, annsProfiles_statuses.1, by decide⟩
  obtain ⟨s, hs, hallow, -⟩ := hkept
  obtain rfl := SqlOp.sql.inj hs
  exact absurd (show "suspended" = "active" from hallow.1) (by decide)

end Agregator
