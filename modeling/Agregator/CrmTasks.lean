import Agregator.CrmTeam
/-!
# CrmTasks — the calls on the staff and the tasks of a venue

The use cases as programs over their statements, each of which sees what the others have left.  A venue is made by
venue-service; who owns it does not change.
-/
namespace Agregator

open Conc CrmRepo

abbrev TeamOp := SqlOp TeamSql

abbrev TeamRes : TeamOp → Type := SqlOp.Res Err TeamSql.Ans

abbrev TeamProg := Prog TeamOp TeamRes

abbrev TeamHistory := List (Event TeamOp TeamRes)

abbrev TeamSql.perform (s : TeamSql) : TeamProg (Except Err s.Ans) := Prog.perform (SqlOp.sql s)

inductive TeamReply where
  | done
  | venue (id : String)
  | access (access : Option Access)
  | accessMap (access : String → Option Access)
  | managed (venues : List (OwnedVenue × Access))
  | staff (members : List StaffMember)
  | tasks (tasks : List Task)
  | task (t : Task)

abbrev TeamAnswer := Except Err TeamReply

def maxTaskTitleRunes : ℕ := 200

def maxTaskBodyRunes : ℕ := 4000

namespace TeamUseCase

/-! ## The checks of a text -/

/-- The title and the body, trimmed. -/
def validateTaskContent (title body : String) : Except Err (String × String) :=
  let title := trimSpace title
  if title = "" then .error (.status .invalidArgument "укажите заголовок задачи")
  else if maxTaskTitleRunes < title.length then .error (.status .invalidArgument "заголовок слишком длинный")
  else
    let body := trimSpace body
    if maxTaskBodyRunes < body.length then .error (.status .invalidArgument "описание слишком длинное")
    else .ok (title, body)

def normalizePriority (p : String) : Option TaskPriority :=
  let p := toLower (trimSpace p)
  if p = "" then some .normal
  else if p = "low" then some .low
  else if p = "normal" then some .normal
  else if p = "high" then some .high
  else none

def parseRole (role : String) : Option StaffRole :=
  let role := trimSpace (toLower role)
  if role = "manager" then some .manager else if role = "staff" then some .staff else none

/-- The filter of a listing; an empty text is no filter. -/
def parseTaskStatus (status : String) : Option (Option TaskStatus) :=
  let status := trimSpace (toLower status)
  if status = "" then some none
  else if status = "open" then some (some .open)
  else if status = "done" then some (some .done)
  else if status = "cancelled" then some (some .cancelled)
  else none

/-- The content of a task, checked; what is wrong with it first. -/
def checkContent (title body priority : String) (assignee : Option String) (dueAt : Option Time) : Except Err TaskContent :=
  match validateTaskContent title body with
  | .error err => .error err
  | .ok (title, body) =>
    match normalizePriority priority with
    | none => .error (.status .invalidArgument "приоритет должен быть low, normal или high")
    | some prio => .ok ⟨title, body, prio, assignee, dueAt⟩

/-! ## The checks of the actor -/

def memberAccess (venueID userID : String) (next : Access → TeamProg TeamAnswer) : TeamProg TeamAnswer := do
  match ← (TeamSql.getManagementAccess venueID userID).perform with
  | .error err => return .error err
  | .ok none => return .error (.status .permissionDenied "нет доступа к управлению заведением")
  | .ok (some access) => next access

def ensureCanManageTasks (venueID actorID : String) (next : TeamProg TeamAnswer) : TeamProg TeamAnswer := do
  match ← (TeamSql.getManagementAccess venueID actorID).perform with
  | .error err => return .error err
  | .ok access =>
    if Access.can access .manageAnyTask then next
    else return .error (.status .permissionDenied "недостаточно прав для изменения задачи")

/-- An assignee who is not the actor is a member too. -/
def validateAssignee (venueID actorID : String) (assignee : Option String) (next : TeamProg TeamAnswer) : TeamProg TeamAnswer :=
  match assignee with
  | none => next
  | some userID =>
    if userID = actorID then next
    else do
      match ← (TeamSql.getManagementAccess venueID userID).perform with
      | .error err => return .error err
      | .ok none => return .error (.status .invalidArgument "исполнитель не входит в персонал заведения")
      | .ok (some _) => next

def ensureOwner (venueID actorID : String) (next : String → TeamProg TeamAnswer) : TeamProg TeamAnswer := do
  match ← (TeamSql.venueOwnerID venueID).perform with
  | .error err => return .error err
  | .ok none => return .error (.status .notFound "заведение не найдено")
  | .ok (some owner) =>
    if owner ≠ actorID then return .error (.status .permissionDenied "только владелец может управлять персоналом")
    else next owner

/-! ## Staff -/

def listStaff (venueID actorID : String) : TeamProg TeamAnswer :=
  memberAccess venueID actorID fun _ => do
    match ← (TeamSql.listStaff venueID).perform with
    | .error err => return .error err
    | .ok members => return .ok (.staff members)

def addStaff (venueID actorID targetUserID role : String) : TeamProg TeamAnswer :=
  ensureOwner venueID actorID fun owner =>
    if targetUserID = owner then return .error (.status .invalidArgument "владелец не может быть в списке персонала")
    else
      match parseRole role with
      | none => return .error (.status .invalidArgument "роль должна быть manager или staff")
      | some role => do
        match ← (TeamSql.addStaff venueID targetUserID role actorID).perform with
        | .error err => return .error err
        | .ok () => return .ok .done

def removeStaff (venueID actorID targetUserID : String) : TeamProg TeamAnswer :=
  ensureOwner venueID actorID fun owner =>
    if targetUserID = owner then return .error (.status .invalidArgument "нельзя удалить владельца")
    else do
      match ← (TeamSql.removeStaff venueID targetUserID).perform with
      | .error err => return .error err
      | .ok false => return .error (.status .notFound "сотрудник не найден")
      | .ok true => return .ok .done

/-! ## Tasks -/

def listTasks (venueID actorID status : String) : TeamProg TeamAnswer :=
  memberAccess venueID actorID fun _ =>
    match parseTaskStatus status with
    | none => return .error (.status .invalidArgument "неверный статус задачи")
    | some status => do
      match ← (TeamSql.listTasks venueID status).perform with
      | .error err => return .error err
      | .ok tasks => return .ok (.tasks tasks)

/-- A new task; the database gives it its identifier. -/
def TaskContent.newTask (c : TaskContent) (id venueID actorID : String) (bookingID : Option String) : Task where
  id := id
  venueID := venueID
  bookingID := bookingID
  title := c.title
  body := c.body
  status := .open
  priority := c.priority
  assigneeUserID := c.assigneeUserID
  dueAt := c.dueAt
  createdBy := actorID
  completedBy := none
  completedAt := none
  createdAt := 0
  updatedAt := 0

def createTask (venueID actorID title body : String) (bookingID assignee : Option String) (priority : String)
    (dueAt : Option Time) : TeamProg TeamAnswer :=
  memberAccess venueID actorID fun _ =>
    match checkContent title body priority assignee dueAt with
    | .error err => return .error err
    | .ok content =>
      validateAssignee venueID actorID assignee do
        let id ← Prog.perform .fresh
        match ← (TeamSql.createTask (TaskContent.newTask content id venueID actorID bookingID)).perform with
        | .error err => return .error err
        | .ok t => return .ok (.task t)

/-- An `UPDATE` of a task, and what is said when it has met none. -/
def changeTask (venueID taskID : String) (ch : TaskChange) (notFound : String) (reply : Task → TeamReply) : TeamProg TeamAnswer := do
  match ← (TeamSql.changeTask venueID taskID ch).perform with
  | .error err => return .error err
  | .ok none => return .error (.status .notFound notFound)
  | .ok (some t) => return .ok (reply t)

def updateTask (venueID actorID taskID title body : String) (assignee : Option String) (priority : String)
    (dueAt : Option Time) : TeamProg TeamAnswer :=
  ensureCanManageTasks venueID actorID
    (match checkContent title body priority assignee dueAt with
    | .error err => return .error err
    | .ok content =>
      validateAssignee venueID actorID assignee (changeTask venueID taskID (.update content) "задача не найдена" .task))

/-- Who may not close any task, may close its own. -/
def completeTask (venueID actorID taskID : String) : TeamProg TeamAnswer :=
  let complete := changeTask venueID taskID (.complete actorID) "задача не найдена или уже закрыта" fun _ => .done
  memberAccess venueID actorID fun access =>
    if Access.can (some access) .manageAnyTask then complete
    else do
      match ← (TeamSql.getTask venueID taskID).perform with
      | .error err => return .error err
      | .ok none => return .error (.status .notFound "задача не найдена")
      | .ok (some t) =>
        if t.ownedBy actorID then complete
        else return .error (.status .permissionDenied "можно закрывать только свои задачи")

def reopenTask (venueID actorID taskID : String) : TeamProg TeamAnswer :=
  ensureCanManageTasks venueID actorID (changeTask venueID taskID .reopen "задача не найдена или не закрыта" .task)

def cancelTask (venueID actorID taskID : String) : TeamProg TeamAnswer :=
  ensureCanManageTasks venueID actorID (changeTask venueID taskID .cancel "задача не найдена" fun _ => .done)

/-! ## Reads -/

def getManagementAccess (venueID userID : String) : TeamProg TeamAnswer := do
  match ← (TeamSql.getManagementAccess venueID userID).perform with
  | .error err => return .error err
  | .ok access => return .ok (.access access)

/-- No venues are not asked for. -/
def batchGetManagementAccess (userID : String) (venueIDs : List String) : TeamProg TeamAnswer :=
  if venueIDs = [] then return .ok (.accessMap fun _ => none)
  else do
    match ← (TeamSql.batchGetManagementAccess userID venueIDs).perform with
    | .error err => return .error err
    | .ok out => return .ok (.accessMap out)

def listManagedVenues (userID : String) : TeamProg TeamAnswer := do
  match ← (TeamSql.listManagedVenues userID).perform with
  | .error err => return .error err
  | .ok venues => return .ok (.managed venues)

end TeamUseCase

/-- A new venue, of venue-service. -/
def createTeamVenue (ownerID : String) : TeamProg TeamAnswer := do
  let id ← Prog.perform .fresh
  match ← (TeamSql.insertVenue id ownerID).perform with
  | .error err => return .error err
  | .ok () => return .ok (.venue id)

/-! ## Calls -/

inductive TeamCall where
  | createVenue (ownerID : String)
  | getManagementAccess (venueID userID : String)
  | batchGetManagementAccess (userID : String) (venueIDs : List String)
  | listManagedVenues (userID : String)
  | listStaff (venueID actorID : String)
  | addStaff (venueID actorID targetUserID role : String)
  | removeStaff (venueID actorID targetUserID : String)
  | listTasks (venueID actorID status : String)
  | createTask (venueID actorID title body : String) (bookingID assignee : Option String) (priority : String)
      (dueAt : Option Time)
  | updateTask (venueID actorID taskID title body : String) (assignee : Option String) (priority : String)
      (dueAt : Option Time)
  | completeTask (venueID actorID taskID : String)
  | reopenTask (venueID actorID taskID : String)
  | cancelTask (venueID actorID taskID : String)
deriving DecidableEq

namespace TeamCall

def prog : TeamCall → TeamProg TeamAnswer
  | createVenue ownerID => createTeamVenue ownerID
  | getManagementAccess venueID userID => TeamUseCase.getManagementAccess venueID userID
  | batchGetManagementAccess userID venueIDs => TeamUseCase.batchGetManagementAccess userID venueIDs
  | listManagedVenues userID => TeamUseCase.listManagedVenues userID
  | listStaff venueID actorID => TeamUseCase.listStaff venueID actorID
  | addStaff venueID actorID targetUserID role => TeamUseCase.addStaff venueID actorID targetUserID role
  | removeStaff venueID actorID targetUserID => TeamUseCase.removeStaff venueID actorID targetUserID
  | listTasks venueID actorID status => TeamUseCase.listTasks venueID actorID status
  | createTask venueID actorID title body bookingID assignee priority dueAt =>
    TeamUseCase.createTask venueID actorID title body bookingID assignee priority dueAt
  | updateTask venueID actorID taskID title body assignee priority dueAt =>
    TeamUseCase.updateTask venueID actorID taskID title body assignee priority dueAt
  | completeTask venueID actorID taskID => TeamUseCase.completeTask venueID actorID taskID
  | reopenTask venueID actorID taskID => TeamUseCase.reopenTask venueID actorID taskID
  | cancelTask venueID actorID taskID => TeamUseCase.cancelTask venueID actorID taskID

/-- The venue a call is about, and who makes it. -/
def scope : TeamCall → Option (String × String)
  | listStaff venueID actorID | addStaff venueID actorID _ _ | removeStaff venueID actorID _ | listTasks venueID actorID _
  | createTask venueID actorID _ _ _ _ _ _ | updateTask venueID actorID _ _ _ _ _ _ | completeTask venueID actorID _
  | reopenTask venueID actorID _ | cancelTask venueID actorID _ => some (venueID, actorID)
  | _ => none

end TeamCall

abbrev TeamWorld := SqlWorld TeamDB

def teamSys : Sys TeamWorld TeamCall TeamOp TeamRes TeamAnswer := sqlSys teamRules TeamCall.prog

abbrev TeamMoment := Moment TeamWorld TeamCall TeamOp TeamRes TeamAnswer

/-! ## What a call has behind it -/

/-- A text that has been checked: trimmed, with a title, and not too long. -/
structure WellWritten (title body : String) : Prop where
  titled : title ≠ ""
  title_trim : trimSpace title = title
  title_length : title.length ≤ maxTaskTitleRunes
  body_trim : trimSpace body = body
  body_length : body.length ≤ maxTaskBodyRunes

/-- What a change sets, as its call may set it. -/
def TaskChange.Fits (actorID : String) : TaskChange → Prop
  | .update c => WellWritten c.title c.body
  | .complete completedBy => completedBy = actorID
  | .reopen | .cancel => True

/-- The access of a user has been read. -/
def AccessRead (h : TeamHistory) (venueID userID : String) (access : Option Access) : Prop :=
  ⟨.sql (.getManagementAccess venueID userID), .ok access⟩ ∈ h

/-- The owner of a venue has been read. -/
def OwnerRead (h : TeamHistory) (venueID ownerID : String) : Prop := ⟨.sql (.venueOwnerID venueID), .ok (some ownerID)⟩ ∈ h

/-- A task has been read that is the user's own. -/
def OwnTaskRead (h : TeamHistory) (venueID taskID userID : String) : Prop :=
  ∃ t : Task, ⟨.sql (.getTask venueID taskID), .ok (some t)⟩ ∈ h ∧ t.ownedBy userID = true

/-- **What a call has behind it before it writes.** -/
def TeamCall.Entitled (call : TeamCall) (h : TeamHistory) : TeamOp → Prop
  | .sql (.addStaff venueID userID _ invitedBy) =>
    call.scope = some (venueID, invitedBy) ∧ userID ≠ invitedBy ∧ OwnerRead h venueID invitedBy
  | .sql (.removeStaff venueID userID) =>
    ∃ actorID, call.scope = some (venueID, actorID) ∧ userID ≠ actorID ∧ OwnerRead h venueID actorID
  | .sql (.createTask t) =>
    call.scope = some (t.venueID, t.createdBy) ∧ t.status = .open ∧ WellWritten t.title t.body ∧
      ∃ access, AccessRead h t.venueID t.createdBy (some access)
  | .sql (.changeTask venueID taskID ch) =>
    ∃ actorID, call.scope = some (venueID, actorID) ∧ ch.Fits actorID ∧
      ∃ access, AccessRead h venueID actorID (some access) ∧
        (Access.can (some access) .manageAnyTask = true ∨ (ch = .complete actorID ∧ OwnTaskRead h venueID taskID actorID))
  | _ => True

namespace TeamUseCase

variable {call : TeamCall} {h : TeamHistory} {venueID actorID taskID : String}

theorem checkContent_ok {title body priority : String} {assignee : Option String} {dueAt : Option Time} {c : TaskContent}
    (hc : checkContent title body priority assignee dueAt = .ok c) : WellWritten c.title c.body := by
  unfold checkContent validateTaskContent at hc
  dsimp only at hc
  by_cases htitle : trimSpace title = ""
  · rw [if_pos htitle] at hc
    cases hc
  rw [if_neg htitle] at hc
  by_cases hlong : maxTaskTitleRunes < (trimSpace title).length
  · rw [if_pos hlong] at hc
    cases hc
  rw [if_neg hlong] at hc
  by_cases hbody : maxTaskBodyRunes < (trimSpace body).length
  · rw [if_pos hbody] at hc
    cases hc
  rw [if_neg hbody] at hc
  cases hprio : normalizePriority priority with
  | none =>
    rw [hprio] at hc
    cases hc
  | some prio =>
    rw [hprio] at hc
    cases hc
    exact ⟨htitle, trimSpace_trimSpace _, Nat.not_lt.1 hlong, trimSpace_trimSpace _, Nat.not_lt.1 hbody⟩

theorem memberAccess_after {next : Access → TeamProg TeamAnswer}
    (hnext : ∀ access h', h <+: h' → AccessRead h' venueID actorID (some access) → (next access).After call.Entitled h') :
    (memberAccess venueID actorID next).After call.Entitled h := by
  refine ⟨trivial, ?_⟩
  rintro (err | (_ | access))
  · trivial
  · trivial
  · exact hnext access _ (List.prefix_append _ _) (List.mem_append_right _ (List.mem_singleton.2 rfl))

theorem ensureCanManageTasks_after {next : TeamProg TeamAnswer}
    (hnext : ∀ access h', h <+: h' → AccessRead h' venueID actorID (some access) →
      Access.can (some access) .manageAnyTask = true → next.After call.Entitled h') :
    (ensureCanManageTasks venueID actorID next).After call.Entitled h := by
  refine ⟨trivial, ?_⟩
  rintro (err | access)
  · trivial
  · dsimp only [Prog.bind_ret]
    by_cases hcan : Access.can access .manageAnyTask = true
    · rw [if_pos hcan]
      cases access with
      | none => cases hcan
      | some access => exact hnext access _ (List.prefix_append _ _) (List.mem_append_right _ (List.mem_singleton.2 rfl)) hcan
    · rw [if_neg hcan]
      trivial

theorem validateAssignee_after {assignee : Option String} {next : TeamProg TeamAnswer}
    (hnext : ∀ h', h <+: h' → next.After call.Entitled h') :
    (validateAssignee venueID actorID assignee next).After call.Entitled h := by
  cases assignee with
  | none => exact hnext h List.prefix_rfl
  | some userID =>
    unfold validateAssignee
    dsimp only
    by_cases huser : userID = actorID
    · rw [if_pos huser]
      exact hnext h List.prefix_rfl
    · rw [if_neg huser]
      refine ⟨trivial, ?_⟩
      rintro (err | (_ | access))
      · trivial
      · trivial
      · exact hnext _ (List.prefix_append _ _)

theorem ensureOwner_after {next : String → TeamProg TeamAnswer}
    (hnext : ∀ h', OwnerRead h' venueID actorID → (next actorID).After call.Entitled h') :
    (ensureOwner venueID actorID next).After call.Entitled h := by
  refine ⟨trivial, ?_⟩
  rintro (err | (_ | owner))
  · trivial
  · trivial
  · dsimp only [Prog.bind_ret]
    by_cases howner : owner = actorID
    · rw [if_neg (not_not_intro howner), howner]
      exact hnext _ (List.mem_append_right _ (List.mem_singleton.2 rfl))
    · rw [if_pos howner]
      trivial

/-- A statement with which a call ends. -/
theorem last_after {s : TeamSql} {k : Except Err s.Ans → TeamProg TeamAnswer} (hs : call.Entitled h (.sql s))
    (hk : ∀ r, ∃ a, k r = .ret a) : ((TeamSql.perform s).bind k).After call.Entitled h := by
  refine ⟨hs, fun r => ?_⟩
  obtain ⟨a, ha⟩ := hk r
  dsimp only [Prog.bind_ret]
  rw [ha]
  trivial

theorem changeTask_after {ch : TaskChange} {notFound : String} {reply : Task → TeamReply}
    (hs : call.Entitled h (.sql (.changeTask venueID taskID ch))) :
    (changeTask venueID taskID ch notFound reply).After call.Entitled h := by
  refine last_after hs ?_
  rintro (err | (_ | t)) <;> exact ⟨_, rfl⟩

end TeamUseCase

open TeamUseCase

/-- **A call writes only what it is entitled to.** -/
theorem TeamCall.prog_after (call : TeamCall) : call.prog.After call.Entitled [] := by
  cases call with
  | createVenue ownerID =>
    refine ⟨trivial, fun id => last_after trivial ?_⟩
    rintro (err | _) <;> exact ⟨_, rfl⟩
  | getManagementAccess venueID userID =>
    refine last_after trivial ?_
    rintro (err | access) <;> exact ⟨_, rfl⟩
  | batchGetManagementAccess userID venueIDs =>
    refine Prog.After.ite trivial (last_after trivial ?_)
    rintro (err | out) <;> exact ⟨_, rfl⟩
  | listManagedVenues userID =>
    refine last_after trivial ?_
    rintro (err | venues) <;> exact ⟨_, rfl⟩
  | listStaff venueID actorID =>
    refine memberAccess_after fun access h' _ _ => last_after trivial ?_
    rintro (err | members) <;> exact ⟨_, rfl⟩
  | addStaff venueID actorID targetUserID role =>
    refine ensureOwner_after fun h' howner => ?_
    by_cases htarget : targetUserID = actorID
    · rw [if_pos htarget]
      trivial
    · rw [if_neg htarget]
      cases hrole : parseRole role with
      | none => trivial
      | some role =>
        refine last_after ⟨rfl, htarget, howner⟩ ?_
        rintro (err | _) <;> exact ⟨_, rfl⟩
  | removeStaff venueID actorID targetUserID =>
    refine ensureOwner_after fun h' howner => ?_
    by_cases htarget : targetUserID = actorID
    · rw [if_pos htarget]
      trivial
    · rw [if_neg htarget]
      refine last_after ⟨actorID, rfl, htarget, howner⟩ ?_
      rintro (err | (_ | _)) <;> exact ⟨_, rfl⟩
  | listTasks venueID actorID status =>
    refine memberAccess_after fun access h' _ _ => ?_
    cases hstatus : parseTaskStatus status with
    | none => trivial
    | some status =>
      refine last_after trivial ?_
      rintro (err | tasks) <;> exact ⟨_, rfl⟩
  | createTask venueID actorID title body bookingID assignee priority dueAt =>
    refine memberAccess_after fun access h' _ haccess => ?_
    cases hc : checkContent title body priority assignee dueAt with
    | error err => trivial
    | ok c =>
      refine validateAssignee_after fun h'' hh => ⟨trivial, fun id => last_after ⟨rfl, rfl, checkContent_ok hc, access, ?_⟩ ?_⟩
      · exact List.mem_append_left _ (hh.subset haccess)
      · rintro (err | t) <;> exact ⟨_, rfl⟩
  | updateTask venueID actorID taskID title body assignee priority dueAt =>
    refine ensureCanManageTasks_after fun access h' _ haccess hcan => ?_
    cases hc : checkContent title body priority assignee dueAt with
    | error err => trivial
    | ok c =>
      exact validateAssignee_after fun h'' hh =>
        changeTask_after ⟨actorID, rfl, checkContent_ok hc, access, hh.subset haccess, .inl hcan⟩
  | completeTask venueID actorID taskID =>
    refine memberAccess_after fun access h' _ haccess => ?_
    by_cases hcan : Access.can (some access) .manageAnyTask = true
    · rw [if_pos hcan]
      exact changeTask_after ⟨actorID, rfl, rfl, access, haccess, .inl hcan⟩
    · rw [if_neg hcan]
      refine ⟨trivial, ?_⟩
      rintro (err | (_ | t))
      · trivial
      · trivial
      · dsimp only [Prog.bind_ret]
        by_cases hown : t.ownedBy actorID = true
        · rw [if_pos hown]
          exact changeTask_after ⟨actorID, rfl, rfl, access, List.mem_append_left _ haccess,
            .inr ⟨rfl, t, List.mem_append_right _ (List.mem_singleton.2 rfl), hown⟩⟩
        · rw [if_neg hown]
          trivial
  | reopenTask venueID actorID taskID =>
    exact ensureCanManageTasks_after fun access h' _ haccess hcan =>
      changeTask_after ⟨actorID, rfl, trivial, access, haccess, .inl hcan⟩
  | cancelTask venueID actorID taskID =>
    exact ensureCanManageTasks_after fun access h' _ haccess hcan =>
      changeTask_after ⟨actorID, rfl, trivial, access, haccess, .inl hcan⟩

end Agregator
