import Agregator.AuthStore
import Agregator.ConcSql
import Agregator.Gateway
import Agregator.MasterDomain
/-!
# CrmTeam — the people of a venue and their tasks

The tables of the CRM service but for its guests, with the part of `venues` it reads, and the statements on them.  Every
function here is one statement; a sentinel error of the repository is an answer without a row.  Who may do what at a venue is
told by a join, for one venue, for several at once and for all of a user.
-/
namespace Agregator

open Rel Conc

/-! ## Roles -/

inductive Access where
  | owner
  | manager
  | staff
deriving DecidableEq, Repr

/-- As the requests of the other services see it. -/
def Access.string : Access → String
  | owner => "owner"
  | manager => "manager"
  | staff => "staff"

def StaffRole.access : StaffRole → Access
  | manager => .manager
  | staff => .staff

inductive Capability where
  | viewCRM
  | manageStaff
  | manageAnyTask
deriving DecidableEq, Repr

/-- `Can`; who is not a member has no access. -/
def Access.can : Option Access → Capability → Bool
  | access, .viewCRM => access == some .owner || access == some .manager || access == some .staff
  | access, .manageStaff => access == some .owner
  | access, .manageAnyTask => access == some .owner || access == some .manager

/-! ## The tables -/

/-- What the CRM reads of a row of `venues`. -/
structure OwnedVenue where
  id : String
  ownerID : String
  createdAt : Time
deriving DecidableEq, Repr

structure StaffMember where
  venueID : String
  userID : String
  role : StaffRole
  invitedBy : String
  createdAt : Time
deriving DecidableEq, Repr

inductive TaskStatus where
  | open
  | done
  | cancelled
deriving DecidableEq, Repr

inductive TaskPriority where
  | low
  | normal
  | high
deriving DecidableEq, Repr

structure Task where
  id : String
  venueID : String
  bookingID : Option String
  title : String
  body : String
  status : TaskStatus
  priority : TaskPriority
  assigneeUserID : Option String
  dueAt : Option Time
  createdBy : String
  completedBy : Option String
  completedAt : Option Time
  createdAt : Time
  updatedAt : Time
deriving DecidableEq, Repr

/-- `OwnedBy`. -/
def Task.ownedBy (t : Task) (userID : String) : Bool := t.createdBy == userID || t.assigneeUserID == some userID

def ownedVenueSchema : Schema OwnedVenue where
  check v := isUUID v.id && isUUID v.ownerID
  clash a b := a.id == b.id
  clash_comm a b := by simp only [Bool.beq_comm]

def staffSchema : Schema StaffMember where
  check s := isUUID s.venueID && isUUID s.userID && isUUID s.invitedBy
  clash a b := a.venueID == b.venueID && a.userID == b.userID
  clash_comm a b := by simp only [Bool.beq_comm]

def taskSchema : Schema Task where
  check t := isUUID t.id && isUUID t.venueID && isUUID t.createdBy && t.bookingID.all isUUID && t.assigneeUserID.all isUUID &&
    t.completedBy.all isUUID
  clash a b := a.id == b.id
  clash_comm a b := by simp only [Bool.beq_comm]

structure TeamDB where
  venues : Table ownedVenueSchema
  staff : Table staffSchema
  tasks : Table taskSchema

def TeamDB.empty : TeamDB := ⟨.empty _, .empty _, .empty _⟩

def teamViolation (ctx : String) : Violation → Err
  | .check => (Err.plain "ERROR: invalid input value for its column (SQLSTATE 22P02)").wrap ctx
  | .unique => (Err.plain "ERROR: duplicate key value violates unique constraint (SQLSTATE 23505)").wrap ctx

/-- A row that refers to no venue. -/
def noVenue (ctx : String) : Err :=
  (Err.plain "ERROR: insert or update violates foreign key constraint (SQLSTATE 23503)").wrap ctx

def TeamDB.venue (db : TeamDB) (venueID : String) : Option OwnedVenue := db.venues.get (·.id == venueID)

def TeamDB.member (db : TeamDB) (venueID userID : String) : Option StaffMember :=
  db.staff.get fun s => s.venueID == venueID && s.userID == userID

def TeamDB.task (db : TeamDB) (taskID : String) : Option Task := db.tasks.get (·.id == taskID)

/-! ## What becomes of a task -/

/-- What an edit sets. -/
structure TaskContent where
  title : String
  body : String
  priority : TaskPriority
  assigneeUserID : Option String
  dueAt : Option Time
deriving DecidableEq, Repr

/-- The `UPDATE`s of a task. -/
inductive TaskChange where
  | update (content : TaskContent)
  | complete (completedBy : String)
  | reopen
  | cancel
deriving DecidableEq, Repr

namespace TaskChange

def name : TaskChange → String
  | update _ => "update task"
  | complete _ => "complete task"
  | reopen => "reopen task"
  | cancel => "cancel task"

/-- The statuses its `WHERE` lets through. -/
def takes : TaskChange → TaskStatus → Bool
  | update _, s => s != .cancelled
  | complete _, s => s == .open
  | reopen, s => s == .done
  | cancel, s => s != .cancelled

/-- Its `SET`. -/
def apply (now : Time) : TaskChange → Task → Task
  | update c, t => { t with
      title := c.title, body := c.body, priority := c.priority, assigneeUserID := c.assigneeUserID, dueAt := c.dueAt
      updatedAt := now }
  | complete completedBy, t => { t with
      status := .done, completedBy := some completedBy, completedAt := some now, updatedAt := now }
  | reopen, t => { t with status := .open, completedBy := none, completedAt := none, updatedAt := now }
  | cancel, t => { t with status := .cancelled, updatedAt := now }

end TaskChange

/-! ## Who may do what -/

namespace CrmRepo

/-- `venues v LEFT JOIN venue_staff vs ON vs.venue_id = v.id AND vs.user_id = $userID`. -/
def joined (userID : String) (db : TeamDB) : List (OwnedVenue × Option StaffMember) :=
  db.venues.rows.flatMap fun v =>
    match db.staff.select fun s => s.venueID == v.id && s.userID == userID with
    | [] => [(v, none)]
    | s :: more => (s :: more).map fun s => (v, some s)

/-- `CASE WHEN v.owner_id = $userID THEN 'owner' ELSE vs.role END`. -/
def accessOf (userID : String) (r : OwnedVenue × Option StaffMember) : Option Access :=
  if r.1.ownerID = userID then some .owner else r.2.map (·.role.access)

/-- `v.owner_id = $userID OR vs.user_id IS NOT NULL`. -/
def manages (userID : String) (r : OwnedVenue × Option StaffMember) : Bool := r.1.ownerID == userID || r.2.isSome

/-- No row is no access. -/
def getManagementAccess (venueID userID : String) (db : TeamDB) : Option Access :=
  ((joined userID db).find? fun r => r.1.id == venueID && manages userID r).bind (accessOf userID)

/-- The rows of a query, with the access of each. -/
def accessRows (userID : String) (rows : List (OwnedVenue × Option StaffMember)) : List (OwnedVenue × Access) :=
  rows.filterMap fun r => (accessOf userID r).map fun a => (r.1, a)

/-- The rows of `BatchGetManagementAccess`, in the order of the tables; the query asks for none. -/
def batchRows (userID : String) (venueIDs : List String) (db : TeamDB) : List (OwnedVenue × Access) :=
  accessRows userID ((joined userID db).filter fun r => venueIDs.contains r.1.id && manages userID r)

/-- The map the rows are read into. -/
def accessMap (rows : List (OwnedVenue × Access)) : String → Option Access :=
  rows.foldl (fun out r => fun id => if id = r.1.id then some r.2 else out id) fun _ => none

/-- Newest first; of venues made at one time the order is not told. -/
def listManagedVenues (userID : String) (db : TeamDB) : List (OwnedVenue × Access) :=
  (accessRows userID ((joined userID db).filter (manages userID))).mergeSort fun a b => decide (b.1.createdAt ≤ a.1.createdAt)

end CrmRepo

/-- The access of a user to a venue, by the tables. -/
def TeamDB.access (db : TeamDB) (venueID userID : String) : Option Access :=
  match db.venue venueID with
  | none => none
  | some v => if v.ownerID = userID then some .owner else (db.member venueID userID).map (·.role.access)

/-- The venues and their staff, as the gateway's handlers are answered from them. -/
def TeamDB.crm (db : TeamDB) : CRMDB where
  venues := db.venues.rows.map fun v => (v.id, v.ownerID)
  venueStaff := db.staff.rows.map fun s => (s.venueID, s.userID, s.role)

namespace CrmRepo

/-! ## Staff -/

/-- The `INSERT` of venue-service, of a venue with a new identifier. -/
def insertVenue (now : Time) (id ownerID : String) (db : TeamDB) : Except Err Unit × TeamDB :=
  match db.venues.insert ⟨id, ownerID, now⟩ with
  | .error v => (.error (teamViolation "insert venue" v), db)
  | .ok venues => (.ok (), { db with venues := venues })

def listStaff (venueID : String) (db : TeamDB) : List StaffMember :=
  (db.staff.select (·.venueID == venueID)).mergeSort fun a b => decide (a.createdAt ≤ b.createdAt)

/-- A member that there is keeps the time it has joined. -/
def addStaff (now : Time) (venueID userID : String) (role : StaffRole) (invitedBy : String) (db : TeamDB) :
    Except Err Unit × TeamDB :=
  match db.member venueID userID with
  | some _ =>
    match db.staff.update (fun s => s.venueID == venueID && s.userID == userID) fun s =>
        { s with role := role, invitedBy := invitedBy } with
    | .error v => (.error (teamViolation "add staff" v), db)
    | .ok staff => (.ok (), { db with staff := staff })
  | none =>
    match db.staff.insert ⟨venueID, userID, role, invitedBy, now⟩ with
    | .error v => (.error (teamViolation "add staff" v), db)
    | .ok staff => if (db.venue venueID).isSome then (.ok (), { db with staff := staff }) else (.error (noVenue "add staff"), db)

/-- Whether there was one to remove. -/
def removeStaff (venueID userID : String) (db : TeamDB) : Bool × TeamDB :=
  ((db.member venueID userID).isSome,
    { db with staff := db.staff.delete fun s => s.venueID == venueID && s.userID == userID })

/-! ## Tasks -/

/-- `ORDER BY (status = 'open') DESC, due_at ASC NULLS LAST, created_at DESC`. -/
def taskBefore (a b : Task) : Bool :=
  if (a.status == .open) != (b.status == .open) then a.status == .open
  else
    match a.dueAt, b.dueAt with
    | some d, some e => if d = e then decide (b.createdAt ≤ a.createdAt) else decide (d < e)
    | some _, none => true
    | none, some _ => false
    | none, none => decide (b.createdAt ≤ a.createdAt)

def listTasks (venueID : String) (status : Option TaskStatus) (db : TeamDB) : List Task :=
  (db.tasks.select fun t => t.venueID == venueID && status.all (· == t.status)).mergeSort taskBefore

def getTask (venueID taskID : String) (db : TeamDB) : Option Task :=
  db.tasks.get fun t => t.id == taskID && t.venueID == venueID

/-- A new row, as it is stored. -/
def createTask (now : Time) (t : Task) (db : TeamDB) : Except Err Task × TeamDB :=
  let row := { t with completedBy := none, completedAt := none, createdAt := now, updatedAt := now }
  match db.tasks.insert row with
  | .error v => (.error (teamViolation "create task" v), db)
  | .ok tasks =>
    if (db.venue t.venueID).isSome then (.ok row, { db with tasks := tasks }) else (.error (noVenue "create task"), db)

def changeTask (now : Time) (venueID taskID : String) (ch : TaskChange) (db : TeamDB) : Except Err (Option Task) × TeamDB :=
  let p (t : Task) := t.id == taskID && t.venueID == venueID && ch.takes t.status
  match db.tasks.update p (ch.apply now) with
  | .error v => (.error (teamViolation ch.name v), db)
  | .ok tasks => (.ok ((db.tasks.get p).map (ch.apply now)), { db with tasks := tasks })

end CrmRepo

/-! ## The statements -/

inductive TeamSql where
  | insertVenue (id ownerID : String)
  | venueOwnerID (venueID : String)
  | getManagementAccess (venueID userID : String)
  | batchGetManagementAccess (userID : String) (venueIDs : List String)
  | listManagedVenues (userID : String)
  | listStaff (venueID : String)
  | addStaff (venueID userID : String) (role : StaffRole) (invitedBy : String)
  | removeStaff (venueID userID : String)
  | listTasks (venueID : String) (status : Option TaskStatus)
  | getTask (venueID taskID : String)
  | createTask (t : Task)
  | changeTask (venueID taskID : String) (ch : TaskChange)
deriving DecidableEq

namespace TeamSql

@[reducible] def Ans : TeamSql → Type
  | insertVenue _ _ | addStaff _ _ _ _ => Unit
  | venueOwnerID _ => Option String
  | getManagementAccess _ _ => Option Access
  | batchGetManagementAccess _ _ => String → Option Access
  | listManagedVenues _ => List (OwnedVenue × Access)
  | listStaff _ => List StaffMember
  | removeStaff _ _ => Bool
  | listTasks _ _ => List Task
  | createTask _ => Task
  | getTask _ _ | changeTask _ _ _ => Option Task

def run (now : Time) : (s : TeamSql) → TeamDB → Except Err s.Ans × TeamDB
  | insertVenue id ownerID, db => CrmRepo.insertVenue now id ownerID db
  | venueOwnerID venueID, db => (.ok ((db.venue venueID).map (·.ownerID)), db)
  | getManagementAccess venueID userID, db => (.ok (CrmRepo.getManagementAccess venueID userID db), db)
  | batchGetManagementAccess userID venueIDs, db => (.ok (CrmRepo.accessMap (CrmRepo.batchRows userID venueIDs db)), db)
  | listManagedVenues userID, db => (.ok (CrmRepo.listManagedVenues userID db), db)
  | listStaff venueID, db => (.ok (CrmRepo.listStaff venueID db), db)
  | addStaff venueID userID role invitedBy, db => CrmRepo.addStaff now venueID userID role invitedBy db
  | removeStaff venueID userID, db => (.ok (CrmRepo.removeStaff venueID userID db).1, (CrmRepo.removeStaff venueID userID db).2)
  | listTasks venueID status, db => (.ok (CrmRepo.listTasks venueID status db), db)
  | getTask venueID taskID, db => (.ok (CrmRepo.getTask venueID taskID db), db)
  | createTask t, db => CrmRepo.createTask now t db
  | changeTask venueID taskID ch, db => CrmRepo.changeTask now venueID taskID ch db

end TeamSql

def teamRules : SqlRules Err TeamDB TeamSql.Ans := ⟨TeamSql.run, isUUID⟩

/-! ## The access, asked for in three ways -/

namespace CrmRepo

variable {db : TeamDB} {userID : String}

/-- A venue meets its member once. -/
theorem joined_eq (userID : String) (db : TeamDB) :
    joined userID db = db.venues.rows.map fun v => (v, db.member v.id userID) := by
  have hone : ∀ v : OwnedVenue, (db.staff.select fun s => s.venueID == v.id && s.userID == userID) =
      (db.member v.id userID).toList := by
    intro v
    refine db.staff.select_one fun a b ha hb => ?_
    simp only [Bool.and_eq_true, beq_iff_eq] at ha hb
    simp [staffSchema, ha, hb]
  unfold joined
  rw [← List.flatMap_singleton' (db.venues.rows.map _), List.flatMap_map]
  refine List.flatMap_congr fun v _ => ?_
  rw [hone v]
  cases db.member v.id userID with
  | none => rfl
  | some s => rfl

theorem accessOf_joined (v : OwnedVenue) :
    accessOf userID (v, db.member v.id userID) =
      if v.ownerID = userID then some .owner else (db.member v.id userID).map (·.role.access) := rfl

theorem getManagementAccess_eq (venueID userID : String) (db : TeamDB) :
    getManagementAccess venueID userID db = db.access venueID userID := by
  unfold getManagementAccess TeamDB.access TeamDB.venue
  rw [joined_eq, List.find?_map]
  have hone := db.venues.get_and (p := (·.id == venueID)) (q := fun v => manages userID (v, db.member v.id userID))
    fun a b ha hb => by simp_all [ownedVenueSchema]
  unfold Table.get at hone ⊢
  simp only [Function.comp_def, hone]
  cases hv : db.venues.rows.find? (·.id == venueID) with
  | none => rfl
  | some v =>
    obtain rfl : v.id = venueID := by simpa using List.find?_some hv
    by_cases howner : v.ownerID = userID
    · rw [Option.filter_some_pos (by simp [manages, howner])]
      rfl
    · cases hm : db.member v.id userID with
      | none =>
        rw [Option.filter_some_neg (by simp [manages, howner, hm])]
        simp [howner]
      | some s =>
        rw [Option.filter_some_pos (by simp [manages, hm])]
        simp [accessOf, howner, hm]

/-- The access is the one the gateway goes by. -/
theorem crm_managementAccess (venueID userID : String) (db : TeamDB) :
    db.crm.managementAccess venueID userID = ((getManagementAccess venueID userID db).map Access.string).getD "" := by
  rw [getManagementAccess_eq]
  unfold CRMDB.managementAccess TeamDB.access TeamDB.venue TeamDB.member TeamDB.crm Table.get
  simp only [List.find?_map, Function.comp_def]
  cases db.venues.rows.find? (·.id == venueID) with
  | none => rfl
  | some v =>
    by_cases howner : v.ownerID = userID
    · simp [howner, Access.string]
    · simp only [Option.map_some, howner, if_false]
      cases db.staff.rows.find? (fun s => s.venueID == venueID && s.userID == userID) with
      | none => rfl
      | some s => cases hr : s.role <;> simp [hr, StaffRole.string, StaffRole.access, Access.string]

/-- The rows of a query are venues with the access to each. -/
theorem mem_accessRows {p : OwnedVenue → Bool} {r : OwnedVenue × Access} :
    r ∈ accessRows userID ((joined userID db).filter fun x => p x.1 && manages userID x) ↔
      r.1 ∈ db.venues.rows ∧ p r.1 = true ∧ db.access r.1.id userID = some r.2 := by
  have haccess : ∀ v ∈ db.venues.rows, db.access v.id userID = accessOf userID (v, db.member v.id userID) := by
    intro v hv
    have hget : db.venue v.id = some v := db.venues.get_key hv (by simp) fun x hx => by simpa [ownedVenueSchema] using hx
    unfold TeamDB.access
    rw [hget, accessOf_joined]
  have hmanages : ∀ v : OwnedVenue, ∀ a, accessOf userID (v, db.member v.id userID) = some a →
      manages userID (v, db.member v.id userID) = true := by
    intro v a ha
    by_cases howner : v.ownerID = userID
    · simp [manages, howner]
    · rw [accessOf_joined, if_neg howner] at ha
      cases hm : db.member v.id userID with
      | none => simp [hm] at ha
      | some s => simp [manages]
  obtain ⟨v, a⟩ := r
  unfold accessRows
  rw [joined_eq, List.mem_filterMap]
  constructor
  · rintro ⟨x, hx, hr⟩
    obtain ⟨hx, hp⟩ := List.mem_filter.1 hx
    obtain ⟨v', hv, rfl⟩ := List.mem_map.1 hx
    obtain ⟨a', ha, heq⟩ := Option.map_eq_some_iff.1 hr
    obtain ⟨rfl, rfl⟩ := Prod.mk.inj heq
    exact ⟨hv, (Bool.and_eq_true_iff.1 hp).1, by rw [haccess _ hv, ha]⟩
  · rintro ⟨hv, hp, ha⟩
    rw [haccess _ hv] at ha
    refine ⟨(v, db.member v.id userID), List.mem_filter.2 ⟨List.mem_map_of_mem hv, ?_⟩, by rw [ha]; rfl⟩
    rw [Bool.and_eq_true_iff]
    exact ⟨hp, hmanages v a ha⟩

/-- No venue comes twice. -/
theorem accessRows_keys (p : OwnedVenue × Option StaffMember → Bool) :
    (accessRows userID ((joined userID db).filter p)).Pairwise fun a b => a.1.id ≠ b.1.id := by
  have hrows : (joined userID db).Pairwise fun a b => a.1.id ≠ b.1.id := by
    rw [joined_eq]
    exact List.pairwise_map.2 (db.venues.noClash.imp fun h => by simpa [ownedVenueSchema] using h)
  refine List.pairwise_filterMap.2 ((hrows.filter p).imp fun {x y} hxy a ha b hb => ?_)
  obtain ⟨-, -, rfl⟩ := Option.map_eq_some_iff.1 ha
  obtain ⟨-, -, rfl⟩ := Option.map_eq_some_iff.1 hb
  exact hxy

/-- What is read into the map, is in it. -/
theorem accessMap_eq_some {rows : List (OwnedVenue × Access)} (h : rows.Pairwise fun a b => a.1.id ≠ b.1.id) {id : String}
    {a : Access} : accessMap rows id = some a ↔ ∃ v, (v, a) ∈ rows ∧ v.id = id := by
  induction rows using List.reverseRecOn with
  | nil => simp [accessMap]
  | append_singleton rows r ih =>
    obtain ⟨hrows, -, hr⟩ := List.pairwise_append.1 h
    have hstep : accessMap (rows ++ [r]) id = if id = r.1.id then some r.2 else accessMap rows id := by
      unfold accessMap
      rw [List.foldl_append]
      rfl
    rw [hstep]
    by_cases hid : id = r.1.id
    · rw [if_pos hid, Option.some_inj]
      constructor
      · rintro rfl
        exact ⟨r.1, by simp, hid.symm⟩
      · rintro ⟨v, hv, hvid⟩
        rcases List.mem_append.1 hv with hv | hv
        · exact absurd (hvid.trans hid) (hr _ hv r (by simp))
        · rw [← List.mem_singleton.1 hv]
    · rw [if_neg hid, ih hrows]
      constructor
      · rintro ⟨v, hv, hvid⟩
        exact ⟨v, List.mem_append_left _ hv, hvid⟩
      · rintro ⟨v, hv, hvid⟩
        rcases List.mem_append.1 hv with hv | hv
        · exact ⟨v, hv, hvid⟩
        · rw [← List.mem_singleton.1 hv] at hid
          exact absurd hvid.symm hid

/-- **The three ways to ask for the access of a user agree**: one venue, several at once, in whatever order their rows come,
and all the user manages, which are listed newest first and once each. -/
theorem access_agrees (db : TeamDB) (userID : String) :
    (∀ venueIDs rows, rows.Perm (batchRows userID venueIDs db) → ∀ id,
      accessMap rows id = if id ∈ venueIDs then getManagementAccess id userID db else none) ∧
    (∀ v a, (v, a) ∈ listManagedVenues userID db ↔ v ∈ db.venues.rows ∧ getManagementAccess v.id userID db = some a) ∧
    (listManagedVenues userID db).Pairwise fun a b => b.1.createdAt ≤ a.1.createdAt ∧ a.1.id ≠ b.1.id := by
  have hvenue : ∀ id a, db.access id userID = some a → ∃ v ∈ db.venues.rows, v.id = id := by
    intro id a ha
    unfold TeamDB.access at ha
    cases hv : db.venue id with
    | none =>
      rw [hv] at ha
      cases ha
    | some v => exact ⟨v, (Table.get_mem hv).1, by simpa using (Table.get_mem hv).2⟩
  refine ⟨fun venueIDs rows hperm id => ?_, fun v a => ?_, ?_⟩
  · have hrow : ∀ r, r ∈ rows ↔ r.1 ∈ db.venues.rows ∧ venueIDs.contains r.1.id = true ∧ db.access r.1.id userID = some r.2 :=
      fun r => hperm.mem_iff.trans (mem_accessRows (p := fun v => venueIDs.contains v.id))
    have hmap : ∀ a, accessMap rows id = some a ↔ id ∈ venueIDs ∧ db.access id userID = some a := by
      intro a
      rw [accessMap_eq_some (((accessRows_keys _).perm hperm.symm) fun hab => hab.symm)]
      constructor
      · rintro ⟨v, hv, rfl⟩
        obtain ⟨-, hin, ha⟩ := (hrow _).1 hv
        exact ⟨by simpa using hin, ha⟩
      · rintro ⟨hin, ha⟩
        obtain ⟨v, hv, rfl⟩ := hvenue id a ha
        exact ⟨v, (hrow _).2 ⟨hv, by simpa using hin, ha⟩, rfl⟩
    refine Option.ext fun a => ?_
    rw [getManagementAccess_eq, hmap]
    by_cases hin : id ∈ venueIDs
    · simp [hin]
    · simp [hin]
  · have hall : (v, a) ∈ accessRows userID ((joined userID db).filter fun x => true && manages userID x) ↔ _ :=
      mem_accessRows (p := fun _ => true)
    simp only [Bool.true_and, true_and] at hall
    rw [getManagementAccess_eq]
    unfold listManagedVenues
    rw [List.mem_mergeSort]
    exact hall
  · refine List.Pairwise.and ?_ ?_
    · refine (List.pairwise_mergeSort (fun a b c hab hbc => ?_) (fun a b => ?_) _).imp (by simp)
      · simp only [decide_eq_true_eq] at hab hbc ⊢
        exact Int.le_trans hbc hab
      · simp only [Bool.or_eq_true, decide_eq_true_eq]
        exact Int.le_total _ _
    · exact ((accessRows_keys _).perm (List.mergeSort_perm _ _).symm) fun hab => hab.symm

end CrmRepo

end Agregator
