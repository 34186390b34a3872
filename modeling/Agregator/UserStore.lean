import Agregator.AuthStore
import Agregator.ConcSql
/-!
# UserStore — the users and the calls on them

The table of the user service, its statements, and `CreateUser`, `GetUser`, `UpdateUser` and `DeleteUser` over them.  A row
stays when its user is deleted; what it says of the person is erased.
-/
namespace Agregator

open Rel Conc

/-! ## The table -/

/-- A row of `users`. -/
structure UserRow where
  id : String
  email : String
  phone : Option String
  name : String
  role : String
  avatarURL : Option String
  bio : Option String
  createdAt : Time
  updatedAt : Time
  deletedAt : Option Time := none
deriving DecidableEq, Repr

def allowedRoles : List String := ["user", "venue_owner", "master", "admin"]

def isValidRole (role : String) : Bool := allowedRoles.contains role

/-- `fold` is `lower(trim(email))`. -/
def userSchema (fold : String → String) : Schema UserRow where
  check r := isUUID r.id && decide (r.email.length ≤ 255) && r.phone.all (decide <| ·.length ≤ 20) &&
    decide (r.name.length ≤ 255) && isValidRole r.role
  clash a b := a.id == b.id || fold a.email == fold b.email
  clash_comm a b := by
    rw [Bool.beq_comm (a := a.id), Bool.beq_comm (a := fold a.email)]

/-- `domain.User`. -/
structure User where
  id : String
  email : String
  phone : String
  name : String
  role : String
  avatarURL : String := ""
  bio : String := ""
  createdAt : Time := 0
  updatedAt : Time := 0
  deletedAt : Option Time := none
deriving DecidableEq, Repr

/-- An error of the database, by its `SQLState`, or one of the domain. -/
inductive UserErr where
  | notFound
  | invalidRole
  | pg (sqlState : String)
deriving DecidableEq, Repr

def UserErr.ofViolation : Violation → UserErr
  | .check => .pg "23514"
  | .unique => .pg "23505"

namespace UserRepo

variable {fold : String → String}

/-- `scanUser`: a column that is `NULL` reads as the empty text. -/
def scanUser (r : UserRow) : User where
  id := r.id
  email := r.email
  phone := r.phone.getD ""
  name := r.name
  role := r.role
  avatarURL := r.avatarURL.getD ""
  bio := r.bio.getD ""
  createdAt := r.createdAt
  updatedAt := r.updatedAt
  deletedAt := r.deletedAt

/-- The columns `Create` writes. -/
def row (user : User) : UserRow where
  id := user.id
  email := user.email
  phone := some user.phone
  name := user.name
  role := user.role
  avatarURL := some user.avatarURL
  bio := some user.bio
  createdAt := user.createdAt
  updatedAt := user.updatedAt

def create (user : User) (t : Table (userSchema fold)) : Except UserErr Unit × Table (userSchema fold) :=
  match t.insert (row user) with
  | .ok t' => (.ok (), t')
  | .error v => (.error (.ofViolation v), t)

def getByID (id : String) (t : Table (userSchema fold)) : Except UserErr User :=
  if isUUID id = false then .error (.pg "22P02")
  else
    match t.get (·.id == id) with
    | some r => .ok (scanUser r)
    | none => .error .notFound

def getByEmail (email : String) (t : Table (userSchema fold)) : Except UserErr User :=
  match t.get (fold ·.email == email) with
  | some r => .ok (scanUser r)
  | none => .error .notFound

/-- An `UPDATE`, which tells whether there was a row. -/
def updateRows (p : UserRow → Bool) (f : UserRow → UserRow) (t : Table (userSchema fold)) :
    Except UserErr Unit × Table (userSchema fold) :=
  match t.update p f with
  | .error v => (.error (.ofViolation v), t)
  | .ok t' => (if (t.get p).isSome then .ok () else .error .notFound, t')

/-- The columns `Update` writes. -/
def edited (user : User) (r : UserRow) : UserRow :=
  { r with
    name := user.name
    phone := some user.phone
    avatarURL := some user.avatarURL
    bio := some user.bio
    updatedAt := user.updatedAt }

def update (user : User) (t : Table (userSchema fold)) : Except UserErr Unit × Table (userSchema fold) :=
  if isUUID user.id = false then (.error (.pg "22P02"), t) else updateRows (·.id == user.id) (edited user) t

def tombstone (id : String) : String := "deleted+" ++ id ++ "@deleted.local"

def placeholderName : String := "Удалённый аккаунт"

/-- The columns `SoftDelete` writes. -/
def erased (now : Time) (r : UserRow) : UserRow :=
  { r with
    email := tombstone r.id
    name := placeholderName
    phone := none
    avatarURL := none
    bio := none
    deletedAt := some now
    updatedAt := now }

def softDelete (now : Time) (id : String) (t : Table (userSchema fold)) : Except UserErr Unit × Table (userSchema fold) :=
  if isUUID id = false then (.error (.pg "22P02"), t)
  else updateRows (fun r => r.id == id && r.deletedAt.isNone) (erased now) t

end UserRepo

/-! ## The statements -/

inductive UserSql where
  | create (user : User)
  | getByID (id : String)
  | getByEmail (email : String)
  | update (user : User)
  | softDelete (id : String)
deriving DecidableEq, Repr

@[reducible] def UserSql.Ans : UserSql → Type
  | getByID _ | getByEmail _ => User
  | _ => Unit

def UserSql.run {fold : String → String} (now : Time) : (s : UserSql) → Table (userSchema fold) →
    Except UserErr s.Ans × Table (userSchema fold)
  | create user, t => UserRepo.create user t
  | getByID id, t => (UserRepo.getByID id t, t)
  | getByEmail email, t => (UserRepo.getByEmail email t, t)
  | update user, t => UserRepo.update user t
  | softDelete id, t => UserRepo.softDelete now id t

def userRules (fold : String → String) : SqlRules UserErr (Table (userSchema fold)) UserSql.Ans := ⟨UserSql.run, isUUID⟩

abbrev UserOp := SqlOp UserSql

abbrev UserProg := Prog UserOp (SqlOp.Res UserErr UserSql.Ans)

abbrev UserSql.query (s : UserSql) : UserProg (Except UserErr s.Ans) := Prog.perform (SqlOp.sql s)

abbrev UserSql.now : UserProg Time := Prog.perform (SqlOp.now : UserOp)

/-! ## The calls -/

open UserSql (query)

namespace UserUseCase

def create (text : CaseRules) (user : User) : UserProg (Except UserErr User) := do
  let user := { user with email := text.normalize user.email, role := if user.role = "" then "user" else user.role }
  if isValidRole user.role = false then return .error .invalidRole
  else
    let now ← UserSql.now
    let user := { user with createdAt := now, updatedAt := now }
    match ← query (.create user) with
    | .error err => return .error err
    | .ok () => return .ok user

/-- The fields a request names. -/
structure Patch where
  name : Option String
  phone : Option String
  avatarURL : Option String
  bio : Option String
deriving DecidableEq, Repr

def Patch.apply (p : Patch) (user : User) : User :=
  { user with
    name := p.name.getD user.name
    phone := p.phone.getD user.phone
    avatarURL := p.avatarURL.getD user.avatarURL
    bio := p.bio.getD user.bio }

/-- The user is read, patched and written back. -/
def update (id : String) (p : Patch) : UserProg (Except UserErr User) := do
  match ← query (.getByID id) with
  | .error err => return .error err
  | .ok user =>
    let now ← UserSql.now
    let user := { p.apply user with updatedAt := now }
    match ← query (.update user) with
    | .error err => return .error err
    | .ok () => return .ok user

end UserUseCase

/-- `userv1.UserResponse`. -/
structure UserResponse where
  id : String
  email : String
  phone : String
  name : String
  role : String
  avatarURL : String
  bio : String
  createdAt : Time
  updatedAt : Time
deriving DecidableEq, Repr

def userToProto (u : User) : UserResponse :=
  ⟨u.id, u.email, u.phone, u.name, u.role, u.avatarURL, u.bio, u.createdAt, u.updatedAt⟩

namespace UserServer

def internalErrMsg : String := "internal error"

/-- The status of an error of a call on a user there is to be. -/
def errStatus : UserErr → Err
  | .notFound => .status .notFound "user not found"
  | _ => .status .internal internalErrMsg

def createUser (text : CaseRules) (id email phone name role : String) : UserProg (Except Err UserResponse) := do
  if id = "" then return .error (.status .invalidArgument "id is required")
  else if email = "" then return .error (.status .invalidArgument "email is required")
  else if name = "" then return .error (.status .invalidArgument "name is required")
  else
    match ← UserUseCase.create text { id := id, email := email, phone := phone, name := name, role := role } with
    | .error err =>
      if err = .invalidRole then return .error (.status .invalidArgument "недопустимая роль пользователя")
      else return .error (.status .internal internalErrMsg)
    | .ok user => return .ok (userToProto user)

def getUser (id : String) : UserProg (Except Err UserResponse) := do
  if id = "" then return .error (.status .invalidArgument "id is required")
  else
    match ← query (.getByID id) with
    | .error err => return .error (errStatus err)
    | .ok user => return .ok (userToProto user)

def getUserByEmail (text : CaseRules) (email : String) : UserProg (Except Err UserResponse) := do
  if email = "" then return .error (.status .invalidArgument "email is required")
  else
    match ← query (.getByEmail (text.normalize email)) with
    | .error err => return .error (errStatus err)
    | .ok user => return .ok (userToProto user)

def updateUser (id : String) (p : UserUseCase.Patch) : UserProg (Except Err UserResponse) := do
  if id = "" then return .error (.status .invalidArgument "id is required")
  else
    match ← UserUseCase.update id p with
    | .error err => return .error (errStatus err)
    | .ok user => return .ok (userToProto user)

def deleteUser (id : String) : UserProg (Except Err Unit) := do
  if id = "" then return .error (.status .invalidArgument "id is required")
  else
    match ← query (.softDelete id) with
    | .error err => return .error (errStatus err)
    | .ok () => return .ok ()

end UserServer

end Agregator
