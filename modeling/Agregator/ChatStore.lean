import Mathlib.Data.List.Sort
import Agregator.AuthStore
import Agregator.ConcSql
import Agregator.MasterDomain
/-!
# ChatStore — the threads of a chat, their messages and the calls on them

The tables of the chat service, its statements, and `EnsureThread`, `SendMessage` and `MarkRead` over them.  A statement here
is a transaction, with the triggers it fires; `now()` is the time it begins.  The event that tells of a message changes nothing
here and is left out.
-/
namespace Agregator

open Rel Conc

/-! ## The tables -/

/-- A row of `chat_threads`. -/
structure ThreadRow where
  id : String
  kind : String
  refID : String
  lastMessageID : Option String := none
  lastMessageAt : Option Time := none
  createdAt : Time
  updatedAt : Time
deriving DecidableEq, Repr

/-- A row of `chat_messages`, and `domain.Message`. -/
structure ChatMessage where
  id : String
  threadID : String
  authorUserID : String
  text : String
  clientMsgID : String
  createdAt : Time
deriving DecidableEq, Repr

/-- A row of `chat_thread_participants`. -/
structure ParticipantRow where
  threadID : String
  userID : String
  role : String := "participant"
  joinedAt : Time
  leftAt : Option Time := none
  unreadCount : ℕ := 0
deriving DecidableEq, Repr

/-- A row of `chat_reads`. -/
structure ReadRow where
  threadID : String
  userID : String
  lastReadAt : Option Time
  lastReadMessageID : Option String
deriving DecidableEq, Repr

def threadSchema : Schema ThreadRow where
  check _ := true
  clash a b := a.id == b.id || (a.kind == b.kind && a.refID == b.refID)
  clash_comm a b := by
    rw [Bool.beq_comm (a := a.id), Bool.beq_comm (a := a.kind), Bool.beq_comm (a := a.refID)]

/-- A text column takes every character but one. -/
def isText (s : String) : Bool := s.toList.all (· != Char.ofNat 0)

def messageSchema : Schema ChatMessage where
  check r := isText r.text && isText r.clientMsgID
  clash a b := a.id == b.id || (a.threadID == b.threadID && a.authorUserID == b.authorUserID &&
    a.clientMsgID == b.clientMsgID && a.clientMsgID != "")
  clash_comm a b := by
    by_cases h : a.clientMsgID = b.clientMsgID
    · rw [h, Bool.beq_comm (a := a.id), Bool.beq_comm (a := a.threadID), Bool.beq_comm (a := a.authorUserID)]
    · simp [Bool.beq_comm (a := a.id), beq_eq_false_iff_ne.2 h, beq_eq_false_iff_ne.2 (Ne.symm h)]

/-- `INT`. -/
def maxInt : ℕ := 2147483647

def participantSchema : Schema ParticipantRow where
  check r := decide (r.unreadCount ≤ maxInt)
  clash a b := a.threadID == b.threadID && a.userID == b.userID
  clash_comm a b := by
    rw [Bool.beq_comm (a := a.threadID), Bool.beq_comm (a := a.userID)]

def readSchema : Schema ReadRow where
  check _ := true
  clash a b := a.threadID == b.threadID && a.userID == b.userID
  clash_comm a b := by
    rw [Bool.beq_comm (a := a.threadID), Bool.beq_comm (a := a.userID)]

structure ChatDB where
  threads : Table threadSchema
  messages : Table messageSchema
  participants : Table participantSchema
  reads : Table readSchema

def emptyChat : ChatDB := ⟨.empty _, .empty _, .empty _, .empty _⟩

/-- An error of the database, by its `SQLState`. -/
def pgErr (sqlState : String) : Err := .plain ("ERROR: (SQLSTATE " ++ sqlState ++ ")")

def chatErr : Violation → Err
  | .check => pgErr "22P05"
  | .unique => pgErr "23505"

/-! ## The statements -/

structure ParticipantRead where
  userID : String
  lastReadMessageID : Option String
deriving DecidableEq, Repr

/-- `domain.Thread`. -/
structure ChatThread where
  id : String
  kind : String
  refID : String
  participantUserIDs : List String := []
  lastMessageID : Option String
  lastMessageAt : Option Time
  participantReads : List ParticipantRead := []
  createdAt : Time
  updatedAt : Time
deriving DecidableEq, Repr

def ThreadRow.toThread (r : ThreadRow) : ChatThread where
  id := r.id
  kind := r.kind
  refID := r.refID
  lastMessageID := r.lastMessageID
  lastMessageAt := r.lastMessageAt
  createdAt := r.createdAt
  updatedAt := r.updatedAt

namespace ChatRepo

/-- The active participants; of those that joined at one time the order is not told. -/
def listParticipantsByThreadID (threadID : String) (db : ChatDB) : List String :=
  ((db.participants.select fun r => r.threadID == threadID && r.leftAt.isNone).insertionSort (·.joinedAt ≤ ·.joinedAt)).map (·.userID)

def loadParticipantReads (threadID : String) (db : ChatDB) : List ParticipantRead :=
  ((db.reads.select (·.threadID == threadID)).insertionSort (·.userID ≤ ·.userID)).map fun r => ⟨r.userID, r.lastReadMessageID⟩

def threadRow (id : String) (db : ChatDB) : Option ThreadRow := db.threads.get (·.id == id)

/-- The thread of a reference, or a new one. -/
def upsertThread (now : Time) (id kind refID : String) (db : ChatDB) : Except Err (ThreadRow × ChatDB) :=
  match db.threads.get (fun r => r.kind == kind && r.refID == refID) with
  | some r =>
    match db.threads.update (fun x => x.kind == kind && x.refID == refID) fun x => { x with updatedAt := now } with
    | .error v => .error (chatErr v)
    | .ok threads => .ok ({ r with updatedAt := now }, { db with threads := threads })
  | none =>
    let r : ThreadRow := { id := id, kind := kind, refID := refID, createdAt := now, updatedAt := now }
    match db.threads.insert r with
    | .error v => .error (chatErr v)
    | .ok threads => .ok (r, { db with threads := threads })

def upsertParticipant (now : Time) (threadID userID : String) (db : ChatDB) : Except Err ChatDB :=
  let key : ParticipantRow → Bool := fun r => r.threadID == threadID && r.userID == userID
  match db.participants.get key with
  | some _ =>
    match db.participants.update key fun r => { r with leftAt := none } with
    | .error v => .error (chatErr v)
    | .ok participants => .ok { db with participants := participants }
  | none =>
    match db.participants.insert { threadID := threadID, userID := userID, joinedAt := now } with
    | .error v => .error (chatErr v)
    | .ok participants => .ok { db with participants := participants }

def upsertParticipants (now : Time) (threadID : String) : List String → ChatDB → Except Err ChatDB
  | [], db => .ok db
  | uid :: uids, db =>
    if trimSpace uid = "" then upsertParticipants now threadID uids db
    else
      match upsertParticipant now threadID (trimSpace uid) db with
      | .error err => .error err
      | .ok db => upsertParticipants now threadID uids db

/-- The transaction of `EnsureThread`. -/
def ensureThread (now : Time) (id kind refID : String) (participantUserIDs : List String) (db : ChatDB) :
    Except Err ThreadRow × ChatDB :=
  match upsertThread now id kind refID db with
  | .error err => (.error err, db)
  | .ok (r, db') =>
    match upsertParticipants now r.id participantUserIDs db' with
    | .error err => (.error err, db)
    | .ok db'' => (.ok r, db'')

/-- `fn_increment_unread`. -/
def incrementUnread (new : ChatMessage) (db : ChatDB) : Except Err ChatDB :=
  match db.participants.update (fun r => r.threadID == new.threadID && r.userID != new.authorUserID && r.leftAt.isNone)
    fun r => { r with unreadCount := r.unreadCount + 1 } with
  | .error _ => .error (pgErr "22003")
  | .ok participants => .ok { db with participants := participants }

/-- `fn_reset_unread`. -/
def resetUnread (threadID userID : String) (db : ChatDB) : Except Err ChatDB :=
  match db.participants.update (fun r => r.threadID == threadID && r.userID == userID) fun r => { r with unreadCount := 0 } with
  | .error v => .error (chatErr v)
  | .ok participants => .ok { db with participants := participants }

/-- The key of `ON CONFLICT`. -/
def sentBefore (threadID authorUserID clientMsgID : String) (r : ChatMessage) : Bool :=
  r.threadID == threadID && r.authorUserID == authorUserID && r.clientMsgID == clientMsgID && r.clientMsgID != ""

/-- The insert, with its trigger.  A message that has been sent before comes back as it is. -/
def putMessage (now : Time) (id threadID authorUserID text clientMsgID : String) (db : ChatDB) :
    Except Err (ChatMessage × ChatDB) :=
  match db.messages.get (sentBefore threadID authorUserID clientMsgID) with
  | some m => .ok (m, db)
  | none =>
    let m : ChatMessage := ⟨id, threadID, authorUserID, text, clientMsgID, now⟩
    if (threadRow threadID db).isNone then .error (pgErr "23503")
    else
      match db.messages.insert m with
      | .error v => .error (chatErr v)
      | .ok messages =>
        match incrementUnread m { db with messages := messages } with
        | .error err => .error err
        | .ok db' => .ok (m, db')

/-- The thread is told of the message, a new one or not. -/
def touchThread (now : Time) (threadID messageID : String) (db : ChatDB) : Except Err ChatDB :=
  match db.threads.update (·.id == threadID) fun r =>
    { r with lastMessageID := some messageID, lastMessageAt := some now, updatedAt := now } with
  | .error v => .error (chatErr v)
  | .ok threads => .ok { db with threads := threads }

/-- The transaction of `InsertMessage`. -/
def insertMessage (now : Time) (id threadID authorUserID text clientMsgID : String) (db : ChatDB) :
    Except Err (ChatMessage × ChatThread) × ChatDB :=
  match putMessage now id threadID authorUserID text clientMsgID db with
  | .error err => (.error err, db)
  | .ok (m, db₁) =>
    match touchThread now threadID m.id db₁ with
    | .error err => (.error err, db)
    | .ok db₂ =>
      match threadRow threadID db₂ with
      | none => (.error (.plain ("thread " ++ threadID ++ " not found after insert")), db)
      | some r =>
        (.ok (m, { r.toThread with
          participantUserIDs := listParticipantsByThreadID r.id db₂
          participantReads := loadParticipantReads r.id db₂ }), db₂)

/-- `MarkRead`, with its trigger: what is read is the last message the thread knows of. -/
def markRead (now : Time) (threadID userID : String) (db : ChatDB) : Except Err Unit × ChatDB :=
  let key : ReadRow → Bool := fun r => r.threadID == threadID && r.userID == userID
  match threadRow threadID db with
  | none => (.ok (), db)
  | some t =>
    let reads :=
      match db.reads.get key with
      | some _ => db.reads.update key fun r => { r with lastReadAt := some now, lastReadMessageID := t.lastMessageID }
      | none => db.reads.insert ⟨threadID, userID, some now, t.lastMessageID⟩
    match reads with
    | .error v => (.error (chatErr v), db)
    | .ok reads =>
      match resetUnread threadID userID { db with reads := reads } with
      | .error err => (.error err, db)
      | .ok db' => (.ok (), db')

end ChatRepo

inductive ChatSql where
  | ensureThread (id kind refID : String) (participantUserIDs : List String)
  | getThread (id : String)
  | listParticipants (threadID : String)
  | loadReads (threadID : String)
  | insertMessage (id threadID authorUserID text clientMsgID : String)
  | markRead (threadID userID : String)
deriving DecidableEq, Repr

@[reducible] def ChatSql.Ans : ChatSql → Type
  | ensureThread _ _ _ _ => ThreadRow
  | getThread _ => Option ThreadRow
  | listParticipants _ => List String
  | loadReads _ => List ParticipantRead
  | insertMessage _ _ _ _ _ => ChatMessage × ChatThread
  | markRead _ _ => Unit

def ChatSql.run (now : Time) : (s : ChatSql) → ChatDB → Except Err s.Ans × ChatDB
  | ensureThread id kind refID ps, db => ChatRepo.ensureThread now id kind refID ps db
  | getThread id, db => (.ok (ChatRepo.threadRow id db), db)
  | listParticipants threadID, db => (.ok (ChatRepo.listParticipantsByThreadID threadID db), db)
  | loadReads threadID, db => (.ok (ChatRepo.loadParticipantReads threadID db), db)
  | insertMessage id threadID authorUserID text clientMsgID, db =>
    ChatRepo.insertMessage now id threadID authorUserID text clientMsgID db
  | markRead threadID userID, db => ChatRepo.markRead now threadID userID db

def chatRules : SqlRules Err ChatDB ChatSql.Ans := ⟨ChatSql.run, isUUID⟩

abbrev ChatOp := SqlOp ChatSql

abbrev ChatRes := SqlOp.Res Err ChatSql.Ans

abbrev ChatProg := Prog ChatOp ChatRes

abbrev ChatSql.query (s : ChatSql) : ChatProg (Except Err s.Ans) := Prog.perform (SqlOp.sql s)

abbrev ChatSql.fresh : ChatProg String := Prog.perform (SqlOp.fresh : ChatOp)

/-! ## The calls -/

open ChatSql (query)

namespace ChatRepo

/-- The participants, if they can be read, and what they have read. -/
def hydrate (r : ThreadRow) : ChatProg (Except Err ChatThread) := do
  let participants ← query (.listParticipants r.id)
  match ← query (.loadReads r.id) with
  | .error err => return .error err
  | .ok reads =>
    return .ok { r.toThread with
      participantUserIDs := match participants with
        | .error _ => []
        | .ok ps => ps
      participantReads := reads }

def getThreadByID (threadID : String) : ChatProg (Except Err (Option ChatThread)) := do
  match ← query (.getThread threadID) with
  | .error err => return .error err
  | .ok none => return .ok none
  | .ok (some r) =>
    match ← hydrate r with
    | .error err => return .error err
    | .ok t => return .ok (some t)

/-- A client that names no identifier gets one. -/
def clientMessageID (clientMsgID : String) : ChatProg String := do
  if trimSpace clientMsgID = "" then ChatSql.fresh else return trimSpace clientMsgID

def storeMessage (threadID authorUserID text clientMsgID : String) : ChatProg (Except Err (ChatMessage × ChatThread)) := do
  let id ← ChatSql.fresh
  query (.insertMessage id threadID authorUserID text clientMsgID)

/-- `InsertMessage`. -/
def sendMessage (threadID authorUserID text clientMsgID : String) : ChatProg (Except Err (ChatMessage × ChatThread)) := do
  let clientMsgID ← clientMessageID clientMsgID
  storeMessage threadID authorUserID (trimSpace text) clientMsgID

end ChatRepo

/-- `parse` is `uuid.Parse`, with the text of its result. -/
structure ChatRules where
  parse : String → Option String

namespace ChatUseCase

def threadKinds : List String := ["venue_booking", "master_booking"]

def maxTextLength : ℕ := 3000

def nilUUID : String := "00000000-0000-0000-0000-000000000000"

def invalid {α : Type} (msg : String) : Except Err α := .error (.status .invalidArgument msg)

def parseOr (R : ChatRules) (s msg : String) : Except Err String :=
  match R.parse (trimSpace s) with
  | none => invalid msg
  | some id => .ok id

def normalizeParticipants (R : ChatRules) (ids : List String) : Except Err (List String) := do
  let out ← (ids.filter (trimSpace · != "")).mapM fun s => parseOr R s "invalid participant_user_id"
  let out := out.eraseDups
  if out.length < 2 then invalid "at least 2 participants required"
  else .ok (out.insertionSort (· ≤ ·))

/-- The kind, the reference and the participants of a request. -/
def checkEnsure (R : ChatRules) (kind refID actorUserID : String) (participants : List String) :
    Except Err (String × String × List String) := do
  let kind := trimSpace kind
  if threadKinds.contains kind = false then invalid "invalid thread kind"
  else
    let ref ← parseOr R refID "invalid ref_id"
    let actor ← parseOr R actorUserID "invalid actor_user_id"
    if actor = nilUUID then invalid "invalid actor_user_id"
    else
      let ps ← normalizeParticipants R participants
      if ps.contains actor = false then .error (.status .permissionDenied "actor must be a thread participant")
      else .ok (kind, ref, ps)

def ensureThread (R : ChatRules) (kind refID actorUserID : String) (participants : List String) : ChatProg (Except Err ChatThread) := do
  match checkEnsure R kind refID actorUserID participants with
  | .error err => return .error err
  | .ok (kind, ref, ps) =>
    let id ← ChatSql.fresh
    match ← query (.ensureThread id kind ref ps) with
    | .error err => return .error err
    | .ok r => ChatRepo.hydrate r

def isParticipant (t : ChatThread) (userID : String) : Bool :=
  t.participantUserIDs.any fun p => toLower p == toLower (trimSpace userID)

/-- What a participant of a thread may do. -/
def withThread {α : Type} (threadID userID : String) (next : ChatProg (Except Err α)) : ChatProg (Except Err α) := do
  match ← ChatRepo.getThreadByID threadID with
  | .error err => return .error err
  | .ok none => return .error (.status .notFound "thread not found")
  | .ok (some t) =>
    if isParticipant t userID = false then return .error (.status .permissionDenied "access denied") else next

/-- The identifiers of a request. -/
def checkIDs (R : ChatRules) (threadID userID : String) : Except Err (String × String) := do
  let tid ← parseOr R threadID "invalid thread_id"
  let uid ← parseOr R userID "invalid user_id"
  .ok (tid, uid)

def checkText (text : String) : Except Err String :=
  if trimSpace text = "" then invalid "message text is required"
  else if maxTextLength < (trimSpace text).length then invalid "message text too long"
  else .ok (trimSpace text)

def sendMessage (R : ChatRules) (threadID userID text clientMsgID : String) : ChatProg (Except Err (ChatMessage × ChatThread)) := do
  match checkIDs R threadID userID with
  | .error err => return .error err
  | .ok (tid, uid) =>
    match checkText text with
    | .error err => return .error err
    | .ok text => withThread tid uid (ChatRepo.sendMessage tid uid text clientMsgID)

def markRead (R : ChatRules) (threadID userID : String) : ChatProg (Except Err (Option ChatThread)) := do
  match checkIDs R threadID userID with
  | .error err => return .error err
  | .ok (tid, uid) =>
    withThread tid uid do
      match ← query (.markRead tid uid) with
      | .error err => return .error err
      | .ok () => ChatRepo.getThreadByID tid

end ChatUseCase

end Agregator
