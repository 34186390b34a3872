import Agregator.ConcMoments
import Agregator.GoBase
import Mathlib.Data.List.Induction
import Mathlib.Logic.Function.Basic
/-!
# ChatHub — the open sockets of the chat, and what is sent to them

Every process of the gateway keeps its users' sockets in a hub.  What the chat service answers is published for all processes,
and each puts it in the queues of the sockets it has for the users named; one goroutine a socket writes its queue to the
connection.  Handlers, goroutines and processes interleave at every access to a map, a channel, an atomic or a connection.
-/
namespace Agregator.ChatHub

open Conc

/-! ## Sockets -/

/-- A frame for the participants of a thread. -/
structure Emission where
  userIDs : List String
  payload : String
deriving DecidableEq, Repr

/-- Where a frame comes from, for the proofs: the `i`-th message of `chat.fanout`, this process, or the socket's own handler. -/
inductive Origin where
  | fanout (i : ℕ)
  | here
  | reply
deriving DecidableEq, Repr

structure Frame where
  payload : String
  origin : Origin
deriving DecidableEq, Repr

/-- A `Client`.  What it was added as, the frames ever queued for it and those its connection has taken are kept for the proofs;
`joined` is how many fan-outs its process had taken up before. -/
structure Client where
  process : ℕ := 0
  userID : String := ""
  joined : ℕ := 0
  sendCh : List Frame := []
  closed : Bool := false
  connClosed : Bool := false
  done : Bool := false
  queued : List Frame := []
  written : List Frame := []

def Frame.fanout? (f : Frame) : Option ℕ :=
  match f.origin with
  | .fanout i => some i
  | .here | .reply => none

/-- The fan-outs among the frames queued for a socket. -/
def Client.fanouts (x : Client) : List ℕ := x.queued.filterMap Frame.fanout?

/-- A frame is put in the queue. -/
def Client.push (x : Client) (f : Frame) : Client := { x with sendCh := x.sendCh ++ [f], queued := x.queued ++ [f] }

/-- The processes of the gateway and the subject `chat.fanout`.  Of the clients those before `added` are in use; `users` holds
the entries of every process's map, `taken` the fan-outs a process has read its sockets for, and `answers` what the chat service
has answered. -/
structure World where
  client : ℕ → Client
  added : ℕ
  spawned : ℕ → Bool
  users : List (ℕ × String × ℕ)
  published : List Emission
  subscribed : ℕ → Bool
  cursor : ℕ → ℕ
  taken : ℕ → List (ℕ × List String)
  answers : List Emission
  panicked : Bool

namespace World

def fresh : World := ⟨fun _ => {}, 0, fun _ => false, [], [], fun _ => false, fun _ => 0, fun _ => [], [], false⟩

variable (w : World)

def setClient (c : ℕ) (x : Client) : World := { w with client := Function.update w.client c x }

/-- `h.users[userID]` of a process. -/
def sockets (process : ℕ) (userID : String) : List ℕ :=
  (w.users.filter fun x => x.1 == process && x.2.1 == userID).map (·.2.2)

/-- A socket is put in the hub of a process. -/
def addClient (process : ℕ) (userID : String) : World :=
  { w.setClient w.added
      { w.client w.added with process := process, userID := userID, joined := (w.taken process).length } with
    added := w.added + 1, users := (process, userID, w.added) :: w.users }

/-- A process has read the sockets of a fan-out. -/
def takeUp (process : ℕ) (userIDs : List String) : Origin → World
  | .fanout i => { w with taken := Function.update w.taken process (w.taken process ++ [(i, userIDs)]) }
  | .here | .reply => w

/-- A socket that is in its hub and not closed. -/
def Open (c : ℕ) : Prop := (∃ p u, (p, u, c) ∈ w.users) ∧ (w.client c).closed = false

/-- The fan-outs for a socket that its process has taken up since it was added, each as often as it names the user. -/
def expected (c : ℕ) : List ℕ :=
  ((w.taken (w.client c).process).drop (w.client c).joined).flatMap fun x => List.replicate (x.2.count (w.client c).userID) x.1

end World

/-! ## Operations -/

/-- The calls of the chat service that end in a frame. -/
inductive ChatRequest where
  | sendMessage (threadID userID text clientMsgID : String)
  | markRead (threadID userID : String)
deriving DecidableEq, Repr

/-- A frame read from a socket. -/
inductive Command where
  | ping
  | sendMessage (threadID text clientMsgID : String)
  | markRead (threadID : String)
  | unknown
deriving DecidableEq, Repr

/-- What came of a send that does not wait. -/
inductive Offered where
  | gone
  | sent
  | full
deriving DecidableEq, Repr

/-- What a `writeLoop` wakes up for. -/
inductive Woken where
  | done
  | tick
  | msg (f : Frame)
deriving DecidableEq, Repr

/-- The origin of `targets` is for the proofs, and so is `spawn`: the one `writeLoop` a socket gets. -/
inductive Op where
  | add (process : ℕ) (userID : String)
  | remove (process : ℕ) (userID : String) (c : ℕ)
  | targets (process : ℕ) (userIDs : List String) (origin : Origin)
  | loadClosed (c : ℕ)
  | offer (c : ℕ) (f : Frame)
  | casClosed (c : ℕ)
  | closeConn (c : ℕ)
  | closeDone (c : ℕ)
  | spawn (c : ℕ)
  | await (c : ℕ)
  | write (c : ℕ) (f : Option Frame)
  | read (c : ℕ)
  | allow (key : String)
  | request (r : ChatRequest)
  | publish (e : Emission)
  | subscribe (process : ℕ)
  | next (process : ℕ)

namespace Op

@[reducible] def Res : Op → Type
  | add _ _ => ℕ
  | targets _ _ _ => List ℕ
  | loadClosed _ | casClosed _ | write _ _ | allow _ | publish _ => Bool
  | offer _ _ => Offered
  | await _ => Woken
  | read _ => Option Command
  | request _ => Option Emission
  | next _ => ℕ × Emission
  | remove _ _ _ | closeConn _ | closeDone _ | spawn _ | subscribe _ => Unit

/-- What the atomic steps do.  A map is walked in any order; a `select` takes any of its cases that is ready; a write or a read
can fail at any time, a failed write may have been taken, and nothing passes a closed connection.  `publish` is heard by nobody
or put at the end, and what it says of that is not relied on; a subscription gets what is published in order, and may miss some. -/
def Exec (size : ℕ) : (o : Op) → World → o.Res → World → Prop
  | add p userID, w, c, w' => c = w.added ∧ w' = w.addClient p userID
  | remove p userID c, w, _, w' => w' = { w with users := w.users.filter (· ≠ (p, userID, c)) }
  | targets p userIDs origin, w, cs, w' =>
      (∃ css, List.Forall₂ (fun userID l => l.Perm (w.sockets p userID)) userIDs css ∧ cs = css.flatten) ∧
      w' = w.takeUp p userIDs origin
  | loadClosed c, w, r, w' => r = (w.client c).closed ∧ w' = w
  | offer c f, w, r, w' =>
      (r = .gone ∧ (w.client c).done = true ∧ w' = w) ∨
      (r = .sent ∧ (w.client c).sendCh.length < size ∧ w' = w.setClient c ((w.client c).push f)) ∨
      (r = .full ∧ (w.client c).done = false ∧ size ≤ (w.client c).sendCh.length ∧ w' = w)
  | casClosed c, w, r, w' => r = !(w.client c).closed ∧ w' = w.setClient c { w.client c with closed := true }
  | closeConn c, w, _, w' => w' = w.setClient c { w.client c with connClosed := true }
  | closeDone c, w, _, w' =>
      w' = { w.setClient c { w.client c with done := true } with panicked := w.panicked || (w.client c).done }
  | spawn c, w, _, w' => c < w.added ∧ w.spawned c = false ∧ w' = { w with spawned := Function.update w.spawned c true }
  | await c, w, r, w' =>
      (r = .done ∧ (w.client c).done = true ∧ w' = w) ∨ (r = .tick ∧ w' = w) ∨
      ∃ f rest, r = .msg f ∧ (w.client c).sendCh = f :: rest ∧ w' = w.setClient c { w.client c with sendCh := rest }
  | write c f, w, r, w' =>
      (r = false ∧ w' = w) ∨ ((w.client c).connClosed = false ∧
        w' = w.setClient c { w.client c with written := (w.client c).written ++ f.toList })
  | read c, w, r, w' => (r ≠ none → (w.client c).connClosed = false) ∧ w' = w
  | allow _, w, _, w' => w' = w
  | request _, w, r, w' => w' = { w with answers := w.answers ++ r.toList }
  | publish e, w, _, w' => w' = w ∨ w' = { w with published := w.published ++ [e] }
  | subscribe p, w, _, w' => w.subscribed p = false ∧ w' = { w with subscribed := Function.update w.subscribed p true }
  | next p, w, r, w' => w.cursor p ≤ r.1 ∧ w.published[r.1]? = some r.2 ∧
      w' = { w with cursor := Function.update w.cursor p (r.1 + 1) }

end Op

abbrev HubProg (α : Type) := Prog Op Op.Res α

def Op.call (o : Op) : HubProg o.Res := Prog.perform o

/-! ## The hub -/

/-- `Client.close`. -/
def close (c : ℕ) : HubProg Unit := do
  if ← (Op.casClosed c).call then
    (Op.closeConn c).call
    (Op.closeDone c).call
  else pure ()

/-- `Client.SendJSON`. -/
def sendJSON (c : ℕ) (payload : String) : HubProg Unit := do
  match ← (Op.offer c ⟨payload, .reply⟩).call with
  | .gone | .sent => pure ()
  | .full => close c

/-- The loop over the targets of a broadcast. -/
def broadcastTo (f : Frame) : List ℕ → HubProg Unit
  | [] => pure ()
  | c :: targets => do
    if ← (Op.loadClosed c).call then broadcastTo f targets
    else
      match ← (Op.offer c f).call with
      | .gone | .sent => broadcastTo f targets
      | .full =>
        close c
        broadcastTo f targets

/-- `Hub.Broadcast` of a process. -/
def broadcast (process : ℕ) (userIDs : List String) (f : Frame) : HubProg Unit := do
  let targets ← (Op.targets process userIDs f.origin).call
  broadcastTo f targets

/-- `Client.writeLoop`, for some turns. -/
def writeLoop (c : ℕ) : ℕ → HubProg Unit
  | 0 => pure ()
  | n + 1 => do
    match ← (Op.await c).call with
    | .done => pure ()
    | .tick =>
      if ← (Op.write c none).call then writeLoop c n
      else close c
    | .msg f =>
      if ← (Op.write c (some f)).call then writeLoop c n
      else close c

/-! ## The handlers -/

section Handlers

variable (toLower : String → String) (nats : ℕ → Bool)

/-- `emitToUsers` of a process. -/
def emitToUsers (process : ℕ) (e : Emission) : HubProg Unit := do
  if nats process && !e.userIDs.isEmpty then
    if ← (Op.publish e).call then pure ()
    else broadcast process e.userIDs ⟨e.payload, .here⟩
  else broadcast process e.userIDs ⟨e.payload, .here⟩

/-- `HandleFanoutMessage` of a process, on the `i`-th message. -/
def handleFanoutMessage (process i : ℕ) (e : Emission) : HubProg Unit :=
  if e.userIDs.isEmpty then pure () else broadcast process e.userIDs ⟨e.payload, .fanout i⟩

/-- The subscription to `chat.fanout`, for some messages. -/
def fanout (process : ℕ) : ℕ → HubProg Unit
  | 0 => pure ()
  | n + 1 => do
    let (i, e) ← (Op.next process).call
    handleFanoutMessage process i e
    fanout process n

/-- The key of `allowSend`. -/
def sendKey (userID threadID : String) : String := "chat:send:" ++ (userID ++ "|" ++ threadID)

def connectedFrame : String := "\x7b\"event\":\"chat.connected\",\"type\":\"connected\"\x7d"
def pongFrame : String := "\x7b\"event\":\"chat.pong\",\"type\":\"pong\"\x7d"

def errorFrame (error : String) : String := "\x7b\"error\":\"" ++ error ++ "\",\"event\":\"chat.error\",\"type\":\"error\"\x7d"

/-- What a handler tells its own socket. -/
def replies : List String :=
  [connectedFrame, pongFrame, errorFrame "rate_limit", errorFrame "send_failed", errorFrame "mark_read_failed",
    errorFrame "unknown_command"]

/-- A call of the chat service for a socket, and what is sent of it. -/
def requestFor (process c : ℕ) (r : ChatRequest) (error : String) : HubProg Unit := do
  match ← (Op.request r).call with
  | none => sendJSON c (errorFrame error)
  | some e => emitToUsers nats process e

/-- One frame read from a socket. -/
def handleCommand (process : ℕ) (userID : String) (c : ℕ) : Command → HubProg Unit
  | .ping => sendJSON c pongFrame
  | .sendMessage threadID text clientMsgID => do
    let threadID := toLower (trimSpace threadID)
    if ← (Op.allow (sendKey userID threadID)).call then
      requestFor nats process c (.sendMessage threadID userID text (trimSpace clientMsgID)) "send_failed"
    else sendJSON c (errorFrame "rate_limit")
  | .markRead threadID =>
    requestFor nats process c (.markRead (toLower (trimSpace threadID)) userID) "mark_read_failed"
  | .unknown => sendJSON c (errorFrame "unknown_command")

/-- The frames of a socket, for some turns, and what is deferred to their end. -/
def commands (process : ℕ) (userID : String) (c : ℕ) : ℕ → HubProg Unit
  | 0 => pure ()
  | n + 1 => do
    match ← (Op.read c).call with
    | none =>
      (Op.remove process userID c).call
      close c
      (Op.closeConn c).call
    | some cmd =>
      handleCommand toLower nats process userID c cmd
      commands process userID c n

/-- `WS`, once the connection is upgraded. -/
def ws (process : ℕ) (userID : String) (turns : ℕ) : HubProg Unit :=
  if userID = "" then pure ()
  else do
    let c ← (Op.add process userID).call
    sendJSON c connectedFrame
    commands toLower nats process userID c turns

/-- `SendMessage` by HTTP, of a body that may not be readable. -/
def sendMessage (process : ℕ) (userID threadID : String) (body : Option (String × String)) : HubProg Unit :=
  if userID = "" then pure ()
  else do
    if ← (Op.allow (sendKey userID threadID)).call then
      match body with
      | none => pure ()
      | some (text, clientMsgID) =>
        match ← (Op.request (.sendMessage threadID userID text (trimSpace clientMsgID))).call with
        | none => pure ()
        | some e => emitToUsers nats process e
    else pure ()

/-- `MarkRead` by HTTP. -/
def markRead (process : ℕ) (userID threadID : String) : HubProg Unit :=
  if userID = "" then pure ()
  else do
    match ← (Op.request (.markRead threadID userID)).call with
    | none => pure ()
    | some e => emitToUsers nats process e

end Handlers

inductive Call where
  | ws (process : ℕ) (userID : String) (turns : ℕ)
  | writeLoop (c turns : ℕ)
  | fanout (process turns : ℕ)
  | sendMessage (process : ℕ) (userID threadID : String) (body : Option (String × String))
  | markRead (process : ℕ) (userID threadID : String)
deriving DecidableEq

/-- The gateway's processes, whose queues hold `size` frames and of which some have a connection to NATS.  A `writeLoop` is the
one its socket gets, and a process subscribes once. -/
def sys (toLower : String → String) (nats : ℕ → Bool) (size : ℕ) : Sys World Call Op Op.Res Unit where
  prog
    | .ws p userID turns => ws toLower nats p userID turns
    | .writeLoop c turns => (Op.spawn c).call.bind fun _ => writeLoop c turns
    | .fanout p turns => (Op.subscribe p).call.bind fun _ => fanout p turns
    | .sendMessage p userID threadID body => sendMessage nats p userID threadID body
    | .markRead p userID threadID => markRead nats p userID threadID
  ready _ _ := True
  exec := Op.Exec size
  env _ _ := False

end Agregator.ChatHub
