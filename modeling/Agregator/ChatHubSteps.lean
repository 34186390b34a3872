import Agregator.ChatHub
/-!
# ChatHubSteps — where a goroutine of the hub is

The history of a goroutine tells what it is about to hand on, which sockets it has still to deal with, and which it is closing
(`doing`).  Its program does the next thing only there (`Lawful`).
-/
namespace Agregator.ChatHub

open Conc

/-- What is to be sent on: nothing, a frame whose sockets are not known yet, or one for the socket at hand and those left. -/
inductive Place where
  | idle
  | holds (e : Emission) (o : Origin)
  | casting (e : Emission) (o : Origin) (c : ℕ) (todo : List ℕ)

def Place.cast (e : Emission) (o : Origin) : List ℕ → Place
  | [] => .idle
  | c :: todo => .casting e o c todo

inductive WriterAt where
  | off
  | waiting (c : ℕ)
  | holding (c : ℕ) (f : Frame)
  | stopped

/-- The socket a `writeLoop` is at. -/
def WriterAt.on : WriterAt → Option ℕ
  | .waiting c | .holding c _ => some c
  | .off | .stopped => none

/-- `process` is the one it is the subscription of, `socket` the one it was started for, `closing` the one it is to close. -/
structure Doing where
  process : Option ℕ := none
  socket : Option ℕ := none
  place : Place := .idle
  writer : WriterAt := .off
  closing : Option ℕ := none

namespace Doing

/-- The socket at hand is dealt with. -/
def dealt (g : Doing) : Doing :=
  match g.place with
  | .casting e o _ todo => { g with place := .cast e o todo }
  | .idle | .holds _ _ => g

def cast (g : Doing) (cs : List ℕ) : Doing :=
  match g.place with
  | .holds e o => { g with place := .cast e o cs }
  | .idle | .casting _ _ _ _ => g

def wake (g : Doing) (f : Frame) : Doing :=
  match g.writer with
  | .waiting c => { g with writer := .holding c f }
  | .off | .holding _ _ | .stopped => g

def wrote (g : Doing) (r : Bool) : Doing :=
  match g.writer with
  | .holding c _ => { g with writer := if r then .waiting c else .stopped }
  | .off | .waiting _ | .stopped => g

def step (g : Doing) : Event Op Op.Res → Doing
  | ⟨.subscribe p, _⟩ => { g with process := some p }
  | ⟨.next _, (i, e)⟩ => { g with place := if e.userIDs.isEmpty then .idle else .holds e (.fanout i) }
  | ⟨.request _, some e⟩ => { g with place := .holds e .here }
  | ⟨.publish _, true⟩ => { g with place := .idle }
  | ⟨.targets _ _ _, cs⟩ => g.cast cs
  | ⟨.loadClosed _, true⟩ => g.dealt
  | ⟨.offer _ f, r⟩ => if f.origin = .reply ∨ r = .full then g else g.dealt
  | ⟨.casClosed c, r⟩ => { g.dealt with closing := if r then some c else none }
  | ⟨.closeDone _, _⟩ => { g with closing := none }
  | ⟨.add _ _, c⟩ => { g with socket := some c }
  | ⟨.spawn c, _⟩ => { g with socket := some c, writer := .waiting c }
  | ⟨.await _, .msg f⟩ => g.wake f
  | ⟨.write _ (some _), r⟩ => g.wrote r
  | _ => g

end Doing

def doing (h : List (Event Op Op.Res)) : Doing := h.foldl Doing.step {}

@[simp] theorem doing_snoc (h : List (Event Op Op.Res)) (e : Event Op Op.Res) : doing (h ++ [e]) = (doing h).step e := by
  rw [doing, List.foldl_append]
  rfl

/-- What a goroutine has behind it before an operation. -/
def Lawful (h : List (Event Op Op.Res)) (o : Op) : Prop :=
  let g := doing h
  match o with
  | .targets p userIDs o => (∃ e, g.place = .holds e o ∧ e.userIDs = userIDs) ∧ ∀ i, o = .fanout i → g.process = some p
  | .loadClosed c => ∃ e o todo, g.place = .casting e o c todo
  | .offer c f => (f.origin = .reply ∧ f.payload ∈ replies ∧ g.socket = some c) ∨
      ∃ e todo, g.place = .casting e f.origin c todo ∧ f.origin ≠ .reply ∧ f.payload = e.payload
  | .casClosed c => g.closing = none ∧ ((g.place = .idle ∧ g.socket = some c) ∨ ∃ e o todo, g.place = .casting e o c todo)
  | .closeConn c => g.closing = some c ∨ g.socket = some c
  | .closeDone c => g.closing = some c
  | .spawn _ => g.writer = .off
  | .await c | .write c none => g.writer = .waiting c
  | .write c (some f) => g.writer = .holding c f
  | .request _ => g.process = none
  | .publish e => g.place = .holds e .here
  | .subscribe _ => g.process = none ∧ g.place = .idle
  | .next p => g.process = some p ∧ g.place = .idle
  | .add _ _ | .remove _ _ _ | .read _ | .allow _ => True

/-! ## The programs -/

section Programs

variable {h : List (Event Op Op.Res)} {g : Doing}

/-- A program that ends where it says. -/
def EndsAt (g : Doing) (h : List (Event Op Op.Res)) (_ : Unit) : Prop := doing h = g

theorem close_obeys {c : ℕ} (hg : doing h = g) (hclosing : g.closing = none)
    (hplace : (g.place = .idle ∧ g.socket = some c) ∨ ∃ e o todo, g.place = .casting e o c todo) :
    (close c).Obeys Lawful (EndsAt g.dealt) h := by
  simp only [close, Op.call, Prog.bind_eq, Prog.perform_bind, Prog.pure_eq]
  subst hg
  have hdealt : (doing h).dealt.closing = none := by
    unfold Doing.dealt
    split <;> exact hclosing
  refine ⟨⟨hclosing, hplace⟩, fun r => ?_⟩
  cases r with
  | false =>
    dsimp only
    rw [if_neg Bool.false_ne_true]
    change doing _ = _
    rw [doing_snoc]
    change { (doing h).dealt with closing := none } = (doing h).dealt
    rw [← hdealt]
  | true =>
    dsimp only
    rw [if_pos rfl]
    have hcas : doing (h ++ [⟨.casClosed c, true⟩]) = { (doing h).dealt with closing := some c } := doing_snoc _ _
    refine ⟨.inl (by rw [hcas]), fun _ => ⟨?_, fun _ => ?_⟩⟩
    · change (doing _).closing = some c
      rw [doing_snoc, hcas]
      rfl
    · change doing _ = _
      rw [doing_snoc, doing_snoc, hcas]
      change { (doing h).dealt with closing := none } = (doing h).dealt
      rw [← hdealt]

theorem sendJSON_obeys {c : ℕ} {payload : String} (hg : doing h = g) (hclosing : g.closing = none) (hplace : g.place = .idle)
    (hsocket : g.socket = some c) (hpayload : payload ∈ replies) : (sendJSON c payload).Obeys Lawful (EndsAt g) h := by
  simp only [sendJSON, Op.call, Prog.bind_eq, Prog.perform_bind, Prog.pure_eq]
  refine ⟨.inl ⟨rfl, hpayload, by rw [hg]; exact hsocket⟩, fun r => ?_⟩
  have hstep : doing (h ++ [⟨.offer c ⟨payload, .reply⟩, r⟩]) = g := by
    rw [doing_snoc, hg, Doing.step]
    exact if_pos (Or.inl rfl)
  cases r with
  | gone | sent => exact hstep
  | full =>
    have hdealt : g.dealt = g := by rw [Doing.dealt, hplace]
    have hobeys := close_obeys hstep hclosing (.inl ⟨hplace, hsocket⟩)
    rwa [hdealt] at hobeys

theorem broadcastTo_obeys {e : Emission} {f : Frame} (hf : f.origin ≠ .reply) (hpayload : f.payload = e.payload)
    (hclosing : g.closing = none) : ∀ (targets : List ℕ) {h : List (Event Op Op.Res)},
      doing h = { g with place := .cast e f.origin targets } →
      (broadcastTo f targets).Obeys Lawful (EndsAt { g with place := .idle }) h
  | [], _, hg => hg
  | c :: targets, h, hg => by
    simp only [broadcastTo, Op.call, Prog.bind_eq, Prog.perform_bind]
    have hplace : (doing h).place = .casting e f.origin c targets := by rw [hg]; rfl
    have hdealt : (doing h).dealt = { g with place := .cast e f.origin targets } := by rw [hg]; rfl
    refine ⟨⟨e, f.origin, targets, hplace⟩, fun r => ?_⟩
    cases r with
    | true =>
      dsimp only
      rw [if_pos rfl]
      refine broadcastTo_obeys hf hpayload hclosing targets ?_
      rw [doing_snoc]
      exact hdealt
    | false =>
      dsimp only
      rw [if_neg Bool.false_ne_true]
      have hload : doing (h ++ [⟨.loadClosed c, false⟩]) = doing h := doing_snoc _ _
      refine ⟨.inr ⟨e, targets, by rw [hload]; exact hplace, hf, hpayload⟩, fun r => ?_⟩
      have hoffer : doing (h ++ [⟨.loadClosed c, false⟩] ++ [⟨.offer c f, r⟩]) =
          if f.origin = .reply ∨ r = .full then doing h else (doing h).dealt := by
        rw [doing_snoc, hload]
        rfl
      cases r with
      | gone | sent =>
        refine broadcastTo_obeys hf hpayload hclosing targets ?_
        rw [hoffer, if_neg (by simp [hf])]
        exact hdealt
      | full =>
        dsimp only
        refine (Prog.Obeys.mono (fun h' _ hq => ?_) (close_obeys hoffer ?_ (.inr ⟨e, f.origin, targets, ?_⟩))).bind
        · refine broadcastTo_obeys hf hpayload hclosing targets ?_
          rw [show doing h' = _ from hq, if_pos (.inr rfl)]
          exact hdealt
        · rw [if_pos (.inr rfl), hg]
          exact hclosing
        · rw [if_pos (.inr rfl)]
          exact hplace

theorem broadcast_obeys {process : ℕ} {e : Emission} {f : Frame} (hf : f.origin ≠ .reply) (hpayload : f.payload = e.payload)
    (hprocess : ∀ i, f.origin = .fanout i → g.process = some process) (hclosing : g.closing = none)
    (hg : doing h = { g with place := .holds e f.origin }) :
    (broadcast process e.userIDs f).Obeys Lawful (EndsAt { g with place := .idle }) h := by
  simp only [broadcast, Op.call, Prog.bind_eq, Prog.perform_bind]
  refine ⟨⟨⟨e, by rw [hg], rfl⟩, fun i hi => by rw [hg]; exact hprocess i hi⟩, fun targets => ?_⟩
  refine broadcastTo_obeys hf hpayload hclosing targets ?_
  rw [doing_snoc, hg]
  rfl

theorem emitToUsers_obeys {nats : ℕ → Bool} {process : ℕ} {e : Emission} (hclosing : g.closing = none)
    (hg : doing h = { g with place := .holds e .here }) :
    (emitToUsers nats process e).Obeys Lawful (EndsAt { g with place := .idle }) h := by
  have hbroadcast : ∀ {h : List (Event Op Op.Res)}, doing h = { g with place := .holds e .here } →
      (broadcast process e.userIDs ⟨e.payload, .here⟩).Obeys Lawful (EndsAt { g with place := .idle }) h :=
    fun hg => broadcast_obeys (fun hf => by cases hf) rfl (fun _ hi => by cases hi) hclosing hg
  simp only [emitToUsers, Op.call, Prog.bind_eq, Prog.perform_bind, Prog.pure_eq]
  split
  · refine ⟨by rw [Lawful, hg], fun r => ?_⟩
    cases r with
    | true =>
      dsimp only
      rw [if_pos rfl]
      change doing _ = _
      rw [doing_snoc, hg]
      rfl
    | false =>
      dsimp only
      rw [if_neg Bool.false_ne_true]
      refine hbroadcast ?_
      rw [doing_snoc]
      exact hg
  · exact hbroadcast hg

theorem fanout_obeys {process : ℕ} (hprocess : g.process = some process) (hclosing : g.closing = none) (hplace : g.place = .idle) :
    ∀ (turns : ℕ) {h : List (Event Op Op.Res)}, doing h = g → (fanout process turns).Obeys Lawful (EndsAt g) h
  | 0, _, hg => hg
  | n + 1, h, hg => by
    simp only [fanout, Op.call, Prog.bind_eq, Prog.perform_bind]
    refine ⟨by rw [Lawful, hg]; exact ⟨hprocess, hplace⟩, fun r => ?_⟩
    obtain ⟨i, e⟩ := r
    have hidle : { g with place := .idle } = g := by rw [← hplace]
    have hnext : doing (h ++ [⟨.next process, (i, e)⟩]) =
        { g with place := if e.userIDs.isEmpty then .idle else .holds e (.fanout i) } := by rw [doing_snoc, hg]; rfl
    dsimp only
    refine Prog.Obeys.bind (Prog.Obeys.mono (fun h' _ hq => fanout_obeys hprocess hclosing hplace n hq) ?_)
    unfold handleFanoutMessage
    by_cases hempty : e.userIDs.isEmpty = true
    · rw [if_pos hempty] at hnext ⊢
      exact hnext.trans hidle
    · rw [if_neg hempty] at hnext ⊢
      have hobeys := broadcast_obeys (f := ⟨e.payload, .fanout i⟩) (fun hf => by cases hf) rfl (fun _ _ => hprocess) hclosing hnext
      rwa [hidle] at hobeys

theorem writeLoop_obeys {c : ℕ} (hclosing : g.closing = none) (hplace : g.place = .idle) (hw : g.writer = .waiting c)
    (hsocket : g.socket = some c) : ∀ (turns : ℕ) {h : List (Event Op Op.Res)}, doing h = g →
      (writeLoop c turns).Obeys Lawful (fun _ _ => True) h
  | 0, _, _ => trivial
  | n + 1, h, hg => by
    have hclose : ∀ {h : List (Event Op Op.Res)} {g' : Doing}, doing h = g' → g'.closing = none → g'.place = .idle →
        g'.socket = some c → (close c).Obeys Lawful (fun _ _ => True) h := fun hg hclosing hplace hsocket =>
      Prog.Obeys.mono (fun _ _ _ => trivial) (close_obeys hg hclosing (.inl ⟨hplace, hsocket⟩))
    simp only [writeLoop, Op.call, Prog.bind_eq, Prog.perform_bind, Prog.pure_eq]
    refine ⟨by rw [Lawful, hg]; exact hw, fun r => ?_⟩
    cases r with
    | done => trivial
    | tick =>
      dsimp only
      have htick : doing (h ++ [⟨.await c, .tick⟩]) = g := by rw [doing_snoc, hg]; rfl
      refine ⟨by rw [Lawful, htick]; exact hw, fun r => ?_⟩
      have hping : doing (h ++ [⟨.await c, .tick⟩] ++ [⟨.write c none, r⟩]) = g := by rw [doing_snoc, htick]; rfl
      cases r with
      | true =>
        dsimp only
        rw [if_pos rfl]
        exact writeLoop_obeys hclosing hplace hw hsocket n hping
      | false =>
        dsimp only
        rw [if_neg Bool.false_ne_true]
        exact hclose hping hclosing hplace hsocket
    | msg f =>
      dsimp only
      have hmsg : doing (h ++ [⟨.await c, .msg f⟩]) = { g with writer := .holding c f } := by
        rw [doing_snoc, hg]
        change g.wake f = _
        rw [Doing.wake, hw]
      refine ⟨by rw [Lawful, hmsg], fun r => ?_⟩
      have htext : doing (h ++ [⟨.await c, .msg f⟩] ++ [⟨.write c (some f), r⟩]) =
          { g with writer := if r then .waiting c else .stopped } := by rw [doing_snoc, hmsg]; rfl
      cases r with
      | true =>
        dsimp only
        rw [if_pos rfl]
        refine writeLoop_obeys hclosing hplace hw hsocket n (htext.trans ?_)
        rw [if_pos rfl, ← hw]
      | false =>
        dsimp only
        rw [if_neg Bool.false_ne_true]
        exact hclose htext hclosing hplace hsocket

section Handlers

variable {toLower : String → String} {nats : ℕ → Bool} {process : ℕ} {userID : String}

/-- Before every frame it reads, a handler has nothing to send on and nothing to close. -/
theorem requestFor_obeys {c : ℕ} {r : ChatRequest} {error : String} (hg : doing h = { socket := some c })
    (herror : errorFrame error ∈ replies) :
    (requestFor nats process c r error).Obeys Lawful (EndsAt { socket := some c }) h := by
  simp only [requestFor, Op.call, Prog.bind_eq, Prog.perform_bind]
  refine ⟨by rw [Lawful, hg], fun r => ?_⟩
  cases r with
  | none =>
    refine sendJSON_obeys ?_ rfl rfl rfl herror
    rw [doing_snoc, hg]
    rfl
  | some e =>
    refine emitToUsers_obeys (g := { socket := some c }) rfl ?_
    rw [doing_snoc, hg]
    rfl

theorem handleCommand_obeys {c : ℕ} (hg : doing h = { socket := some c }) :
    ∀ cmd : Command, (handleCommand toLower nats process userID c cmd).Obeys Lawful (EndsAt { socket := some c }) h
  | .ping => sendJSON_obeys hg rfl rfl rfl (by simp [replies])
  | .unknown => sendJSON_obeys hg rfl rfl rfl (by simp [replies])
  | .markRead _ => requestFor_obeys hg (by simp [replies])
  | .sendMessage threadID _ _ => by
    simp only [handleCommand, Op.call, Prog.bind_eq, Prog.perform_bind]
    refine ⟨trivial, fun r => ?_⟩
    have hallow : doing (h ++ [⟨.allow (sendKey userID (toLower (trimSpace threadID))), r⟩]) = { socket := some c } := by
      rw [doing_snoc, hg]
      rfl
    dsimp only
    split
    · exact requestFor_obeys hallow (by simp [replies])
    · exact sendJSON_obeys hallow rfl rfl rfl (by simp [replies])

theorem commands_obeys {c : ℕ} : ∀ (turns : ℕ) {h : List (Event Op Op.Res)}, doing h = { socket := some c } →
    (commands toLower nats process userID c turns).Obeys Lawful (fun _ _ => True) h
  | 0, _, _ => trivial
  | n + 1, h, hg => by
    simp only [commands, Op.call, Prog.bind_eq, Prog.perform_bind]
    refine ⟨trivial, fun r => ?_⟩
    have hread : doing (h ++ [⟨.read c, r⟩]) = { socket := some c } := by rw [doing_snoc, hg]; rfl
    cases r with
    | none =>
      refine ⟨trivial, fun _ => ?_⟩
      have hremove : doing (h ++ [⟨.read c, none⟩] ++ [⟨.remove process userID c, ()⟩]) = { socket := some c } := by
        rw [doing_snoc, hread]
        rfl
      refine Prog.Obeys.bind (Prog.Obeys.mono (fun h' _ hq => ⟨.inr ?_, fun _ => trivial⟩)
        (close_obeys hremove rfl (.inl ⟨rfl, rfl⟩)))
      rw [show doing h' = _ from hq]
      rfl
    | some cmd =>
      exact Prog.Obeys.bind (Prog.Obeys.mono (fun _ _ hq => commands_obeys n hq) (handleCommand_obeys hread cmd))

theorem ws_obeys (turns : ℕ) : (ws toLower nats process userID turns).Obeys Lawful (fun _ _ => True) [] := by
  simp only [ws, Op.call, Prog.bind_eq, Prog.perform_bind, Prog.pure_eq]
  split
  · trivial
  · exact ⟨trivial, fun c => Prog.Obeys.bind (Prog.Obeys.mono (fun _ _ hq => commands_obeys turns hq)
      (sendJSON_obeys rfl rfl rfl rfl (by simp [replies])))⟩

theorem sendMessage_obeys {threadID : String} {body : Option (String × String)} :
    (sendMessage nats process userID threadID body).Obeys Lawful (fun _ _ => True) [] := by
  simp only [sendMessage, Op.call, Prog.bind_eq, Prog.perform_bind, Prog.pure_eq]
  split
  · trivial
  · refine ⟨trivial, fun r => ?_⟩
    dsimp only
    split
    · cases body with
      | none => trivial
      | some body =>
        refine ⟨rfl, fun r => ?_⟩
        cases r with
        | none => trivial
        | some e => exact Prog.Obeys.mono (fun _ _ _ => trivial) (emitToUsers_obeys (g := {}) rfl rfl)
    · trivial

theorem markRead_obeys {threadID : String} : (markRead nats process userID threadID).Obeys Lawful (fun _ _ => True) [] := by
  simp only [markRead, Op.call, Prog.bind_eq, Prog.perform_bind, Prog.pure_eq]
  split
  · trivial
  · refine ⟨rfl, fun r => ?_⟩
    cases r with
    | none => trivial
    | some e => exact Prog.Obeys.mono (fun _ _ _ => trivial) (emitToUsers_obeys (g := {}) rfl rfl)

end Handlers

end Programs

/-- **Every goroutine of the hub does the next thing only where it is at.** -/
theorem prog_obeys (toLower : String → String) (nats : ℕ → Bool) (size : ℕ) (c : Call) :
    ((sys toLower nats size).prog c).Obeys Lawful (fun _ _ => True) [] := by
  cases c with
  | ws process userID turns => exact ws_obeys turns
  | writeLoop c turns =>
    exact ⟨rfl, fun _ => writeLoop_obeys (g := { socket := some c, writer := .waiting c }) rfl rfl rfl rfl turns rfl⟩
  | fanout process turns =>
    refine ⟨⟨rfl, rfl⟩, fun _ => ?_⟩
    exact Prog.Obeys.mono (fun _ _ _ => trivial) (fanout_obeys (g := { process := some process }) rfl rfl rfl turns rfl)
  | sendMessage process userID threadID body => exact sendMessage_obeys
  | markRead process userID threadID => exact markRead_obeys

end Agregator.ChatHub
