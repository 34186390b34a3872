import Agregator.ChatAccess
import Agregator.ChatUnread
import Agregator.Gateway
/-!
# ChatView — a thread as a browser shows it

The hook of an open thread beside the statements of the chat service: it ensures the thread, loads a page of messages, marks the
thread as read, and takes in the events of new messages and the answers to its own meanwhile.  Every message that is stored is
told by an event; events and answers come in any order.
-/
namespace Agregator

open Rel

/-! ## The page -/

/-- The 32 bits of `strconv.ParseInt`. -/
def parsePositiveInt (raw : String) (dflt max : ℤ) : ℤ :=
  match atoi (trimSpace raw) with
  | none => dflt
  | some v => if v ≤ 0 ∨ 2 ^ 31 ≤ v then dflt else if max < v then max else v

/-- The limit and the offset of `{ limit: 200, offset: 0 }`, of which the second is not sent. -/
def hookLimit : ℕ := ChatUseCase.pageLimit (parsePositiveInt "200" 200 500)

def hookOffset : ℕ := ChatUseCase.pageOffset (parsePositiveInt "" 0 1000000)

/-- The messages the hook loads. -/
def loadedPage (threadID : String) (db : ChatDB) : List ChatMessage := ChatRepo.listMessageRows threadID hookLimit hookOffset db

/-! ## The hook -/

/-- How far a thread has been opened. -/
inductive Opening where
  | ensuring
  | listing
  | paged (page : List ChatMessage)
  | marking
  | marked
  | opened
deriving DecidableEq, Repr

/-- The page has been put in place. -/
def Opening.shown : Opening → Bool
  | .marking | .marked | .opened => true
  | _ => false

/-- A browser with a thread, and what is on its way to it. -/
structure ChatView where
  db : ChatDB
  clock : Time
  opening : Opening
  thread : Option String
  messages : List ChatMessage
  events : List ChatMessage
  answers : List ChatMessage

inductive ViewMove where
  | server (s : ChatSql)
  | send (id text clientMsgID : String)
  | pass (later : Time)
  | ensured
  | readPage
  | showPage
  | markRead
  | finish
  | deliver (m : ChatMessage)
  | answer (m : ChatMessage)
deriving DecidableEq, Repr

/-- A message is put at the end, unless it is there. -/
def addMessage (prev : List ChatMessage) (m : ChatMessage) : List ChatMessage :=
  if prev.any (·.id == m.id) then prev else prev ++ [m]

/-- The message a statement stores, or finds stored. -/
def ChatSql.stores (now : Time) (db : ChatDB) : ChatSql → List ChatMessage
  | insertMessage id threadID userID text clientMsgID =>
    match ChatRepo.insertMessage now id threadID userID text clientMsgID db with
    | (.ok (m, _), _) => [m]
    | (.error _, _) => []
  | _ => []

namespace ChatView

variable (user threadID : String)

/-- A statement at the server, by whomever; the message it stores is told. -/
def serve (s : ChatSql) (v : ChatView) : ChatView :=
  { v with db := (s.run v.clock v.db).2, events := v.events ++ s.stores v.clock v.db }

/-- `onEvent`: a message of another thread is none of the hook's. -/
def onEvent (m : ChatMessage) (v : ChatView) : ChatView :=
  if v.thread = some m.threadID then { v with messages := addMessage v.messages m } else v

def step : ViewMove → ChatView → Option ChatView
  | .server s, v => some (v.serve s)
  | .send id text clientMsgID, v =>
    if v.thread = some threadID then
      let s := ChatSql.insertMessage id threadID user text clientMsgID
      some { v.serve s with answers := v.answers ++ s.stores v.clock v.db }
    else none
  | .pass later, v => if v.clock ≤ later then some { v with clock := later } else none
  | .ensured, v => if v.opening = .ensuring then some { v with opening := .listing, thread := some threadID } else none
  | .readPage, v => if v.opening = .listing then some { v with opening := .paged (loadedPage threadID v.db) } else none
  | .showPage, v =>
    match v.opening with
    | .paged page => some { v with opening := .marking, messages := page }
    | _ => none
  | .markRead, v => if v.opening = .marking then some { v.serve (.markRead threadID user) with opening := .marked } else none
  | .finish, v => if v.opening = .marked then some { v with opening := .opened } else none
  | .deliver m, v => if m ∈ v.events then some { v.onEvent m with events := v.events.erase m } else none
  | .answer m, v =>
    if m ∈ v.answers then some { v with messages := addMessage v.messages m, answers := v.answers.erase m } else none

def play : List ViewMove → ChatView → Option ChatView
  | [], v => some v
  | mv :: mvs, v => (step user threadID mv v).bind (play mvs)

/-- Nothing of the thread is open; what is on its way are events of messages there are. -/
structure Begins (v : ChatView) : Prop where
  opening : v.opening = .ensuring
  thread : v.thread = none
  messages : v.messages = []
  answers : v.answers = []
  events : ∀ m ∈ v.events, m ∈ v.db.messages.rows

/-- The thread has been opened, and all has arrived. -/
structure Quiet (v : ChatView) : Prop where
  opening : v.opening = .opened
  events : v.events = []
  answers : v.answers = []

/-- What is shown is complete: every message that is not older than the page is shown once, the newest one is shown, and so is
what lies between the watermark there was and the one that is stored. -/
structure Complete (page : List ChatMessage) (v₀ v : ChatView) : Prop where
  once : ∀ m ∈ v.db.messagesOf threadID, (∀ p ∈ page.head?, p.createdAt ≤ m.createdAt) → v.messages.count m = 1
  newest : ∀ m ∈ v.db.messagesOf threadID, (∀ m' ∈ v.db.messagesOf threadID, m'.createdAt ≤ m.createdAt) → m ∈ v.messages
  read : ∀ m ∈ v.db.messagesOf threadID,
    (∃ x ∈ v.db.messagesOf threadID, v.db.watermark threadID user = some x.id ∧ m.createdAt ≤ x.createdAt) →
    (∀ y ∈ v.db.messagesOf threadID, v₀.db.watermark threadID user = some y.id → y.createdAt < m.createdAt) → m ∈ v.messages

/-- Every message the thread has is on the page that has come, or is on its way. -/
def PageSound (v : ChatView) : Prop :=
  ∀ page, v.opening = .paged page → ∀ m ∈ v.db.messagesOf threadID, m ∈ page ∨ m ∈ v.events ∨ m ∈ v.answers

end ChatView

/-! ## The statements and the messages -/

section Statements

variable {now : Time} {db db' : ChatDB}

/-- A statement that stores a message. -/
theorem ChatRepo.insertMessage_rows {id threadID userID text clientMsgID : String} {a : ChatMessage × ChatThread}
    (h : insertMessage now id threadID userID text clientMsgID db = (.ok a, db')) :
    a.1 ∈ db'.messages.rows ∧ ∀ m, m ∈ db'.messages.rows ↔ m ∈ db.messages.rows ∨ m = a.1 := by
  obtain ⟨db₁, hput, htouch, -⟩ := insertMessage_ok h
  rw [(touchThread_ok htouch).1]
  cases hold : db.messages.get (sentBefore threadID userID clientMsgID) with
  | some old =>
    rw [putMessage_old hold] at hput
    obtain ⟨heq, rfl⟩ := Prod.mk.inj (Except.ok.inj hput)
    rw [← heq]
    have hmem := (Table.get_mem hold).1
    exact ⟨hmem, fun m => ⟨.inl, fun h => h.elim (fun h => h) fun h => h ▸ hmem⟩⟩
  | none =>
    obtain ⟨-, -, -, -, hins, -⟩ := putMessage_new hold hput
    rw [Table.insert_rows hins]
    refine ⟨List.mem_append_right _ (List.mem_singleton.2 rfl), fun m => ?_⟩
    rw [List.mem_append, List.mem_singleton]

/-- **A statement keeps the messages, and adds those it tells of.** -/
theorem ChatSql.run_messages (now : Time) (s : ChatSql) (db : ChatDB) (m : ChatMessage) :
    m ∈ (s.run now db).2.messages.rows ↔ m ∈ db.messages.rows ∨ m ∈ s.stores now db := by
  cases s with
  | insertMessage id threadID userID text clientMsgID =>
    rcases hrun : ChatRepo.insertMessage now id threadID userID text clientMsgID db with ⟨res, db'⟩
    have hdb : (ChatSql.run now (.insertMessage id threadID userID text clientMsgID) db).2 = db' := congrArg Prod.snd hrun
    simp only [stores]
    rw [hdb, hrun]
    cases res with
    | error err =>
      have hsame := ChatSql.run_error (s := .insertMessage id threadID userID text clientMsgID) (congrArg Prod.fst hrun)
      rw [hdb] at hsame
      rw [hsame]
      simp
    | ok a => simpa using (ChatRepo.insertMessage_rows hrun).2 m
  | ensureThread id kind refID uids =>
    rcases hrun : ChatRepo.ensureThread now id kind refID uids db with ⟨res, db'⟩
    have hdb : (ChatSql.run now (.ensureThread id kind refID uids) db).2 = db' := congrArg Prod.snd hrun
    unfold stores
    rw [hdb]
    cases res with
    | error err =>
      have hsame := ChatSql.run_error (s := .ensureThread id kind refID uids) (congrArg Prod.fst hrun)
      rw [hdb] at hsame
      rw [hsame]
      simp
    | ok r =>
      obtain ⟨db₁, h₁, h₂⟩ := ChatRepo.ensureThread_ok hrun
      rw [(ChatRepo.upsertParticipants_ok h₂).2.1, (ChatRepo.upsertThread_ok h₁).1]
      simp
  | markRead threadID userID =>
    rcases hrun : ChatRepo.markRead now threadID userID db with ⟨res, db'⟩
    have hdb : (ChatSql.run now (.markRead threadID userID) db).2 = db' := congrArg Prod.snd hrun
    unfold stores
    rw [hdb]
    cases res with
    | error err =>
      have hsame := ChatSql.run_error (s := .markRead threadID userID) (congrArg Prod.fst hrun)
      rw [hdb] at hsame
      rw [hsame]
      simp
    | ok _ =>
      rw [(ChatRepo.markRead_ok hrun).2]
      simp
  | getThread | listParticipants | loadReads => simp [ChatSql.run, stores]

/-- Two messages with one identifier are one. -/
theorem ChatDB.message_eq (db : ChatDB) {m m' : ChatMessage} (hm : m ∈ db.messages.rows) (hm' : m' ∈ db.messages.rows)
    (hid : m.id = m'.id) : m = m' :=
  Table.eq_of_clash db.messages hm hm' (by simp [messageSchema, hid])

/-- A message of one thread is in no other's. -/
theorem ChatDB.mem_messagesOf {threadID : String} {m : ChatMessage} :
    m ∈ db.messagesOf threadID ↔ m ∈ db.messages.rows ∧ m.threadID = threadID := by
  simp [messagesOf, Table.select]

theorem ChatDB.messages_nodup (db : ChatDB) : db.messages.rows.Nodup :=
  db.messages.noClash.imp fun h hab => by simp [hab, messageSchema] at h

/-- The page that is loaded is of messages there are, each once, and of two hundred at most. -/
theorem loadedPage_rows (threadID : String) (db : ChatDB) : (loadedPage threadID db).Nodup ∧
    (loadedPage threadID db).length ≤ 200 ∧ ∀ m ∈ loadedPage threadID db, m ∈ db.messages.rows := by
  have hperm := List.perm_insertionSort (fun a b : ChatMessage => a.createdAt ≤ b.createdAt) (db.messagesOf threadID)
  have hsub : (loadedPage threadID db).Sublist ((db.messagesOf threadID).insertionSort (·.createdAt ≤ ·.createdAt)) :=
    (List.take_sublist _ _).trans (List.drop_sublist _ _)
  refine ⟨hsub.nodup (hperm.nodup_iff.2 (db.messages_nodup.filter _)), ?_, ?_⟩
  · have hlimit : hookLimit = 200 := by decide +kernel
    simp only [loadedPage, ChatRepo.listMessageRows, List.length_take, hlimit]
    omega
  · exact fun m hm => (ChatDB.mem_messagesOf.1 (hperm.mem_iff.1 (hsub.subset hm))).1

end Statements

theorem mem_addMessage {prev : List ChatMessage} {m x : ChatMessage} (h : x ∈ addMessage prev m) : x ∈ prev ∨ x = m := by
  unfold addMessage at h
  split at h
  · exact .inl h
  · simpa using h

theorem addMessage_keeps {prev : List ChatMessage} {x : ChatMessage} (m : ChatMessage) (h : x ∈ prev) : x ∈ addMessage prev m := by
  unfold addMessage
  split
  · exact h
  · exact List.mem_append_left _ h

/-- A message is found under its identifier, where that tells messages apart. -/
theorem addMessage_mem {prev : List ChatMessage} {m : ChatMessage} (h : ∀ x ∈ prev, x.id = m.id → x = m) :
    m ∈ addMessage prev m := by
  unfold addMessage
  split
  · rename_i hany
    obtain ⟨x, hx, hid⟩ := List.any_eq_true.1 hany
    exact h x hx (beq_iff_eq.1 hid) ▸ hx
  · simp

theorem addMessage_nodup {prev : List ChatMessage} (m : ChatMessage) (h : prev.Nodup) : (addMessage prev m).Nodup := by
  unfold addMessage
  split
  · exact h
  · rename_i hany
    refine List.nodup_append.2 ⟨h, List.nodup_singleton _, fun x hx y hy hxy => hany ?_⟩
    rw [List.mem_singleton.1 hy] at hxy
    exact List.any_eq_true.2 ⟨x, hx, by simp [hxy]⟩

/-! ## A run of the hook -/

namespace ChatView

variable {user threadID : String} {v v' v₀ : ChatView}

/-- What a browser holds of the thread is stored, and each message once. -/
structure Known (threadID : String) (v : ChatView) : Prop where
  stored : ∀ m, m ∈ v.messages ∨ m ∈ v.events ∨ m ∈ v.answers → m ∈ v.db.messages.rows
  once : v.messages.Nodup
  page : ∀ page, v.opening = .paged page → page.Nodup ∧ page.length ≤ 200 ∧ ∀ m ∈ page, m ∈ v.db.messages.rows
  thread : v.opening ≠ .ensuring → v.thread = some threadID

/-- Every message of the thread is shown, or on its way. -/
def Covered (threadID : String) (v : ChatView) : Prop :=
  ∀ m ∈ v.db.messagesOf threadID, m ∈ v.messages ∨ m ∈ v.events ∨ m ∈ v.answers

theorem Begins.known (h : v.Begins) : v.Known threadID where
  stored m hm := by
    rw [h.messages, h.answers] at hm
    simp only [List.not_mem_nil, false_or, or_false] at hm
    exact h.events m hm
  once := by simp [h.messages]
  page page hpage := by simp [h.opening] at hpage
  thread hne := absurd h.opening hne

theorem Known.serve (h : v.Known threadID) (s : ChatSql) : (v.serve s).Known threadID where
  stored m hm := by
    simp only [ChatView.serve, List.mem_append] at hm ⊢
    rw [ChatSql.run_messages]
    rcases hm with hm | (hm | hm) | hm
    · exact .inl (h.stored m (.inl hm))
    · exact .inl (h.stored m (.inr (.inl hm)))
    · exact .inr hm
    · exact .inl (h.stored m (.inr (.inr hm)))
  once := h.once
  page page hpage := by
    obtain ⟨hnodup, hlen, hrows⟩ := h.page page hpage
    exact ⟨hnodup, hlen, fun m hm => (ChatSql.run_messages ..).2 (.inl (hrows m hm))⟩
  thread := h.thread

/-- A message that comes in is there afterwards, and so is what was shown. -/
theorem Known.add (h : v.Known threadID) {m : ChatMessage} (hm : m ∈ v.db.messages.rows) {events answers : List ChatMessage}
    (he : ∀ x ∈ events, x ∈ v.events) (ha : ∀ x ∈ answers, x ∈ v.answers) :
    Known threadID { v with messages := addMessage v.messages m, events := events, answers := answers } where
  stored x hx := by
    rcases hx with hx | hx | hx
    · rcases mem_addMessage hx with hx | rfl
      · exact h.stored x (.inl hx)
      · exact hm
    · exact h.stored x (.inr (.inl (he x hx)))
    · exact h.stored x (.inr (.inr (ha x hx)))
  once := addMessage_nodup m h.once
  page := h.page
  thread := h.thread

theorem Known.shown (h : v.Known threadID) {m : ChatMessage} (hm : m ∈ v.db.messages.rows) : m ∈ addMessage v.messages m :=
  addMessage_mem fun x hx hid => ChatDB.message_eq v.db (h.stored x (.inl hx)) hm hid

/-- **A step keeps what is known.** -/
theorem Known.step {mv : ViewMove} (h : v.Known threadID) (hs : step user threadID mv v = some v') : v'.Known threadID := by
  cases mv with
  | server s =>
    obtain rfl := Option.some.inj hs
    exact h.serve s
  | send id text clientMsgID =>
    simp only [ChatView.step, Option.ite_none_right_eq_some, Option.some.injEq] at hs
    obtain ⟨-, rfl⟩ := hs
    have hserved := h.serve (.insertMessage id threadID user text clientMsgID)
    exact {
      stored := fun m hm => by
        rcases hm with hm | hm | hm
        · exact hserved.stored m (.inl hm)
        · exact hserved.stored m (.inr (.inl hm))
        · rcases List.mem_append.1 hm with hm | hm
          · exact hserved.stored m (.inr (.inr hm))
          · exact hserved.stored m (.inr (.inl (List.mem_append_right _ hm)))
      once := hserved.once
      page := hserved.page
      thread := hserved.thread }
  | pass later =>
    simp only [ChatView.step, Option.ite_none_right_eq_some, Option.some.injEq] at hs
    obtain ⟨-, rfl⟩ := hs
    exact ⟨h.stored, h.once, h.page, h.thread⟩
  | ensured =>
    simp only [ChatView.step, Option.ite_none_right_eq_some, Option.some.injEq] at hs
    obtain ⟨-, rfl⟩ := hs
    exact ⟨h.stored, h.once, nofun, fun _ => rfl⟩
  | readPage =>
    simp only [ChatView.step, Option.ite_none_right_eq_some, Option.some.injEq] at hs
    obtain ⟨hlisting, rfl⟩ := hs
    refine ⟨h.stored, h.once, fun page hpage => ?_, fun _ => h.thread (by simp [hlisting])⟩
    obtain rfl := Opening.paged.inj hpage
    exact loadedPage_rows threadID v.db
  | showPage =>
    cases hop : v.opening with
    | paged page =>
      simp only [ChatView.step, hop, Option.some.injEq] at hs
      obtain rfl := hs
      obtain ⟨hnodup, -, hrows⟩ := h.page page hop
      refine ⟨fun m hm => ?_, hnodup, nofun, fun _ => h.thread (by simp [hop])⟩
      rcases hm with hm | hm
      · exact hrows m hm
      · exact h.stored m (.inr hm)
    | _ => simp [ChatView.step, hop] at hs
  | markRead =>
    simp only [ChatView.step, Option.ite_none_right_eq_some, Option.some.injEq] at hs
    obtain ⟨hmarking, rfl⟩ := hs
    have hserved := h.serve (.markRead threadID user)
    exact ⟨hserved.stored, hserved.once, nofun, fun _ => hserved.thread (by simp [ChatView.serve, hmarking])⟩
  | finish =>
    simp only [ChatView.step, Option.ite_none_right_eq_some, Option.some.injEq] at hs
    obtain ⟨hmarked, rfl⟩ := hs
    exact ⟨h.stored, h.once, nofun, fun _ => h.thread (by simp [hmarked])⟩
  | deliver m =>
    simp only [ChatView.step, Option.ite_none_right_eq_some, Option.some.injEq] at hs
    obtain ⟨hm, rfl⟩ := hs
    have hstored := h.stored m (.inr (.inl hm))
    unfold onEvent
    split
    · exact h.add hstored (fun x hx => List.mem_of_mem_erase hx) fun x hx => hx
    · refine ⟨fun x hx => h.stored x ?_, h.once, h.page, h.thread⟩
      exact hx.imp_right (.imp_left fun hx => List.mem_of_mem_erase hx)
  | answer m =>
    simp only [ChatView.step, Option.ite_none_right_eq_some, Option.some.injEq] at hs
    obtain ⟨hm, rfl⟩ := hs
    exact h.add (h.stored m (.inr (.inr hm))) (fun x hx => hx) fun x hx => List.mem_of_mem_erase hx

/-- **Only the page that is put in place can leave a message out.** -/
theorem Covered.step {mv : ViewMove} (h : v.Covered threadID) (hk : v.Known threadID) (hthread : v.thread = some threadID)
    (hmv : mv ≠ .showPage) (hs : step user threadID mv v = some v') : v'.Covered threadID := by
  have hserve (s : ChatSql) : (v.serve s).Covered threadID := by
    intro m hm
    obtain ⟨hrow, hid⟩ := ChatDB.mem_messagesOf.1 hm
    rcases (ChatSql.run_messages v.clock s v.db m).1 hrow with hold | hnew
    · rcases h m (ChatDB.mem_messagesOf.2 ⟨hold, hid⟩) with hm | hm | hm
      · exact .inl hm
      · exact .inr (.inl (List.mem_append_left _ hm))
      · exact .inr (.inr hm)
    · exact .inr (.inl (List.mem_append_right _ hnew))
  cases mv with
  | server s =>
    obtain rfl := Option.some.inj hs
    exact hserve s
  | send id text clientMsgID =>
    simp only [ChatView.step, Option.ite_none_right_eq_some, Option.some.injEq] at hs
    obtain ⟨-, rfl⟩ := hs
    intro m hm
    exact (hserve _ m hm).imp_right (.imp_right (List.mem_append_left _))
  | markRead =>
    simp only [ChatView.step, Option.ite_none_right_eq_some, Option.some.injEq] at hs
    obtain ⟨-, rfl⟩ := hs
    exact hserve _
  | pass | ensured | readPage | finish =>
    simp only [ChatView.step, Option.ite_none_right_eq_some, Option.some.injEq] at hs
    obtain ⟨-, rfl⟩ := hs
    exact h
  | showPage => exact absurd rfl hmv
  | deliver x =>
    simp only [ChatView.step, Option.ite_none_right_eq_some, Option.some.injEq] at hs
    obtain ⟨hx, rfl⟩ := hs
    unfold onEvent
    split
    · intro m hm
      rcases h m hm with hm | hm | hm
      · exact .inl (addMessage_keeps x hm)
      · by_cases hmx : m = x
        · rw [hmx]
          exact .inl (hk.shown (hk.stored x (.inr (.inl hx))))
        · exact .inr (.inl ((List.mem_erase_of_ne hmx).2 hm))
      · exact .inr (.inr hm)
    · -- an event of another thread is none of this one's messages
      rename_i hother
      intro m hm
      refine (h m hm).imp_right (.imp_left fun hevent => (List.mem_erase_of_ne fun hmx => hother ?_).2 hevent)
      rw [hthread, ← hmx, (ChatDB.mem_messagesOf.1 hm).2]
  | answer x =>
    simp only [ChatView.step, Option.ite_none_right_eq_some, Option.some.injEq] at hs
    obtain ⟨hx, rfl⟩ := hs
    intro m hm
    rcases h m hm with hm | hm | hm
    · exact .inl (addMessage_keeps x hm)
    · exact .inr (.inl hm)
    · by_cases hmx : m = x
      · rw [hmx]
        exact .inl (hk.shown (hk.stored x (.inr (.inr hx))))
      · exact .inr (.inr ((List.mem_erase_of_ne hmx).2 hm))

/-- A sound page that is put in place leaves nothing out. -/
theorem Covered.showPage (h : v.PageSound threadID) (hs : ChatView.step user threadID .showPage v = some v') :
    v'.Covered threadID := by
  cases hop : v.opening with
  | paged page =>
    simp only [ChatView.step, hop, Option.some.injEq] at hs
    obtain rfl := hs
    exact h page hop
  | _ => simp [ChatView.step, hop] at hs

/-- A page is put in place by the step that puts one, and stays so. -/
theorem shown_step {mv : ViewMove} (hs : step user threadID mv v = some v') (hshown : v'.opening.shown) :
    v.opening.shown ∨ (mv = .showPage ∧ ∃ page, v.opening = .paged page) := by
  cases mv with
  | server s =>
    obtain rfl := Option.some.inj hs
    exact .inl hshown
  | showPage =>
    cases hop : v.opening with
    | paged page => exact .inr ⟨rfl, page, rfl⟩
    | _ => simp [ChatView.step, hop] at hs
  | send | pass | deliver | answer =>
    simp only [ChatView.step, Option.ite_none_right_eq_some, Option.some.injEq] at hs
    obtain ⟨-, rfl⟩ := hs
    first
    | exact .inl hshown
    | unfold onEvent at hshown
      split at hshown <;> exact .inl hshown
  | ensured | readPage =>
    simp only [ChatView.step, Option.ite_none_right_eq_some, Option.some.injEq] at hs
    obtain ⟨-, rfl⟩ := hs
    cases hshown
  | markRead | finish =>
    simp only [ChatView.step, Option.ite_none_right_eq_some, Option.some.injEq] at hs
    obtain ⟨hop, -⟩ := hs
    exact .inl (by rw [hop]; rfl)

theorem Known.play : ∀ (moves : List ViewMove) {v : ChatView}, v.Known threadID → play user threadID moves v = some v' →
    v'.Known threadID
  | [], _, hk, hp => by
    obtain rfl := Option.some.inj hp
    exact hk
  | mv :: moves, v, hk, hp => by
    obtain ⟨v₁, hs, hp⟩ := Option.bind_eq_some_iff.1 hp
    exact Known.play moves (hk.step hs) hp

/-- **A run in which every page that is put in place is sound shows every message of the thread, or has it on its way, once a
page is in place.** -/
theorem covered_of_play : ∀ (moves : List ViewMove) {v : ChatView}, v.Known threadID → (v.opening.shown → v.Covered threadID) →
    play user threadID moves v = some v' →
    (∀ m₁ m₂ v₁, moves = m₁ ++ .showPage :: m₂ → play user threadID m₁ v = some v₁ → v₁.PageSound threadID) →
    v'.opening.shown → v'.Covered threadID
  | [], _, _, hc, hp, _ => by
    obtain rfl := Option.some.inj hp
    exact hc
  | mv :: moves, v, hk, hc, hp, hsound => by
    obtain ⟨v₁, hs, hp⟩ := Option.bind_eq_some_iff.1 hp
    refine covered_of_play moves (hk.step hs) (fun hshown => ?_) hp fun m₁ m₂ v₂ hm hp₁ =>
      hsound (mv :: m₁) m₂ v₂ (by rw [hm, List.cons_append]) (by rw [play, hs]; exact hp₁)
    by_cases hmv : mv = .showPage
    · subst hmv
      exact Covered.showPage (hsound [] moves v rfl rfl) hs
    · rcases shown_step hs hshown with hbefore | ⟨heq, -⟩
      · refine (hc hbefore).step hk (hk.thread fun hop => ?_) hmv hs
        rw [hop] at hbefore
        cases hbefore
      · exact absurd heq hmv

/-- In a run that comes to show a page, one is put in place. -/
theorem shows_page : ∀ (moves : List ViewMove) {v : ChatView}, play user threadID moves v = some v' → v.opening.shown = false →
    v'.opening.shown → ∃ m₁ m₂ v₁ page, moves = m₁ ++ .showPage :: m₂ ∧ play user threadID m₁ v = some v₁ ∧
      v₁.opening = .paged page
  | [], v, hp, hbefore, hafter => by
    obtain rfl := Option.some.inj hp
    rw [hbefore] at hafter
    cases hafter
  | mv :: moves, v, hp, hbefore, hafter => by
    obtain ⟨v₁, hs, hp⟩ := Option.bind_eq_some_iff.1 hp
    cases hshown : v₁.opening.shown with
    | true =>
      rcases shown_step hs hshown with hv | ⟨rfl, page, hop⟩
      · rw [hbefore] at hv
        cases hv
      · exact ⟨[], moves, v, page, rfl, rfl, hop⟩
    | false =>
      obtain ⟨m₁, m₂, v₂, page, rfl, hp₁, hop⟩ := shows_page moves hp hshown hafter
      exact ⟨mv :: m₁, m₂, v₂, page, by rw [List.cons_append], by rw [play, hs]; exact hp₁, hop⟩

/-- **Once a thread is open and all has arrived, what is shown is complete, if every message the thread has when the page is put
in place is on the page or still on its way.** -/
theorem view_complete (moves : List ViewMove) (h0 : v₀.Begins) (h : play user threadID moves v₀ = some v)
    (hsound : ∀ m₁ m₂ v₁, moves = m₁ ++ .showPage :: m₂ → play user threadID m₁ v₀ = some v₁ → v₁.PageSound threadID)
    (hquiet : v.Quiet) :
    ∃ m₁ m₂ v₁ page, moves = m₁ ++ .showPage :: m₂ ∧ play user threadID m₁ v₀ = some v₁ ∧ v₁.opening = .paged page ∧
      Complete user threadID page v₀ v := by
  have hbefore : v₀.opening.shown = false := by rw [h0.opening]; rfl
  have hafter : v.opening.shown := by rw [hquiet.opening]; rfl
  have hcovered := covered_of_play moves h0.known (fun hs => by rw [hbefore] at hs; cases hs) h hsound hafter
  have hall : ∀ m ∈ v.db.messagesOf threadID, m ∈ v.messages := by
    intro m hm
    have := hcovered m hm
    rw [hquiet.events, hquiet.answers] at this
    simpa using this
  obtain ⟨m₁, m₂, v₁, page, hmoves, hp₁, hop⟩ := shows_page moves h hbefore hafter
  exact ⟨m₁, m₂, v₁, page, hmoves, hp₁, hop, {
    once := fun m hm _ => List.count_eq_one_of_mem (h0.known.play moves h).once (hall m hm)
    newest := fun m hm _ => hall m hm
    read := fun m hm _ _ => hall m hm }⟩

/-- **A thread of more messages than a page holds, of which none is on its way, is never shown whole.** -/
theorem long_unsound (moves : List ViewMove) (h0 : v₀.Begins) (h : play user threadID moves v₀ = some v) {page : List ChatMessage}
    (hpage : v.opening = .paged page) (hlong : 200 < (v.db.messagesOf threadID).length) (he : v.events = []) (ha : v.answers = []) :
    ¬ v.PageSound threadID := by
  intro hsound
  obtain ⟨-, hlen, -⟩ := (h0.known.play moves h).page page hpage
  have hsub : v.db.messagesOf threadID ⊆ page := by
    intro m hm
    have := hsound page hpage m hm
    rw [he, ha] at this
    simpa using this
  have hnodup : (v.db.messagesOf threadID).Nodup := v.db.messages_nodup.filter _
  have := (List.subperm_of_subset hnodup hsub).length_le
  omega

end ChatView

/-! ## A message that comes before the page -/

/-- A thread of two, with nothing said. -/
def newThread : ChatDB :=
  { emptyChat with
    threads := ⟨[{ id := firstThread, kind := "venue_booking", refID := "bbbbbbbb-0000-0000-0000-000000000000", createdAt := 0, updatedAt := 0 }],
      by decide, by decide⟩
    participants := ⟨[{ threadID := firstThread, userID := firstUser, joinedAt := 0 },
      { threadID := firstThread, userID := secondUser, joinedAt := 0 }], by decide, by decide⟩ }

def closedView : ChatView := ⟨newThread, 1, .ensuring, none, [], [], []⟩

theorem closedView_begins : closedView.Begins := ⟨rfl, rfl, rfl, rfl, fun _ hm => absurd hm List.not_mem_nil⟩

def greeting : ChatMessage := ⟨"c0000000-0000-0000-0000-000000000001", firstThread, secondUser, "Hello", "m1", 1⟩

def greets : ViewMove := .server (.insertMessage greeting.id firstThread secondUser greeting.text greeting.clientMsgID)

/-- The page is read, a message is told, and the page is put in its place. -/
def pageLate : List ViewMove := [.ensured, .readPage, greets, .deliver greeting, .showPage, .markRead, .finish]

def pageEarly : List ViewMove := [.ensured, .readPage, .showPage, greets, .deliver greeting, .markRead, .finish]

/-- What is told of a view. -/
def ChatView.told (v : ChatView) : List ChatMessage × List ChatMessage × Opening × List ChatMessage × List ChatMessage :=
  (v.db.messagesOf firstThread, v.messages, v.opening, v.events, v.answers)

theorem pageEarly_told : (ChatView.play firstUser firstThread pageEarly closedView).map (·.told) =
    some ([greeting], [greeting], .opened, [], []) := by decide +kernel

theorem pageLate_told : (ChatView.play firstUser firstThread pageLate closedView).map (·.told) =
    some ([greeting], [], .opened, [], []) := by decide +kernel

theorem pageEarly_complete : ∃ v m₁ m₂ v₁ page, pageEarly = m₁ ++ .showPage :: m₂ ∧
    ChatView.play firstUser firstThread m₁ closedView = some v₁ ∧ v₁.opening = .paged page ∧
    ChatView.Complete firstUser firstThread page closedView v ∧ v.messages = [greeting] := by
  obtain ⟨v, hplay, htold⟩ := Option.map_eq_some_iff.1 pageEarly_told
  obtain ⟨-, hmessages, hopening, hevents, hanswers⟩ : _ ∧ _ ∧ _ ∧ _ ∧ _ := by simpa only [ChatView.told, Prod.mk.injEq] using htold
  obtain ⟨m₁, m₂, v₁, page, hmoves, hp₁, hop, hcomplete⟩ := ChatView.view_complete pageEarly closedView_begins hplay
    (fun m₁ m₂ v₁ hmoves hp₁ page _ m hm => by
      have hparts : ([.ensured, .readPage] : List ViewMove) ++ .showPage :: [greets, .deliver greeting, .markRead, .finish] =
        m₁ ++ .showPage :: m₂ := hmoves
      obtain ⟨rfl, -, -⟩ := (List.append_cons_inj_of_notMem (by decide) (by decide)).1 hparts
      obtain rfl := Option.some.inj hp₁
      exact absurd hm List.not_mem_nil)
    ⟨hopening, hevents, hanswers⟩
  exact ⟨v, m₁, m₂, v₁, page, hmoves, hp₁, hop, hcomplete, hmessages⟩

/-- The message that came before the page is not shown, and it is the newest. -/
theorem newest_missing : ¬ ∀ (user threadID : String) (moves : List ViewMove) (v₀ v : ChatView), v₀.Begins →
    ChatView.play user threadID moves v₀ = some v → v.Quiet →
    ∃ m₁ m₂ v₁ page, moves = m₁ ++ .showPage :: m₂ ∧ ChatView.play user threadID m₁ v₀ = some v₁ ∧ v₁.opening = .paged page ∧
      ChatView.Complete user threadID page v₀ v := by
  intro h
  obtain ⟨v, hplay, htold⟩ := Option.map_eq_some_iff.1 pageLate_told
  obtain ⟨hthread, hmessages, hopening, hevents, hanswers⟩ : _ ∧ _ ∧ _ ∧ _ ∧ _ := by
    simpa only [ChatView.told, Prod.mk.injEq] using htold
  obtain ⟨m₁, m₂, v₁, page, -, -, -, hcomplete⟩ :=
    h firstUser firstThread pageLate closedView v closedView_begins hplay ⟨hopening, hevents, hanswers⟩
  have hshown := hcomplete.newest greeting (by simp [hthread]) fun m hm => by
    rw [hthread, List.mem_singleton] at hm
    rw [hm]
  rw [hmessages] at hshown
  exact absurd hshown List.not_mem_nil

end Agregator
