import Agregator.AuthOAuth
import Agregator.ChatStore
import Agregator.ConcMoments
/-!
# ChatHead — the last message of a thread, and messages that are sent again

A message that is sent again is not stored again, and whoever sends it gets the message that is there.  But the thread takes it
for its last one.
-/
namespace Agregator

open Rel Conc

/-! ## The system -/

inductive ChatCall where
  | ensureThread (kind refID actorUserID : String) (participants : List String)
  | sendMessage (threadID userID text clientMsgID : String)
  | markRead (threadID userID : String)
deriving DecidableEq

inductive ChatAnswer where
  | thread (res : Except Err ChatThread)
  | sent (res : Except Err (ChatMessage × ChatThread))
  | read (res : Except Err (Option ChatThread))

def ChatCall.prog (R : ChatRules) : ChatCall → ChatProg ChatAnswer
  | ensureThread kind refID actorUserID participants =>
    return .thread (← ChatUseCase.ensureThread R kind refID actorUserID participants)
  | sendMessage threadID userID text clientMsgID => return .sent (← ChatUseCase.sendMessage R threadID userID text clientMsgID)
  | markRead threadID userID => return .read (← ChatUseCase.markRead R threadID userID)

abbrev ChatWorld := SqlWorld ChatDB

def chatSys (R : ChatRules) : Sys ChatWorld ChatCall ChatOp ChatRes ChatAnswer := sqlSys chatRules (ChatCall.prog R)

abbrev ChatMoment := Moment ChatWorld ChatCall ChatOp ChatRes ChatAnswer

abbrev ChatConfig := Config ChatWorld ChatCall ChatOp ChatRes ChatAnswer

/-! ## What the tables are to say -/

/-- The messages of a thread, as they came in. -/
def ChatDB.messagesOf (db : ChatDB) (threadID : String) : List ChatMessage := db.messages.select (·.threadID == threadID)

/-- Every message is of a thread, and every thread knows its last one. -/
structure ChatDB.HeadNewest (db : ChatDB) : Prop where
  threaded : ∀ m ∈ db.messages.rows, (ChatRepo.threadRow m.threadID db).isSome
  newest : ∀ r ∈ db.threads.rows, r.lastMessageID = (db.messagesOf r.id).getLast?.map (·.id)

/-- At this moment a message is stored again, that has been stored before. -/
structure ChatMoment.Resends (m : ChatMoment) (threadID userID clientMsgID : String) (old : ChatMessage) : Prop where
  op : ∃ id text, m.op = .sql (.insertMessage id threadID userID text clientMsgID)
  old : m.before.world.db.messages.get (ChatRepo.sentBefore threadID userID clientMsgID) = some old

/-- The operation takes effect. -/
def ChatMoment.Lands (m : ChatMoment) : Prop :=
  ∃ s a, m.op = .sql s ∧ s.run m.before.world.clock m.before.world.db = (.ok a, m.after.db)

/-- What a thread says of its last message. -/
def ChatDB.headOf (db : ChatDB) (threadID : String) : Option (Option String × Option Time) :=
  (ChatRepo.threadRow threadID db).map fun r => (r.lastMessageID, r.lastMessageAt)

/-- A message that is stored again adds nothing, comes back as it was and leaves its thread and all counters as they were. -/
structure ChatMoment.Idempotent (m : ChatMoment) (threadID userID clientMsgID : String) (old : ChatMessage) : Prop where
  messages : m.after.db.messages = m.before.world.db.messages
  answer : ∀ id text a, m.event = ⟨.sql (.insertMessage id threadID userID text clientMsgID), .ok a⟩ → a.1 = old
  head : m.after.db.headOf threadID = m.before.world.db.headOf threadID
  counters : m.after.db.participants = m.before.world.db.participants

/-- The message that is stored again is the last one of its thread, and was stored at this very time. -/
def ChatMoment.OfHead (m : ChatMoment) (threadID : String) (old : ChatMessage) : Prop :=
  ∀ r, ChatRepo.threadRow threadID m.before.world.db = some r →
    r.lastMessageID = some old.id ∧ r.lastMessageAt = some m.before.world.clock

/-! ## The statements -/

namespace ChatRepo

variable {db db' : ChatDB} {now : Time} {id threadID userID text clientMsgID : String}

/-- A thread that is told of a message. -/
def told (now : Time) (messageID : String) (r : ThreadRow) : ThreadRow :=
  { r with lastMessageID := some messageID, lastMessageAt := some now, updatedAt := now }

theorem touchThread_ok (h : touchThread now threadID id db = .ok db') :
    db'.messages = db.messages ∧ db'.participants = db.participants ∧ db'.reads = db.reads ∧
      db.threads.update (·.id == threadID) (told now id) = .ok db'.threads := by
  unfold touchThread at h
  split at h
  · cases h
  · rename_i threads hu
    cases h
    exact ⟨rfl, rfl, rfl, hu⟩

theorem putMessage_old {old : ChatMessage} (h : db.messages.get (sentBefore threadID userID clientMsgID) = some old) :
    putMessage now id threadID userID text clientMsgID db = .ok (old, db) := by
  unfold putMessage
  rw [h]

/-- What a message that is not there yet does. -/
theorem putMessage_new {m : ChatMessage} (h : db.messages.get (sentBefore threadID userID clientMsgID) = none)
    (hp : putMessage now id threadID userID text clientMsgID db = .ok (m, db')) :
    m = ⟨id, threadID, userID, text, clientMsgID, now⟩ ∧ (threadRow threadID db).isSome ∧ db'.threads = db.threads ∧
      db'.reads = db.reads ∧ db.messages.insert m = .ok db'.messages ∧
      db.participants.update (fun r => r.threadID == threadID && r.userID != userID && r.leftAt.isNone)
        (fun r => { r with unreadCount := r.unreadCount + 1 }) = .ok db'.participants := by
  unfold putMessage at hp
  rw [h] at hp
  simp only at hp
  by_cases ht : (threadRow threadID db).isNone = true
  · rw [if_pos ht] at hp
    cases hp
  rw [if_neg ht] at hp
  split at hp
  · cases hp
  rename_i messages hins
  split at hp
  · cases hp
  rename_i db₁ hinc
  cases hp
  unfold incrementUnread at hinc
  split at hinc
  · cases hinc
  rename_i participants hu
  cases hinc
  exact ⟨rfl, Option.isSome_iff_ne_none.2 (by simpa using ht), rfl, rfl, hins, hu⟩

/-- A transaction that stores a message stores it and tells the thread. -/
theorem insertMessage_ok {a : ChatMessage × ChatThread} (h : insertMessage now id threadID userID text clientMsgID db = (.ok a, db')) :
    ∃ db₁, putMessage now id threadID userID text clientMsgID db = .ok (a.1, db₁) ∧ touchThread now threadID a.1.id db₁ = .ok db' ∧
      (threadRow threadID db').isSome := by
  unfold insertMessage at h
  split at h
  · cases h
  rename_i m db₁ hput
  split at h
  · cases h
  rename_i db₂ htouch
  split at h
  · cases h
  rename_i r hr
  cases h
  exact ⟨db₁, hput, htouch, by rw [hr]; rfl⟩

theorem upsertParticipant_ok (h : upsertParticipant now threadID userID db = .ok db') :
    db'.threads = db.threads ∧ db'.messages = db.messages ∧ db'.reads = db.reads := by
  unfold upsertParticipant at h
  simp only at h
  split at h
  all_goals
    split at h
    · cases h
    · cases h
      exact ⟨rfl, rfl, rfl⟩

theorem upsertParticipants_ok : ∀ {uids : List String} {db db' : ChatDB}, upsertParticipants now threadID uids db = .ok db' →
    db'.threads = db.threads ∧ db'.messages = db.messages ∧ db'.reads = db.reads
  | [], _, _, h => by
    cases h
    exact ⟨rfl, rfl, rfl⟩
  | uid :: uids, db, db', h => by
    unfold upsertParticipants at h
    split at h
    · exact upsertParticipants_ok h
    split at h
    · cases h
    · rename_i db₁ h₁
      obtain ⟨ht, hm, hr⟩ := upsertParticipants_ok h
      obtain ⟨ht₁, hm₁, hr₁⟩ := upsertParticipant_ok h₁
      exact ⟨ht.trans ht₁, hm.trans hm₁, hr.trans hr₁⟩

/-- A thread is there, or is new. -/
theorem upsertThread_ok {kind refID : String} {r : ThreadRow} (h : upsertThread now id kind refID db = .ok (r, db')) :
    db'.messages = db.messages ∧ db'.participants = db.participants ∧ db'.reads = db.reads ∧
      (db.threads.update (fun x => x.kind == kind && x.refID == refID) (fun x => { x with updatedAt := now }) = .ok db'.threads ∨
        db.threads.insert { id := id, kind := kind, refID := refID, createdAt := now, updatedAt := now } = .ok db'.threads) := by
  unfold upsertThread at h
  simp only at h
  split at h
  all_goals
    split at h
    · cases h
    · rename_i hu
      cases h
      exact ⟨rfl, rfl, rfl, by simp [hu]⟩

theorem ensureThread_ok {kind refID : String} {uids : List String} {r : ThreadRow}
    (h : ensureThread now id kind refID uids db = (.ok r, db')) :
    ∃ db₁, upsertThread now id kind refID db = .ok (r, db₁) ∧ upsertParticipants now r.id uids db₁ = .ok db' := by
  unfold ensureThread at h
  split at h
  · cases h
  rename_i r₁ db₁ h₁
  split at h
  · cases h
  rename_i db₂ h₂
  cases h
  exact ⟨db₁, h₁, h₂⟩

/-- What is read is noted, and the counter of the reader starts again. -/
theorem markRead_ok (h : markRead now threadID userID db = (.ok (), db')) :
    db'.threads = db.threads ∧ db'.messages = db.messages := by
  unfold markRead at h
  simp only at h
  split at h
  · cases h
    exact ⟨rfl, rfl⟩
  split at h
  · cases h
  split at h
  · cases h
  · rename_i hr
    cases h
    unfold resetUnread at hr
    split at hr
    · cases hr
    · cases hr
      exact ⟨rfl, rfl⟩

end ChatRepo

/-- **A transaction that fails leaves everything as it was.** -/
theorem ChatSql.run_error {s : ChatSql} {now : Time} {db : ChatDB} {err : Err} (h : (s.run now db).1 = .error err) :
    (s.run now db).2 = db := by
  cases s with
  | getThread id | listParticipants threadID | loadReads threadID => rfl
  | ensureThread id kind refID uids =>
    simp only [ChatSql.run, ChatRepo.ensureThread] at h ⊢
    split at h
    · rfl
    split at h
    · rfl
    · cases h
  | insertMessage id threadID userID text clientMsgID =>
    simp only [ChatSql.run, ChatRepo.insertMessage] at h ⊢
    split at h
    · rfl
    split at h
    · rfl
    split at h
    · rfl
    · cases h
  | markRead threadID userID =>
    simp only [ChatSql.run, ChatRepo.markRead] at h ⊢
    split at h
    · rfl
    split at h
    · rfl
    split at h
    · rfl
    · cases h

/-- An operation takes effect, or changes nothing. -/
theorem ChatMoment.lands_or {R : ChatRules} {m : ChatMoment} (hm : m.Step (chatSys R)) :
    m.after.db = m.before.world.db ∨ ChatMoment.Lands m := by
  rcases SqlOp.Exec.db hm.exec with hdb | ⟨s, hs, hdb⟩
  · exact .inl hdb
  have hdb : m.after.db = (s.run m.before.world.clock m.before.world.db).2 := hdb
  cases hr : (s.run m.before.world.clock m.before.world.db).1 with
  | error err => exact .inl (hdb.trans (ChatSql.run_error hr))
  | ok a => exact .inr ⟨s, a, hs, Prod.ext hr hdb.symm⟩

/-! ## The last message -/

section Head

variable {db db' : ChatDB} {now : Time} {id threadID userID text clientMsgID : String}

/-- The row of a thread is the one its identifier finds. -/
theorem threadRow_of_mem {r : ThreadRow} (h : r ∈ db.threads.rows) : ChatRepo.threadRow r.id db = some r := by
  refine db.threads.get_key h (beq_self_eq_true r.id) fun x hx => ?_
  simp only [threadSchema, hx, Bool.true_or]

theorem threadRow_mem {r : ThreadRow} (h : ChatRepo.threadRow id db = some r) : r ∈ db.threads.rows ∧ r.id = id :=
  ⟨(Table.get_mem h).1, beq_iff_eq.1 (Table.get_mem h).2⟩

theorem threadRow_update {p : ThreadRow → Bool} {f : ThreadRow → ThreadRow} (h : db.threads.update p f = .ok db'.threads)
    (hf : ∀ r, (f r).id = r.id) (id : String) :
    ChatRepo.threadRow id db' = (ChatRepo.threadRow id db).map fun r => if p r then f r else r :=
  Table.get_update h fun r => by rw [hf r]

/-- What changes neither the messages nor what the threads say of them keeps the last messages. -/
theorem ChatDB.HeadNewest.same (h : db.HeadNewest) (ht : db'.threads = db.threads) (hm : db'.messages = db.messages) :
    db'.HeadNewest := by
  constructor
  · rw [hm]
    unfold ChatRepo.threadRow
    rw [ht]
    exact h.threaded
  · rw [ht]
    unfold ChatDB.messagesOf
    rw [hm]
    exact h.newest

/-- So does an update of threads that writes what is so. -/
theorem ChatDB.HeadNewest.updated (h : db.HeadNewest) (hm : db'.messages = db.messages) {p : ThreadRow → Bool}
    {f : ThreadRow → ThreadRow} (hu : db.threads.update p f = .ok db'.threads) (hf : ∀ r, (f r).id = r.id)
    (hsame : ∀ r ∈ db.threads.rows, p r = true → (f r).lastMessageID = r.lastMessageID) : db'.HeadNewest := by
  constructor
  · intro m hmem
    rw [hm] at hmem
    rw [threadRow_update hu hf, Option.isSome_map]
    exact h.threaded m hmem
  · intro r' hr'
    rw [Table.update_rows hu] at hr'
    obtain ⟨r, hr, rfl⟩ := List.mem_map.1 hr'
    have hnew := h.newest r hr
    unfold ChatDB.messagesOf at hnew ⊢
    rw [hm]
    by_cases hp : p r = true
    · rw [if_pos hp, hf, hsame r hr hp]
      exact hnew
    · rw [if_neg hp]
      exact hnew

/-- A new thread has no message. -/
theorem ChatDB.HeadNewest.opened (h : db.HeadNewest) (hm : db'.messages = db.messages) {r : ThreadRow}
    (hr : r.lastMessageID = none) (hi : db.threads.insert r = .ok db'.threads) : db'.HeadNewest := by
  obtain ⟨-, hclash⟩ := Table.of_insert_ok hi
  constructor
  · intro m hmem
    rw [hm] at hmem
    obtain ⟨r₀, hr₀⟩ := Option.isSome_iff_exists.1 (h.threaded m hmem)
    unfold ChatRepo.threadRow at hr₀ ⊢
    rw [Table.get_insert hi, hr₀]
    rfl
  · intro x hx
    rw [Table.insert_rows hi] at hx
    unfold ChatDB.messagesOf
    rw [hm]
    rcases List.mem_append.1 hx with hx | hx
    · exact h.newest x hx
    obtain rfl := List.mem_singleton.1 hx
    have hnone : db.messages.select (·.threadID == x.id) = [] := by
      refine List.filter_eq_nil_iff.2 fun m hmem hid => ?_
      obtain ⟨r₀, hr₀⟩ := Option.isSome_iff_exists.1 (h.threaded m hmem)
      obtain ⟨hmem₀, hid₀⟩ := threadRow_mem hr₀
      have hc := hclash r₀ hmem₀
      simp only [threadSchema, hid₀, hid, Bool.true_or] at hc
      cases hc
    rw [hnone, hr]
    rfl

/-- A message that is stored is the last one of its thread. -/
theorem ChatDB.HeadNewest.stored (h : db.HeadNewest) {m : ChatMessage} (hthread : (ChatRepo.threadRow m.threadID db).isSome)
    (hi : db.messages.insert m = .ok db'.messages)
    (hu : db.threads.update (·.id == m.threadID) (ChatRepo.told now m.id) = .ok db'.threads) : db'.HeadNewest := by
  constructor
  · intro x hx
    rw [threadRow_update hu (fun _ => rfl), Option.isSome_map]
    rw [Table.insert_rows hi] at hx
    rcases List.mem_append.1 hx with hx | hx
    · exact h.threaded x hx
    · rwa [List.mem_singleton.1 hx]
  · intro r' hr'
    rw [Table.update_rows hu] at hr'
    obtain ⟨r, hr, rfl⟩ := List.mem_map.1 hr'
    have hnew := h.newest r hr
    unfold ChatDB.messagesOf at hnew ⊢
    by_cases hid : r.id = m.threadID
    · rw [if_pos (beq_iff_eq.2 hid)]
      show some m.id = ((db'.messages.select fun x => x.threadID == r.id).getLast?).map (·.id)
      rw [Table.select_insert hi, if_pos (beq_iff_eq.2 hid.symm), List.getLast?_append, List.getLast?_singleton]
      rfl
    · rw [if_neg (by rwa [beq_iff_eq]), Table.select_insert hi, if_neg (by rw [beq_iff_eq]; exact fun he => hid he.symm),
        List.append_nil]
      exact hnew

/-- A message that is stored again, in a transaction that succeeds. -/
theorem resent_ok {old : ChatMessage} {a : ChatMessage × ChatThread}
    (hold : db.messages.get (ChatRepo.sentBefore threadID userID clientMsgID) = some old)
    (h : ChatRepo.insertMessage now id threadID userID text clientMsgID db = (.ok a, db')) :
    a.1 = old ∧ db'.messages = db.messages ∧ db'.participants = db.participants ∧ (ChatRepo.threadRow threadID db).isSome ∧
      db.threads.update (·.id == threadID) (ChatRepo.told now old.id) = .ok db'.threads := by
  obtain ⟨db₁, hput, htouch, hsome⟩ := ChatRepo.insertMessage_ok h
  rw [ChatRepo.putMessage_old hold] at hput
  obtain ⟨hold', rfl⟩ : old = a.1 ∧ db = db₁ := Prod.mk.inj (Except.ok.inj hput)
  subst hold'
  obtain ⟨hm, hp, -, hu⟩ := ChatRepo.touchThread_ok htouch
  rw [threadRow_update hu (fun _ => rfl), Option.isSome_map] at hsome
  exact ⟨rfl, hm, hp, hsome, hu⟩

/-- **A transaction keeps the last messages**, unless it stores again a message that is not the last one of its thread. -/
theorem ChatSql.run_newest {s : ChatSql} {a : s.Ans} (h : db.HeadNewest) (hrun : s.run now db = (.ok a, db'))
    (hcur : ∀ id threadID userID text clientMsgID old, s = .insertMessage id threadID userID text clientMsgID →
      db.messages.get (ChatRepo.sentBefore threadID userID clientMsgID) = some old →
      ∀ r, ChatRepo.threadRow threadID db = some r → r.lastMessageID = some old.id) : db'.HeadNewest := by
  cases s with
  | getThread id | listParticipants threadID | loadReads threadID =>
    cases hrun
    exact h
  | markRead threadID userID =>
    obtain ⟨ht, hm⟩ := ChatRepo.markRead_ok hrun
    exact h.same ht hm
  | ensureThread id kind refID uids =>
    obtain ⟨db₁, h₁, h₂⟩ := ChatRepo.ensureThread_ok hrun
    obtain ⟨ht, hm, -⟩ := ChatRepo.upsertParticipants_ok h₂
    obtain ⟨hm₁, -, -, hu | hi⟩ := ChatRepo.upsertThread_ok h₁
    · exact (h.updated hm₁ hu (fun _ => rfl) fun _ _ _ => rfl).same ht hm
    · exact (h.opened hm₁ rfl hi).same ht hm
  | insertMessage id threadID userID text clientMsgID =>
    cases hold : db.messages.get (ChatRepo.sentBefore threadID userID clientMsgID) with
    | some old =>
      obtain ⟨-, hm, -, -, hu⟩ := resent_ok hold hrun
      refine h.updated hm hu (fun _ => rfl) fun r hr hid => ?_
      have hrow : ChatRepo.threadRow threadID db = some r := by
        rw [← beq_iff_eq.1 hid]
        exact threadRow_of_mem hr
      exact (hcur id threadID userID text clientMsgID old rfl hold r hrow).symm
    | none =>
      obtain ⟨db₁, hput, htouch, -⟩ := ChatRepo.insertMessage_ok hrun
      obtain ⟨hmsg, hthread, ht₁, -, hi, -⟩ := ChatRepo.putMessage_new hold hput
      obtain ⟨hm, -, -, hu⟩ := ChatRepo.touchThread_ok htouch
      have hid : a.1.threadID = threadID := by rw [hmsg]
      rw [ht₁] at hu
      rw [← hm] at hi
      rw [← hid] at hthread hu
      exact h.stored hthread hi hu

end Head

/-! ## Every run -/

section Runs

variable {R : ChatRules} {w₀ : ChatWorld} {tr : List ChatMoment} {c : ChatConfig} {m : ChatMoment}
  {threadID userID clientMsgID : String} {old : ChatMessage}

/-- A message that is stored again is never stored twice, comes back as it was and counts for nobody. -/
theorem ChatMoment.Resends.effect (hm : m.Step (chatSys R)) (h : ChatMoment.Resends m threadID userID clientMsgID old) :
    m.after.db.messages = m.before.world.db.messages ∧ m.after.db.participants = m.before.world.db.participants ∧
      ∀ id text a, m.event = ⟨.sql (.insertMessage id threadID userID text clientMsgID), .ok a⟩ → a.1 = old := by
  obtain ⟨⟨id, text, hop⟩, hold⟩ := h
  have key : m.after.db.messages = m.before.world.db.messages ∧ m.after.db.participants = m.before.world.db.participants := by
    rcases ChatMoment.lands_or hm with hdb | ⟨s, a, hs, hrun⟩
    · rw [hdb]
      exact ⟨rfl, rfl⟩
    · obtain rfl : ChatSql.insertMessage id threadID userID text clientMsgID = s := SqlOp.sql.inj (hop.symm.trans hs)
      obtain ⟨-, hmsg, hp, -⟩ := resent_ok hold hrun
      exact ⟨hmsg, hp⟩
  refine ⟨key.1, key.2, fun id' text' a he => ?_⟩
  have hexec := hm.exec
  obtain ⟨b, t, o, r, w'⟩ := m
  cases he
  exact (resent_ok hold (SqlOp.Exec.ok hexec)).1

/-- **A message that is stored again leaves its thread as it was exactly when it is the last one, at the time it was stored.** -/
theorem ChatMoment.Resends.idempotent_iff (hm : m.Step (chatSys R)) (h : ChatMoment.Resends m threadID userID clientMsgID old) :
    ChatMoment.Idempotent m threadID userID clientMsgID old ↔ (ChatMoment.Lands m → ChatMoment.OfHead m threadID old) := by
  obtain ⟨hmsg, hp, hans⟩ := h.effect hm
  obtain ⟨⟨id, text, hop⟩, hold⟩ := h
  constructor
  · rintro hi ⟨s, a, hs, hrun⟩ r hr
    obtain rfl : ChatSql.insertMessage id threadID userID text clientMsgID = s := SqlOp.sql.inj (hop.symm.trans hs)
    obtain ⟨-, -, -, -, hu⟩ := resent_ok hold hrun
    have hhead := hi.head
    unfold ChatDB.headOf at hhead
    rw [threadRow_update hu (fun _ => rfl), hr, Option.map_some, Option.map_some,
      Option.map_some, if_pos (Table.get_mem hr).2] at hhead
    obtain ⟨h₁, h₂⟩ := Prod.ext_iff.1 (Option.some.inj hhead)
    exact ⟨h₁.symm, h₂.symm⟩
  · intro hcur
    refine ⟨hmsg, hans, ?_, hp⟩
    rcases ChatMoment.lands_or hm with hdb | hl
    · rw [hdb]
    have hof := hcur hl
    obtain ⟨s, a, hs, hrun⟩ := hl
    obtain rfl : ChatSql.insertMessage id threadID userID text clientMsgID = s := SqlOp.sql.inj (hop.symm.trans hs)
    obtain ⟨-, -, -, hsome, hu⟩ := resent_ok hold hrun
    obtain ⟨r, hr⟩ := Option.isSome_iff_exists.1 hsome
    obtain ⟨h₁, h₂⟩ := hof r hr
    unfold ChatDB.headOf
    rw [threadRow_update hu (fun _ => rfl), hr, Option.map_some, Option.map_some,
      Option.map_some, if_pos (Table.get_mem hr).2, h₁, h₂]
    rfl

end Runs

/-! ## Whose message a call stores -/

/-- The call stores a message of this user in this thread, under this identifier if it names one. -/
def ChatCall.Sends (R : ChatRules) (c : ChatCall) (tid uid clientMsgID : String) : Prop :=
  ∃ threadID userID text named, c = .sendMessage threadID userID text named ∧ R.parse (trimSpace threadID) = some tid ∧
    R.parse (trimSpace userID) = some uid ∧ (trimSpace named = "" ∨ clientMsgID = trimSpace named)

/-- The message of an answer is that of a transaction of the call. -/
def Stored (R : ChatRules) (c : ChatCall) (a : ChatMessage × ChatThread) (e : Event ChatOp ChatRes) : Prop :=
  ∃ id tid uid text clientMsgID, c.Sends R tid uid clientMsgID ∧
    e = ⟨.sql (.insertMessage id tid uid text clientMsgID), .ok a⟩

theorem parseOr_ok {R : ChatRules} {s msg id : String} (h : ChatUseCase.parseOr R s msg = .ok id) : R.parse (trimSpace s) = some id := by
  unfold ChatUseCase.parseOr at h
  split at h
  · cases h
  · rename_i hp
    cases h
    exact hp

theorem checkIDs_ok {R : ChatRules} {threadID userID tid uid : String} (h : ChatUseCase.checkIDs R threadID userID = .ok (tid, uid)) :
    R.parse (trimSpace threadID) = some tid ∧ R.parse (trimSpace userID) = some uid := by
  unfold ChatUseCase.checkIDs at h
  cases ht : ChatUseCase.parseOr R threadID "invalid thread_id" with
  | error err =>
    rw [ht] at h
    cases h
  | ok t =>
    cases hu : ChatUseCase.parseOr R userID "invalid user_id" with
    | error err =>
      rw [ht, hu] at h
      cases h
    | ok u =>
      rw [ht, hu] at h
      cases h
      exact ⟨parseOr_ok ht, parseOr_ok hu⟩

section Ends

-- what a text is trimmed to decides no branch here
attribute [local irreducible] trimSpace

/-- What a call that finds its thread ends with, the rest of it ends with. -/
theorem withThread_ends {α : Type} {Q : List (Event ChatOp ChatRes) → Except Err α → Prop} {next : ChatProg (Except Err α)}
    (hnext : ∀ h, next.Ends Q h) (herr : ∀ h err, Q h (.error err)) (tid uid : String) (h : List (Event ChatOp ChatRes)) :
    (ChatUseCase.withThread tid uid next).Ends Q h := by
  simp only [ChatUseCase.withThread, Prog.bind_eq]
  refine Prog.Ends.bind (Prog.Ends.of_forall (fun h a => ?_) _ _)
  cases a with
  | error err => exact herr h err
  | ok found =>
    cases found with
    | none => exact herr h _
    | some t => exact Prog.Ends.ite (herr h _) (hnext h)

theorem storeMessage_ends {R : ChatRules} {c : ChatCall} {tid uid text clientMsgID : String} (hc : c.Sends R tid uid clientMsgID)
    (h : List (Event ChatOp ChatRes)) :
    (ChatRepo.storeMessage tid uid text clientMsgID).Ends (fun h' a => ∀ x, a = .ok x → ∃ e ∈ h', Stored R c x e) h := by
  intro id a x ha
  refine ⟨⟨.sql (.insertMessage id tid uid text clientMsgID), .ok x⟩, ?_, id, tid, uid, text, clientMsgID, hc, rfl⟩
  have ha : a = .ok x := ha
  rw [ha]
  exact List.mem_append_right _ (List.mem_singleton.2 rfl)

theorem repoSendMessage_ends {R : ChatRules} {c : ChatCall} {tid uid text named : String}
    (hc : ∀ clientMsgID, trimSpace named = "" ∨ clientMsgID = trimSpace named → c.Sends R tid uid clientMsgID)
    (h : List (Event ChatOp ChatRes)) :
    (ChatRepo.sendMessage tid uid text named).Ends (fun h' a => ∀ x, a = .ok x → ∃ e ∈ h', Stored R c x e) h := by
  simp only [ChatRepo.sendMessage, ChatRepo.clientMessageID, Prog.bind_eq]
  rcases eq_or_ne (trimSpace named) "" with hn | hn
  · rw [if_pos hn]
    exact Prog.Ends.bind (Prog.Ends.of_forall (fun h' id => storeMessage_ends (hc id (.inl hn)) h') _ _)
  · rw [if_neg hn]
    exact Prog.Ends.bind (storeMessage_ends (hc (trimSpace named) (.inr rfl)) h)

/-- **A message a call returns is one that a transaction of it has returned**, and the call names the thread and the user. -/
theorem ChatCall.prog_stored (R : ChatRules) (c : ChatCall) :
    (c.prog R).Ends (fun h a => ∀ x, a = .sent (.ok x) → ∃ e ∈ h, Stored R c x e) [] := by
  cases c <;> simp only [ChatCall.prog, Prog.bind_eq, Prog.pure_eq]
  case ensureThread kind refID actor ps =>
    exact Prog.Ends.bind (Prog.Ends.of_forall (fun _ _ _ h => by cases h) _ _)
  case markRead threadID userID =>
    exact Prog.Ends.bind (Prog.Ends.of_forall (fun _ _ _ h => by cases h) _ _)
  case sendMessage threadID userID text named =>
    refine Prog.Ends.bind (Prog.Ends.mono (Q := fun h a => ∀ x, a = .ok x → ∃ e ∈ h,
      Stored R (.sendMessage threadID userID text named) x e) (fun h a ha x hx => ?_) ?_)
    · exact ha x (ChatAnswer.sent.inj hx)
    unfold ChatUseCase.sendMessage
    split
    · exact nofun
    · rename_i tid uid hids
      obtain ⟨ht, hu⟩ := checkIDs_ok hids
      split
      · exact nofun
      · exact withThread_ends (repoSendMessage_ends fun cid hcid => ⟨threadID, userID, text, named, rfl, ht, hu, hcid⟩)
          (fun _ _ => nofun) tid uid []

end Ends

/-! ## Whole runs -/

section Sequences

variable {R : ChatRules} {w₀ : ChatWorld} {tr : List ChatMoment} {c : ChatConfig}

/-- Every message that is stored again is stored again as it should be. -/
def AllIdempotent (tr : List ChatMoment) : Prop :=
  ∀ m ∈ tr, ∀ tid uid clientMsgID old, ChatMoment.Resends m tid uid clientMsgID old → ChatMoment.Idempotent m tid uid clientMsgID old

/-- A message that is stored again is the last one of its thread and was stored at this time. -/
def ChatMoment.Fresh (m : ChatMoment) : Prop :=
  ∀ tid uid clientMsgID old, ChatMoment.Resends m tid uid clientMsgID old → ChatMoment.Lands m → ChatMoment.OfHead m tid old

theorem ChatMoment.newest {m : ChatMoment} (hm : m.Step (chatSys R)) (hf : ChatMoment.Fresh m)
    (h : m.before.world.db.HeadNewest) : m.after.db.HeadNewest := by
  rcases ChatMoment.lands_or hm with hdb | hl
  · rwa [hdb]
  · have hl' := hl
    obtain ⟨s, a, hs, hrun⟩ := hl
    refine ChatSql.run_newest h hrun fun id tid uid text cid old hins hold r hr => ?_
    exact (hf tid uid cid old ⟨⟨id, text, by rw [hs, hins]⟩, hold⟩ hl' r hr).1

theorem newest_of_fresh (h : (chatSys R).Trace w₀ tr c) (h0 : w₀.db.HeadNewest) (hf : ∀ m ∈ tr, ChatMoment.Fresh m) :
    c.world.db.HeadNewest := by
  refine h.pool_inv (P := ChatMoment.Fresh) (fun w _ => w.db.HeadNewest) h0 (fun _ _ _ hw _ => hw) ?_ ?_ hf
  · intro w w' ts₁ ts₂ c h o k r hw he hfresh
    exact ChatMoment.newest (R := R) (m := ⟨⟨w, ts₁ ++ ⟨c, h, .call o k⟩ :: ts₂⟩, ⟨c, h, .call o k⟩, o, r, w'⟩)
      ⟨⟨ts₁, ts₂, k, rfl, rfl⟩, he⟩ hfresh hw
  · rintro w w' _ hw ⟨later, -, rfl⟩
    exact hw

/-- **In a run messages that are sent again change nothing, and every thread knows its last message, if and only if each
message that is stored again is the last one of its thread and was stored at this very time.** -/
theorem head_kept_iff (h : (chatSys R).Trace w₀ tr c) (h0 : w₀.db.HeadNewest) :
    (∀ t ∈ c.threads, ∀ x, t.rest = .ret (.sent (.ok x)) → ∃ m ∈ tr, m.thread.call = t.call ∧ Stored R t.call x m.event) ∧
    (AllIdempotent tr ∧ (∀ m ∈ tr, m.after.db.HeadNewest) ↔ ∀ m ∈ tr, ChatMoment.Fresh m) := by
  refine ⟨fun t ht x hx => ?_, fun hall m hm tid uid cid old hr => ?_, fun hf => ⟨?_, ?_⟩⟩
  · have hends := h.reach.ends (ChatCall.prog_stored R) t ht
    rw [hx] at hends
    obtain ⟨e, he, hstored⟩ := hends x rfl
    obtain ⟨m, hm, hcall, -, rfl, -⟩ := h.performing ht he
    exact ⟨m, hm, hcall, hstored⟩
  · exact (hr.idempotent_iff (h.steps m hm)).1 (hall.1 m hm tid uid cid old hr)
  · intro m hm tid uid cid old hr
    exact (hr.idempotent_iff (h.steps m hm)).2 (hf m hm tid uid cid old hr)
  · intro m hm
    obtain ⟨tr₁, tr₂, rfl⟩ := List.append_of_mem hm
    have hbefore := newest_of_fresh (h.before rfl) h0 fun m' hm' => hf m' (by simp [hm'])
    exact ChatMoment.newest (h.steps m hm) (hf m hm) hbefore

end Sequences

/-! ## An old message that is sent again -/

def plainParse : ChatRules := ⟨fun s => if isUUID s then some s else none⟩

def firstThread : String := "aaaaaaaa-0000-0000-0000-000000000000"

/-- The second message is there when the first one is sent again. -/
def sendsAgain : List (Turn ChatCall) :=
  [⟨1, .ensureThread "venue_booking" "bbbbbbbb-0000-0000-0000-000000000000" firstUser [firstUser, secondUser], [firstThread]⟩,
    ⟨2, .sendMessage firstThread firstUser "Hello" "m1", ["c0000000-0000-0000-0000-000000000001"]⟩,
    ⟨3, .sendMessage firstThread firstUser "Anybody there?" "m2", ["c0000000-0000-0000-0000-000000000002"]⟩,
    ⟨4, .sendMessage firstThread firstUser "Hello" "m1", ["c0000000-0000-0000-0000-000000000003"]⟩]

theorem emptyChat_newest : emptyChat.HeadNewest := ⟨fun _ hm => absurd hm List.not_mem_nil, fun _ hr => absurd hr List.not_mem_nil⟩

theorem sendsAgain_heads : (playAll chatRules (ChatCall.prog plainParse) sendsAgain emptyChat).map
    (fun db => (db.threads.rows.map (·.lastMessageID), (db.messagesOf firstThread).map (·.id), db.threads.rows.map (·.id))) =
    some ([some "c0000000-0000-0000-0000-000000000001"],
      ["c0000000-0000-0000-0000-000000000001", "c0000000-0000-0000-0000-000000000002"], [firstThread]) := by decide +kernel

/-- A run leads to a thread that does not know its last message. -/
theorem sendsAgain_trace : ∃ tr c, (chatSys plainParse).Trace ⟨emptyChat, 0, []⟩ tr c ∧ ∃ m ∈ tr, ¬ m.after.db.HeadNewest := by
  obtain ⟨db, hdb, hres⟩ := Option.map_eq_some_iff.1 sendsAgain_heads
  obtain ⟨tr, w, ts, ht, rfl⟩ := played hdb (by decide) (by decide)
  have hbad : ¬ w.db.HeadNewest := by
    intro h
    obtain ⟨hlast, hmsgs, hids⟩ : _ ∧ _ ∧ _ := by simpa only [Prod.mk.injEq] using hres
    obtain ⟨r, hr⟩ := List.exists_mem_of_ne_nil w.db.threads.rows fun hnil => by simp [hnil] at hids
    have hid : r.id = firstThread := by
      have := List.mem_map_of_mem (f := (·.id)) hr
      rw [hids] at this
      exact List.mem_singleton.1 this
    have hl : r.lastMessageID = some "c0000000-0000-0000-0000-000000000001" := by
      have := List.mem_map_of_mem (f := (·.lastMessageID)) hr
      rw [hlast] at this
      exact List.mem_singleton.1 this
    have hnew := h.newest r hr
    rw [hid, hl, ← List.getLast?_map, hmsgs] at hnew
    exact absurd hnew (by decide)
  rcases ht.db_origin with hdb | ⟨m, hm, hdb⟩
  · have hdb : w.db = emptyChat := hdb
    rw [hdb] at hbad
    exact absurd emptyChat_newest hbad
  · have hdb : m.after.db = w.db := hdb
    exact ⟨tr, _, ht, m, hm, by rwa [hdb]⟩

theorem sendsAgain_stale : ∃ tr c, (chatSys plainParse).Trace ⟨emptyChat, 0, []⟩ tr c ∧ ¬ ∀ m ∈ tr, ChatMoment.Fresh m := by
  obtain ⟨tr, c, ht, m, hm, hbad⟩ := sendsAgain_trace
  exact ⟨tr, c, ht, fun hf => hbad (((head_kept_iff ht emptyChat_newest).2.2 hf).2 m hm)⟩

theorem head_lost : ¬ ∀ (R : ChatRules) (w₀ : ChatWorld) (tr : List ChatMoment) (c : ChatConfig), (chatSys R).Trace w₀ tr c →
    w₀.db.HeadNewest → AllIdempotent tr ∧ ∀ m ∈ tr, m.after.db.HeadNewest := by
  intro hall
  obtain ⟨tr, c, ht, m, hm, hbad⟩ := sendsAgain_trace
  exact hbad ((hall _ _ tr c ht emptyChat_newest).2 m hm)

end Agregator
