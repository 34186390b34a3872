import Agregator.ChatHead
import Agregator.ConcLift
import Agregator.ConcPlay
/-!
# ChatAccess — the lists of the chat, and who may open a thread

`ListThreads` and `ListMessages` beside the calls on a thread.  A user opens a thread through a row among its participants, and
`EnsureThread` only ever adds such rows.
-/
namespace Conc

variable {Op Op' : Type} {Res : Op → Type} {Res' : Op' → Type} {α : Type}

/-- What a program obeys, it obeys as a part of a larger one. -/
theorem Prog.Obeys.lift {f : Op → Op'} {g : (o : Op) → Res' (f o) → Res o} {P : List (Event Op Res) → Op → Prop}
    {Q : List (Event Op Res) → α → Prop} {P' : List (Event Op' Res') → Op' → Prop} {Q' : List (Event Op' Res') → α → Prop}
    (hP : ∀ h h' o, Lifts f g h h' → P h o → P' h' (f o)) (hQ : ∀ h h' a, Lifts f g h h' → Q h a → Q' h' a) :
    ∀ {p : Prog Op Res α} {h : List (Event Op Res)} {h' : List (Event Op' Res')}, Lifts f g h h' → p.Obeys P Q h →
      (p.lift f g).Obeys P' Q' h'
  | .ret a, h, h', hh, hp => hQ h h' a hh hp
  | .call o _, h, h', hh, hp => ⟨hP h h' o hh hp.1, fun r => Prog.Obeys.lift hP hQ (hh.snoc o r) (hp.2 (g o r))⟩

end Conc

namespace Agregator

open Rel Conc

/-! ## The statements of the lists -/

namespace ChatRepo

/-- The threads a user is an active participant of, with the count of what is unread. -/
def threadsOf (userID : String) (db : ChatDB) : List (ThreadRow × ℕ) :=
  db.threads.rows.flatMap fun t =>
    (db.participants.select fun p => p.threadID == t.id && p.userID == userID && p.leftAt.isNone).map fun p => (t, p.unreadCount)

/-- `COUNT(DISTINCT thread_id)`. -/
def countThreads (userID : String) (db : ChatDB) : ℕ :=
  ((db.participants.select fun p => p.userID == userID && p.leftAt.isNone).map (·.threadID)).eraseDups.length

/-- `ORDER BY COALESCE(last_message_at, created_at) DESC`; of threads with one time the order is not told. -/
def listThreadRows (userID : String) (limit offset : ℕ) (db : ChatDB) : List (ThreadRow × ℕ) :=
  (((threadsOf userID db).insertionSort fun a b =>
    b.1.lastMessageAt.getD b.1.createdAt ≤ a.1.lastMessageAt.getD a.1.createdAt).drop offset).take limit

/-- `ORDER BY created_at ASC`; of messages with one time the order is not told. -/
def listMessageRows (threadID : String) (limit offset : ℕ) (db : ChatDB) : List ChatMessage :=
  (((db.messagesOf threadID).insertionSort (·.createdAt ≤ ·.createdAt)).drop offset).take limit

end ChatRepo

/-- The statements of the chat service.  What is asked for several threads at once is answered thread by thread. -/
inductive AccessSql where
  | chat (s : ChatSql)
  | countThreads (userID : String)
  | listThreads (userID : String) (limit offset : ℕ)
  | participantsOf (threadIDs : List String)
  | readsOf (threadIDs : List String)
  | countMessages (threadID : String)
  | listMessages (threadID : String) (limit offset : ℕ)
deriving DecidableEq, Repr

@[reducible] def AccessSql.Ans : AccessSql → Type
  | chat s => s.Ans
  | countThreads _ | countMessages _ => ℕ
  | listThreads _ _ _ => List (ThreadRow × ℕ)
  | participantsOf _ => List (List String)
  | readsOf _ => List (List ParticipantRead)
  | listMessages _ _ _ => List ChatMessage

def AccessSql.run (now : Time) : (s : AccessSql) → ChatDB → Except Err s.Ans × ChatDB
  | chat s, db => s.run now db
  | countThreads userID, db => (.ok (ChatRepo.countThreads userID db), db)
  | listThreads userID limit offset, db => (.ok (ChatRepo.listThreadRows userID limit offset db), db)
  | participantsOf ids, db => (.ok (ids.map fun id => ChatRepo.listParticipantsByThreadID id db), db)
  | readsOf ids, db => (.ok (ids.map fun id => ChatRepo.loadParticipantReads id db), db)
  | countMessages threadID, db => (.ok (db.messagesOf threadID).length, db)
  | listMessages threadID limit offset, db => (.ok (ChatRepo.listMessageRows threadID limit offset db), db)

def accessRules : SqlRules Err ChatDB AccessSql.Ans := ⟨AccessSql.run, isUUID⟩

abbrev AccessOp := SqlOp AccessSql

abbrev AccessRes := SqlOp.Res Err AccessSql.Ans

abbrev AccessProg := Prog AccessOp AccessRes

abbrev AccessSql.query (s : AccessSql) : AccessProg (Except Err s.Ans) := Prog.perform (SqlOp.sql s)

def AccessOp.chat : ChatOp → AccessOp
  | .sql s => .sql (.chat s)
  | .now => .now
  | .fresh => .fresh

def AccessOp.back : (o : ChatOp) → AccessRes (AccessOp.chat o) → ChatRes o
  | .sql _, r => r
  | .now, r => r
  | .fresh, r => r

/-- A program of the calls on a thread. -/
abbrev AccessProg.chat {α : Type} (p : ChatProg α) : AccessProg α := p.lift AccessOp.chat AccessOp.back

/-! ## The calls -/

namespace ChatUseCase

open AccessSql (query)

/-- The limit and the offset of a list. -/
def pageLimit (limit : ℤ) : ℕ := if limit ≤ 0 ∨ 200 < limit then 50 else limit.toNat

def pageOffset (offset : ℤ) : ℕ := if offset < 0 then 0 else offset.toNat

/-- The rows of a list, with the participants, if they can be read, and what they have read. -/
def summaries (rows : List (ThreadRow × ℕ)) (participants : Except Err (List (List String))) (reads : List (List ParticipantRead)) :
    List (ChatThread × ℕ) :=
  rows.zipIdx.map fun ((r, unread), i) =>
    ({ r.toThread with
        participantUserIDs := match participants with
          | .error _ => []
          | .ok ps => ps.getD i []
        participantReads := reads.getD i [] }, unread)

def listThreads (R : ChatRules) (userID : String) (limit offset : ℤ) : AccessProg (Except Err (List (ChatThread × ℕ) × ℕ)) := do
  match parseOr R userID "invalid user_id" with
  | .error err => return .error err
  | .ok uid =>
    match ← query (.countThreads uid) with
    | .error err => return .error err
    | .ok total =>
      match ← query (.listThreads uid (pageLimit limit) (pageOffset offset)) with
      | .error err => return .error err
      | .ok rows =>
        let participants ← query (.participantsOf (rows.map (·.1.id)))
        match ← query (.readsOf (rows.map (·.1.id))) with
        | .error err => return .error err
        | .ok reads => return .ok (summaries rows participants reads, total)

def listMessages (R : ChatRules) (threadID userID : String) (limit offset : ℤ) : AccessProg (Except Err (List ChatMessage × ℕ)) := do
  match checkIDs R threadID userID with
  | .error err => return .error err
  | .ok (tid, uid) =>
    match ← AccessProg.chat (withThread tid uid (return .ok ())) with
    | .error err => return .error err
    | .ok () =>
      match ← query (.countMessages tid) with
      | .error err => return .error err
      | .ok total =>
        match ← query (.listMessages tid (pageLimit limit) (pageOffset offset)) with
        | .error err => return .error err
        | .ok rows => return .ok (rows, total)

end ChatUseCase

/-! ## The system -/

inductive AccessCall where
  | chat (call : ChatCall)
  | listThreads (userID : String) (limit offset : ℤ)
  | listMessages (threadID userID : String) (limit offset : ℤ)
deriving DecidableEq

inductive AccessAnswer where
  | chat (ans : ChatAnswer)
  | threads (res : Except Err (List (ChatThread × ℕ) × ℕ))
  | messages (res : Except Err (List ChatMessage × ℕ))

def AccessCall.prog (R : ChatRules) : AccessCall → AccessProg AccessAnswer
  | chat call => return .chat (← AccessProg.chat (call.prog R))
  | listThreads userID limit offset => return .threads (← ChatUseCase.listThreads R userID limit offset)
  | listMessages threadID userID limit offset => return .messages (← ChatUseCase.listMessages R threadID userID limit offset)

/-- Who makes a call. -/
def AccessCall.user (R : ChatRules) : AccessCall → Option String
  | chat (.ensureThread _ _ actorUserID _) => R.parse (trimSpace actorUserID)
  | chat (.sendMessage _ userID _ _) | chat (.markRead _ userID) | listThreads userID _ _ | listMessages _ userID _ _ =>
    R.parse (trimSpace userID)

def accessSys (R : ChatRules) : Sys ChatWorld AccessCall AccessOp AccessRes AccessAnswer := sqlSys accessRules (AccessCall.prog R)

abbrev AccessMoment := Moment ChatWorld AccessCall AccessOp AccessRes AccessAnswer

abbrev AccessConfig := Config ChatWorld AccessCall AccessOp AccessRes AccessAnswer

abbrev AccessHistory := List (Event AccessOp AccessRes)

/-! ## The participants of a thread -/

/-- A user is an active participant of a thread. -/
def ChatDB.Joined (db : ChatDB) (threadID userID : String) : Prop :=
  ∃ r ∈ db.participants.rows, r.threadID = threadID ∧ r.userID = userID ∧ r.leftAt = none

namespace ChatRepo

variable {db db' : ChatDB} {now : Time} {threadID userID : String}

theorem mem_listParticipants {uid : String} : uid ∈ listParticipantsByThreadID threadID db ↔ db.Joined threadID uid := by
  unfold listParticipantsByThreadID ChatDB.Joined Table.select
  simp only [List.mem_map, List.mem_insertionSort, List.mem_filter, Bool.and_eq_true, beq_iff_eq, Option.isNone_iff_eq_none]
  constructor
  · rintro ⟨r, ⟨hr, ht, hl⟩, rfl⟩
    exact ⟨r, hr, ht, rfl, hl⟩
  · rintro ⟨r, hr, ht, rfl, hl⟩
    exact ⟨r, ⟨hr, ht, hl⟩, rfl⟩

theorem active_of_threadsOf {r : ThreadRow × ℕ} (h : r ∈ threadsOf userID db) : db.Joined r.1.id userID := by
  obtain ⟨t, -, hr⟩ := List.mem_flatMap.1 h
  obtain ⟨p, hp, rfl⟩ := List.mem_map.1 hr
  obtain ⟨hmem, hp⟩ := List.mem_filter.1 hp
  simp only [Bool.and_eq_true, beq_iff_eq, Option.isNone_iff_eq_none] at hp
  exact ⟨p, hmem, hp.1.1, hp.1.2, hp.2⟩

theorem active_of_listThreadRows {limit offset : ℕ} {r : ThreadRow × ℕ} (h : r ∈ listThreadRows userID limit offset db) :
    db.Joined r.1.id userID :=
  active_of_threadsOf ((List.mem_insertionSort _).1 (List.mem_of_mem_drop (List.mem_of_mem_take h)))

/-- An edit of the participants that leaves who they are and who has left. -/
theorem active_of_update {p : ParticipantRow → Bool} {f : ParticipantRow → ParticipantRow} {t' : Table participantSchema}
    (h : db.participants.update p f = .ok t')
    (hf : ∀ r, (f r).threadID = r.threadID ∧ (f r).userID = r.userID ∧ (f r).leftAt = r.leftAt) {tid uid : String} :
    (∃ r ∈ t'.rows, r.threadID = tid ∧ r.userID = uid ∧ r.leftAt = none) ↔ db.Joined tid uid := by
  have hedit : ∀ r, ((if p r then f r else r).threadID = r.threadID ∧ (if p r then f r else r).userID = r.userID ∧
      (if p r then f r else r).leftAt = r.leftAt) := by
    intro r
    by_cases hp : p r = true
    · rw [if_pos hp]
      exact hf r
    · rw [if_neg hp]
      exact ⟨rfl, rfl, rfl⟩
  rw [Table.update_rows h]
  constructor
  · rintro ⟨r', hr', ht, hu, hl⟩
    obtain ⟨r, hr, rfl⟩ := List.mem_map.1 hr'
    obtain ⟨ht', hu', hl'⟩ := hedit r
    exact ⟨r, hr, ht'.symm.trans ht, hu'.symm.trans hu, hl'.symm.trans hl⟩
  · rintro ⟨r, hr, ht, hu, hl⟩
    obtain ⟨ht', hu', hl'⟩ := hedit r
    exact ⟨_, List.mem_map_of_mem hr, ht'.trans ht, hu'.trans hu, hl'.trans hl⟩

/-- **A participant that is entered is active, and nobody else changes.** -/
theorem upsertParticipant_active (h : upsertParticipant now threadID userID db = .ok db') (tid uid : String) :
    db'.Joined tid uid ↔ db.Joined tid uid ∨ tid = threadID ∧ uid = userID := by
  unfold upsertParticipant at h
  simp only at h
  split at h
  · rename_i old hold
    split at h
    · cases h
    rename_i participants hu
    cases h
    obtain ⟨hmem, hkey⟩ := Table.get_mem hold
    simp only [Bool.and_eq_true, beq_iff_eq] at hkey
    unfold ChatDB.Joined
    rw [Table.update_rows hu]
    constructor
    · rintro ⟨r', hr', rfl, rfl, hl⟩
      obtain ⟨r, hr, rfl⟩ := List.mem_map.1 hr'
      by_cases hp : (r.threadID == threadID && r.userID == userID) = true
      · rw [if_pos hp]
        simp only [Bool.and_eq_true, beq_iff_eq] at hp
        exact .inr hp
      · rw [if_neg hp] at hl ⊢
        exact .inl ⟨r, hr, rfl, rfl, hl⟩
    · rintro (⟨r, hr, rfl, rfl, hl⟩ | ⟨rfl, rfl⟩)
      · refine ⟨_, List.mem_map_of_mem hr, ?_⟩
        split
        · exact ⟨rfl, rfl, rfl⟩
        · exact ⟨rfl, rfl, hl⟩
      · refine ⟨_, List.mem_map_of_mem hmem, ?_⟩
        rw [if_pos (by simp [hkey])]
        exact ⟨hkey.1, hkey.2, rfl⟩
  · split at h
    · cases h
    rename_i participants hins
    cases h
    unfold ChatDB.Joined
    rw [Table.insert_rows hins]
    constructor
    · rintro ⟨r, hr, rfl, rfl, hl⟩
      rcases List.mem_append.1 hr with hr | hr
      · exact .inl ⟨r, hr, rfl, rfl, hl⟩
      · rw [List.mem_singleton.1 hr]
        exact .inr ⟨rfl, rfl⟩
    · rintro (⟨r, hr, rfl, rfl, hl⟩ | ⟨rfl, rfl⟩)
      · exact ⟨r, List.mem_append_left _ hr, rfl, rfl, hl⟩
      · exact ⟨_, List.mem_append_right _ (List.mem_singleton.2 rfl), rfl, rfl, rfl⟩

/-- Those that are entered are added to those that are there. -/
theorem upsertParticipants_active : ∀ {uids : List String} {db db' : ChatDB}, (∀ uid ∈ uids, isUUID uid = true) →
    upsertParticipants now threadID uids db = .ok db' → ∀ tid uid, db'.Joined tid uid ↔ db.Joined tid uid ∨ tid = threadID ∧ uid ∈ uids
  | [], _, _, _, h, tid, uid => by
    cases h
    simp
  | u :: uids, db, db', hids, h, tid, uid => by
    have hu := hids u List.mem_cons_self
    unfold upsertParticipants at h
    rw [trimSpace_of_isUUID hu, if_neg (ne_empty_of_isUUID hu)] at h
    split at h
    · cases h
    rename_i db₁ h₁
    rw [upsertParticipants_active (fun uid hm => hids uid (List.mem_cons_of_mem _ hm)) h tid uid,
      upsertParticipant_active h₁ tid uid, List.mem_cons]
    tauto

/-- **`EnsureThread` adds the participants it names to those that are there.** -/
theorem ensureThread_active {id kind refID : String} {uids : List String} {r : ThreadRow} (hids : ∀ uid ∈ uids, isUUID uid = true)
    (h : ensureThread now id kind refID uids db = (.ok r, db')) (tid uid : String) :
    db'.Joined tid uid ↔ db.Joined tid uid ∨ tid = r.id ∧ uid ∈ uids := by
  obtain ⟨db₁, h₁, h₂⟩ := ensureThread_ok h
  obtain ⟨-, hp, -⟩ := upsertThread_ok h₁
  rw [upsertParticipants_active hids h₂ tid uid]
  unfold ChatDB.Joined
  rw [hp]

theorem putMessage_active {id text clientMsgID : String} {m : ChatMessage}
    (h : putMessage now id threadID userID text clientMsgID db = .ok (m, db')) (tid uid : String) :
    db'.Joined tid uid ↔ db.Joined tid uid := by
  cases hold : db.messages.get (sentBefore threadID userID clientMsgID) with
  | some old =>
    rw [putMessage_old hold] at h
    cases h
    exact Iff.rfl
  | none =>
    obtain ⟨-, -, -, -, -, hu⟩ := putMessage_new hold h
    exact active_of_update hu fun _ => ⟨rfl, rfl, rfl⟩

theorem insertMessage_active (id text clientMsgID tid uid : String) :
    (insertMessage now id threadID userID text clientMsgID db).2.Joined tid uid ↔ db.Joined tid uid := by
  unfold insertMessage
  split
  · exact Iff.rfl
  rename_i m db₁ hput
  split
  · exact Iff.rfl
  rename_i db₂ htouch
  split
  · exact Iff.rfl
  · rw [← putMessage_active hput tid uid]
    unfold ChatDB.Joined
    rw [(touchThread_ok htouch).2.1]

theorem markRead_active (tid uid : String) : (markRead now threadID userID db).2.Joined tid uid ↔ db.Joined tid uid := by
  unfold markRead
  simp only
  split
  · exact Iff.rfl
  split
  · exact Iff.rfl
  split
  · exact Iff.rfl
  · rename_i hr
    unfold resetUnread at hr
    split at hr
    · cases hr
    · rename_i hu
      cases hr
      exact active_of_update hu fun _ => ⟨rfl, rfl, rfl⟩

end ChatRepo

/-- A statement names a user as a participant of a thread. -/
def AccessSql.Includes (now : Time) (db : ChatDB) (threadID userID : String) : AccessSql → Prop
  | chat (.ensureThread id kind refID uids) => ∃ r, (ChatRepo.ensureThread now id kind refID uids db).1 = .ok r ∧ r.id = threadID ∧ userID ∈ uids
  | _ => False

/-- The participants a statement names are users. -/
def AccessSql.Names : AccessSql → Prop
  | chat (.ensureThread _ _ _ uids) => ∀ uid ∈ uids, isUUID uid = true
  | _ => True

/-- **An active participant was one before, or is named.** -/
theorem AccessSql.run_active {now : Time} {s : AccessSql} {db : ChatDB} (hs : s.Names) {threadID userID : String}
    (h : (s.run now db).2.Joined threadID userID) : db.Joined threadID userID ∨ s.Includes now db threadID userID := by
  cases s with
  | chat s =>
    cases s with
    | ensureThread id kind refID uids =>
      rcases hres : ChatRepo.ensureThread now id kind refID uids db with ⟨res, db'⟩
      have hrun : (ChatRepo.ensureThread now id kind refID uids db).2.Joined threadID userID := h
      rw [hres] at hrun
      cases res with
      | error err =>
        unfold ChatRepo.ensureThread at hres
        split at hres
        · cases hres
          exact .inl hrun
        · split at hres
          · cases hres
            exact .inl hrun
          · cases hres
      | ok r =>
        rcases (ChatRepo.ensureThread_active hs hres threadID userID).1 hrun with hold | ⟨rfl, hmem⟩
        · exact .inl hold
        · exact .inr ⟨r, by rw [hres], rfl, hmem⟩
    | insertMessage id tid uid text clientMsgID => exact .inl ((ChatRepo.insertMessage_active ..).1 h)
    | markRead tid uid => exact .inl ((ChatRepo.markRead_active ..).1 h)
    | getThread | listParticipants | loadReads => exact .inl h
  | countThreads | listThreads | participantsOf | readsOf | countMessages | listMessages => exact .inl h

/-! ## What a call has read before it opens a thread -/

/-- The call has read that the user is an active participant of the thread. -/
def ReadMember (h : List (Event ChatOp ChatRes)) (threadID userID : String) : Prop :=
  ∃ r ps, (⟨.sql (.getThread threadID), .ok (some r)⟩ : Event ChatOp ChatRes) ∈ h ∧
    (⟨.sql (.listParticipants r.id), .ok ps⟩ : Event ChatOp ChatRes) ∈ h ∧ ∃ p ∈ ps, toLower p = toLower (trimSpace userID)

theorem ReadMember.grows {h h' : List (Event ChatOp ChatRes)} {threadID userID : String} (hm : ReadMember h threadID userID)
    (hh : h <+: h') : ReadMember h' threadID userID := by
  obtain ⟨r, ps, hget, hlist, hp⟩ := hm
  exact ⟨r, ps, hh.subset hget, hh.subset hlist, hp⟩

/-- What is done on a thread is done by somebody who has been read to be a participant. -/
def ChatOpens (R : ChatRules) (call : ChatCall) (h : List (Event ChatOp ChatRes)) : ChatOp → Prop
  | .sql (.insertMessage _ threadID _ _ _) | .sql (.markRead threadID _) =>
    ∀ userID, (AccessCall.chat call).user R = some userID → ReadMember h threadID userID
  | .sql (.ensureThread _ _ _ uids) => (∀ s uid, R.parse s = some uid → isUUID uid = true) → ∀ uid ∈ uids, isUUID uid = true
  | _ => True

namespace ChatUseCase

/-- Whoever is a participant of the thread that is read has been read to be one. -/
theorem getThreadByID_obeys {P : List (Event ChatOp ChatRes) → ChatOp → Prop} {threadID : String}
    (hget : ∀ h, P h (.sql (.getThread threadID))) (hlist : ∀ h id, P h (.sql (.listParticipants id)))
    (hreads : ∀ h id, P h (.sql (.loadReads id))) (h : List (Event ChatOp ChatRes)) :
    (ChatRepo.getThreadByID threadID).Obeys P (fun h' res => ∀ t, res = .ok (some t) → ∀ userID, isParticipant t userID = true →
      ReadMember h' threadID userID) h := by
  simp only [ChatRepo.getThreadByID, ChatRepo.hydrate, Prog.bind_eq, Prog.perform_bind, Prog.pure_eq, Prog.bind_call]
  refine ⟨hget h, fun found => ?_⟩
  cases found with
  | error err => exact nofun
  | ok found =>
    cases found with
    | none => exact nofun
    | some r =>
      refine ⟨hlist _ _, fun participants => ⟨hreads _ _, fun reads => ?_⟩⟩
      cases reads with
      | error err => exact nofun
      | ok reads =>
        intro t ht userID hmember
        cases ht
        cases participants with
        | error err => cases hmember
        | ok ps =>
          obtain ⟨p, hp, heq⟩ := List.any_eq_true.1 hmember
          refine ⟨r, ps, ?_, ?_, p, hp, eq_of_beq heq⟩
          · simp
          · simp

/-- **What a participant of a thread may do is done after the participants have been read.** -/
theorem withThread_obeys {α : Type} {P : List (Event ChatOp ChatRes) → ChatOp → Prop}
    {Q : List (Event ChatOp ChatRes) → Except Err α → Prop} {threadID userID : String} {next : ChatProg (Except Err α)}
    (hget : ∀ h, P h (.sql (.getThread threadID))) (hlist : ∀ h id, P h (.sql (.listParticipants id)))
    (hreads : ∀ h id, P h (.sql (.loadReads id))) (herr : ∀ h err, Q h (.error err))
    (hnext : ∀ h, ReadMember h threadID userID → next.Obeys P Q h) (h : List (Event ChatOp ChatRes)) :
    (withThread threadID userID next).Obeys P Q h := by
  simp only [withThread, Prog.bind_eq, Prog.pure_eq]
  refine Prog.Obeys.bind ((getThreadByID_obeys hget hlist hreads h).mono ?_)
  intro h' res hres
  cases res with
  | error err => exact herr _ _
  | ok found =>
    cases found with
    | none => exact herr _ _
    | some t =>
      dsimp only
      by_cases hmember : isParticipant t userID = false
      · rw [if_pos hmember]
        exact herr _ _
      · rw [if_neg hmember]
        exact hnext h' (hres t rfl userID (Bool.eq_true_of_not_eq_false hmember))

theorem mapM_parseOr {R : ChatRules} {msg : String} {ids out : List String} (h : ids.mapM (fun s => parseOr R s msg) = .ok out) :
    ∀ uid ∈ out, ∃ s, R.parse s = some uid := by
  intro uid hm
  obtain ⟨s, -, hs⟩ := List.forall₂_right (Except.mapM_ok_iff.1 h) uid hm
  exact ⟨_, parseOr_ok hs⟩

/-- The participants of a request that is well formed are users. -/
theorem checkEnsure_ok {R : ChatRules} {kind refID actor : String} {participants : List String} {res : String × String × List String}
    (h : checkEnsure R kind refID actor participants = .ok res) : ∀ uid ∈ res.2.2, ∃ s, R.parse s = some uid := by
  unfold checkEnsure at h
  simp only at h
  split at h
  · cases h
  obtain ⟨ref, -, h⟩ := Except.of_bind h
  obtain ⟨act, -, h⟩ := Except.of_bind h
  split at h
  · cases h
  obtain ⟨ps, hps, h⟩ := Except.of_bind h
  split at h
  · cases h
  cases h
  unfold normalizeParticipants at hps
  obtain ⟨out, hout, hps⟩ := Except.of_bind hps
  simp only at hps
  split at hps
  · cases hps
  cases hps
  intro uid hm
  exact mapM_parseOr hout uid (List.mem_eraseDups.1 ((List.mem_insertionSort _).1 hm))

end ChatUseCase

section Opens

-- what a text is trimmed to decides no branch here
attribute [local irreducible] trimSpace

/-- **The calls on a thread open it for those alone that have been read to be participants.** -/
theorem ChatCall.prog_obeys (R : ChatRules) (call : ChatCall) : (call.prog R).Obeys (ChatOpens R call) (fun _ _ => True) [] := by
  have hget : ∀ (h : List (Event ChatOp ChatRes)) tid, ChatOpens R call h (.sql (.getThread tid)) := fun _ _ => trivial
  have hlist : ∀ (h : List (Event ChatOp ChatRes)) tid, ChatOpens R call h (.sql (.listParticipants tid)) := fun _ _ => trivial
  have hreads : ∀ (h : List (Event ChatOp ChatRes)) tid, ChatOpens R call h (.sql (.loadReads tid)) := fun _ _ => trivial
  have hdone : ∀ (β : Type) (f : β → ChatAnswer) (p : ChatProg β) h, p.Obeys (ChatOpens R call) (fun _ _ => True) h →
      (p.bind fun res => .ret (f res)).Obeys (ChatOpens R call) (fun _ _ => True) h :=
    fun β f p h hp => Prog.Obeys.bind (hp.mono fun _ _ _ => trivial)
  cases call with
  | ensureThread kind refID actor participants =>
    apply hdone
    unfold ChatUseCase.ensureThread
    cases hcheck : ChatUseCase.checkEnsure R kind refID actor participants with
    | error err => trivial
    | ok res =>
      obtain ⟨kind', ref, ps⟩ := res
      refine ⟨trivial, fun id => ⟨fun hparse uid hm => ?_, fun res => ?_⟩⟩
      · obtain ⟨s, hs⟩ := ChatUseCase.checkEnsure_ok hcheck uid hm
        exact hparse s uid hs
      · cases res with
        | error err => trivial
        | ok r =>
          refine ⟨trivial, fun participants => ⟨trivial, fun reads => ?_⟩⟩
          cases reads <;> trivial
  | sendMessage threadID userID text clientMsgID =>
    apply hdone
    unfold ChatUseCase.sendMessage
    cases hids : ChatUseCase.checkIDs R threadID userID with
    | error err => trivial
    | ok ids =>
      obtain ⟨tid, uid⟩ := ids
      cases htext : ChatUseCase.checkText text with
      | error err => trivial
      | ok text' =>
        obtain ⟨-, huser⟩ := checkIDs_ok hids
        refine ChatUseCase.withThread_obeys (fun h => hget h tid) hlist hreads (fun _ _ => trivial) (fun h hm => ?_) []
        have hstore : ∀ clientMsgID h', h <+: h' → (ChatRepo.storeMessage tid uid text' clientMsgID).Obeys
            (ChatOpens R (.sendMessage threadID userID text clientMsgID)) (fun _ _ => True) h' := by
          refine fun _ h' hh => ⟨trivial, fun id => ⟨fun u hu => ?_, fun _ => trivial⟩⟩
          obtain rfl := Option.some.inj (huser.symm.trans hu)
          exact hm.grows (hh.trans (List.prefix_append _ _))
        simp only [ChatRepo.sendMessage, ChatRepo.clientMessageID, Prog.bind_eq]
        by_cases hn : trimSpace clientMsgID = ""
        · rw [if_pos hn]
          exact ⟨trivial, fun id => hstore _ _ (List.prefix_append _ _)⟩
        · rw [if_neg hn]
          exact hstore _ _ List.prefix_rfl
  | markRead threadID userID =>
    apply hdone
    unfold ChatUseCase.markRead
    cases hids : ChatUseCase.checkIDs R threadID userID with
    | error err => trivial
    | ok ids =>
      obtain ⟨tid, uid⟩ := ids
      obtain ⟨-, huser⟩ := checkIDs_ok hids
      refine ChatUseCase.withThread_obeys (fun h => hget h tid) hlist hreads (fun _ _ => trivial) (fun h hm => ?_) []
      refine ⟨fun u hu => ?_, fun res => ?_⟩
      · obtain rfl := Option.some.inj (huser.symm.trans hu)
        exact hm
      · cases res with
        | error err => trivial
        | ok _ => exact (ChatUseCase.getThreadByID_obeys (fun h => hget h tid) hlist hreads _).mono fun _ _ _ => trivial

end Opens

/-- The call has read that the user is an active participant of the thread. -/
def AccessMember (h : AccessHistory) (threadID userID : String) : Prop :=
  ∃ r ps, (⟨.sql (.chat (.getThread threadID)), .ok (some r)⟩ : Event AccessOp AccessRes) ∈ h ∧
    (⟨.sql (.chat (.listParticipants r.id)), .ok ps⟩ : Event AccessOp AccessRes) ∈ h ∧
    ∃ p ∈ ps, toLower p = toLower (trimSpace userID)

theorem AccessMember.of_lifts {h : List (Event ChatOp ChatRes)} {h' : AccessHistory} {threadID userID : String}
    (hm : ReadMember h threadID userID) (hh : Lifts AccessOp.chat AccessOp.back h h') : AccessMember h' threadID userID := by
  obtain ⟨r, ps, hget, hlist, hp⟩ := hm
  obtain ⟨found, hfound, hback⟩ := hh _ hget
  obtain ⟨listed, hlisted, hback'⟩ := hh _ hlist
  obtain rfl : found = .ok (some r) := hback
  obtain rfl : listed = .ok ps := hback'
  exact ⟨r, ps, hfound, hlisted, hp⟩

theorem AccessMember.grows {h h' : AccessHistory} {threadID userID : String} (hm : AccessMember h threadID userID) (hh : h <+: h') :
    AccessMember h' threadID userID := by
  obtain ⟨r, ps, hget, hlist, hp⟩ := hm
  exact ⟨r, ps, hh.subset hget, hh.subset hlist, hp⟩

/-- Who makes a call opens threads that were read to be theirs, and lists their own. -/
def AccessOpens (R : ChatRules) (call : AccessCall) (h : AccessHistory) : AccessOp → Prop
  | .sql (.chat (.insertMessage _ threadID _ _ _)) | .sql (.chat (.markRead threadID _)) | .sql (.listMessages threadID _ _) =>
    ∀ userID, call.user R = some userID → AccessMember h threadID userID
  | .sql (.listThreads uid _ _) => ∀ userID, call.user R = some userID → uid = userID
  | .sql (.chat (.ensureThread _ _ _ uids)) => (∀ s uid, R.parse s = some uid → isUUID uid = true) → ∀ uid ∈ uids, isUUID uid = true
  | _ => True

theorem AccessOpens.of_lifts {R : ChatRules} {call : ChatCall} {h : List (Event ChatOp ChatRes)} {h' : AccessHistory} {o : ChatOp}
    (hh : Lifts AccessOp.chat AccessOp.back h h') (ho : ChatOpens R call h o) : AccessOpens R (.chat call) h' (AccessOp.chat o) := by
  cases o with
  | sql s =>
    cases s with
    | insertMessage => exact fun userID hu => .of_lifts (ho userID hu) hh
    | markRead => exact fun userID hu => .of_lifts (ho userID hu) hh
    | ensureThread => exact ho
    | _ => trivial
  | _ => trivial

/-- **The calls of the chat open threads for those alone that have been read to be participants.** -/
theorem AccessCall.prog_obeys (R : ChatRules) (call : AccessCall) : (call.prog R).Obeys (AccessOpens R call) (fun _ _ => True) [] := by
  cases call with
  | chat call =>
    refine Prog.Obeys.bind ?_
    exact Prog.Obeys.lift (fun _ _ _ hh ho => AccessOpens.of_lifts hh ho) (fun _ _ _ _ _ => trivial) (Lifts.nil _ _)
      (call.prog_obeys R)
  | listThreads userID limit offset =>
    refine Prog.Obeys.bind ?_
    unfold ChatUseCase.listThreads
    cases huser : ChatUseCase.parseOr R userID "invalid user_id" with
    | error err => trivial
    | ok uid =>
      refine ⟨trivial, fun total => ?_⟩
      cases total with
      | error err => trivial
      | ok total =>
        refine ⟨fun u hu => Option.some.inj ((parseOr_ok huser).symm.trans hu), fun rows => ?_⟩
        cases rows with
        | error err => trivial
        | ok rows =>
          refine ⟨trivial, fun participants => ⟨trivial, fun reads => ?_⟩⟩
          cases reads <;> trivial
  | listMessages threadID userID limit offset =>
    refine Prog.Obeys.bind ?_
    unfold ChatUseCase.listMessages
    cases hids : ChatUseCase.checkIDs R threadID userID with
    | error err => trivial
    | ok ids =>
      obtain ⟨tid, uid⟩ := ids
      obtain ⟨-, huser⟩ := checkIDs_ok hids
      have hnext : ∀ h, ReadMember h tid uid → (Prog.ret (.ok ()) : ChatProg (Except Err Unit)).Obeys
          (fun _ o => ∃ s : ChatSql, o = .sql s ∧ ∀ h, AccessOpens R (.listMessages threadID userID limit offset) h (.sql (.chat s)))
          (fun h res => res = .ok () → ReadMember h tid uid) h := fun h hm _ => hm
      have hopen := ChatUseCase.withThread_obeys (fun _ => ⟨_, rfl, fun _ => trivial⟩) (fun _ _ => ⟨_, rfl, fun _ => trivial⟩)
        (fun _ _ => ⟨_, rfl, fun _ => trivial⟩) (fun _ _ => nofun) hnext []
      have hread : (AccessProg.chat (ChatUseCase.withThread tid uid (.ret (.ok ())))).Obeys
          (AccessOpens R (.listMessages threadID userID limit offset)) (fun h res => res = .ok () → AccessMember h tid uid) [] := by
        refine Prog.Obeys.lift ?_ (fun _ _ _ hh hres hok => .of_lifts (hres hok) hh) (Lifts.nil _ _) hopen
        rintro h h' o - ⟨s, rfl, ho⟩
        exact ho h'
      refine Prog.Obeys.bind (hread.mono fun h res hres => ?_)
      cases res with
      | error err => trivial
      | ok _ =>
        have hm := hres rfl
        refine ⟨trivial, fun total => ?_⟩
        cases total with
        | error err => trivial
        | ok total =>
          refine ⟨fun u hu => ?_, fun rows => ?_⟩
          · obtain rfl := Option.some.inj (huser.symm.trans hu)
            exact hm.grows (List.prefix_append _ _)
          · cases rows <;> trivial

/-! ## The law of the participants -/

theorem toLower_of_isUUID {s : String} (h : isUUID s = true) : toLower s = s := by
  have hkeep : ∀ c ∈ s.toList, (if c.toNat = 0x130 then 'i' else if c.toNat = 0x212a then 'k' else c.toLower) = id c := by
    intro c hc
    have hrange := toNat_of_isUUID h c hc
    have hcase := asciiLower_cases c
    rw [if_neg (by omega), if_neg (by omega)]
    rcases hcase with hup | hsame
    · omega
    · exact hsame.2
  unfold toLower
  rw [List.map_congr_left hkeep, List.map_id, String.ofList_toList]

/-- The thread is opened: a message is put into it, it is read or marked as read, or it is on a list. -/
def Opens (threadID : String) : Event AccessOp AccessRes → Prop
  | ⟨.sql (.chat (.insertMessage _ tid _ _ _)), _⟩ | ⟨.sql (.chat (.markRead tid _)), _⟩ | ⟨.sql (.listMessages tid _ _), _⟩ =>
    tid = threadID
  | ⟨.sql (.listThreads _ _ _), res⟩ => ∃ rows, res = .ok rows ∧ ∃ r ∈ rows, r.1.id = threadID
  | _ => False

/-- At this moment a user is named as a participant of a thread. -/
def AccessMoment.Includes (threadID userID : String) (m : AccessMoment) : Prop :=
  ∃ s, m.op = .sql s ∧ s.Includes m.before.world.clock m.before.world.db threadID userID

/-- After the moment the active participants of the thread are those that were named, and until a user is named that is not
one of them, no call that this user makes afterwards opens the thread. -/
structure Membership (R : ChatRules) (d : AccessMoment) (threadID : String) (uids : List String) (tr : List AccessMoment)
    (c : AccessConfig) : Prop where
  members : ∀ userID, d.after.db.Joined threadID userID ↔ userID ∈ uids
  shut : ∀ userID ∉ uids, (∀ m ∈ tr, ¬ AccessMoment.Includes threadID userID m) →
    ∀ t ∈ c.threads.drop d.before.threads.length, t.call.user R = some userID → ∀ e ∈ t.did, ¬ Opens threadID e

/-- What the tables tell while a user is no active participant of a thread. -/
structure Outside (threadID userID : String) (e : Event AccessOp AccessRes) : Prop where
  found : ∀ tid r, e = ⟨.sql (.chat (.getThread tid)), .ok (some r)⟩ → r.id = tid
  listed : ∀ ps, e = ⟨.sql (.chat (.listParticipants threadID)), .ok ps⟩ → ∀ p ∈ ps, isUUID p = true ∧ p ≠ userID
  threads : ∀ limit offset rows, e = ⟨.sql (.listThreads userID limit offset), .ok rows⟩ → ∀ r ∈ rows, r.1.id ≠ threadID

/-- Who is no participant has not read to be one. -/
theorem Outside.no_member {threadID userID : String} {h : AccessHistory} (hout : ∀ e ∈ h, Outside threadID userID e)
    (huser : isUUID userID = true) : ¬ AccessMember h threadID userID := by
  rintro ⟨r, ps, hget, hlist, p, hp, heq⟩
  obtain rfl := (hout _ hget).found threadID r rfl
  obtain ⟨hid, hne⟩ := (hout _ hlist).listed ps rfl p hp
  rw [trimSpace_of_isUUID huser, toLower_of_isUUID hid, toLower_of_isUUID huser] at heq
  exact hne heq

section Law

variable {R : ChatRules} {w₀ : ChatWorld} {tr₁ tr₂ : List AccessMoment} {d : AccessMoment} {c : AccessConfig}
  {threadID userID : String}

/-- What the calls open, and whom they name. -/
theorem access_prior {tr : List AccessMoment} (h : (accessSys R).Trace w₀ tr c) : ∀ m ∈ tr,
    AccessOpens R m.thread.call m.thread.did m.op :=
  h.prior fun call => (AccessCall.prog_obeys R call).after

theorem AccessMoment.outside {m : AccessMoment} (he : SqlOp.Exec accessRules m.op m.before.world m.res m.after)
    (hno : ∀ uid, m.before.world.db.Joined threadID uid → isUUID uid = true ∧ uid ≠ userID) : Outside threadID userID m.event := by
  refine ⟨fun tid r heq => ?_, fun ps heq => ?_, fun limit offset rows heq => ?_⟩
  · obtain ⟨b, t, o, r', w'⟩ := m
    cases heq
    have hrun := (Prod.mk.inj (SqlOp.Exec.ok he)).1
    exact eq_of_beq (Table.get_mem (Except.ok.inj hrun)).2
  · obtain ⟨b, t, o, r', w'⟩ := m
    cases heq
    have hrun := (Prod.mk.inj (SqlOp.Exec.ok he)).1
    intro p hp
    rw [← Except.ok.inj hrun] at hp
    exact hno p (ChatRepo.mem_listParticipants.1 hp)
  · obtain ⟨b, t, o, r', w'⟩ := m
    cases heq
    have hrun := (Prod.mk.inj (SqlOp.Exec.ok he)).1
    rintro r hr rfl
    rw [← Except.ok.inj hrun] at hr
    exact (hno userID (ChatRepo.active_of_listThreadRows hr)).2 rfl

theorem AccessCall.user_isUUID (hparse : ∀ s uid, R.parse s = some uid → isUUID uid = true) {call : AccessCall}
    (h : call.user R = some userID) : isUUID userID = true := by
  cases call with
  | chat call => cases call <;> exact hparse _ _ h
  | listThreads => exact hparse _ _ h
  | listMessages => exact hparse _ _ h

/-- Everybody in a thread is a user, and none of them is this one. -/
def ChatDB.Excludes (db : ChatDB) (threadID userID : String) : Prop :=
  ∀ uid, db.Joined threadID uid → isUUID uid = true ∧ uid ≠ userID

/-- An operation that does not name the user lets nobody else in than users. -/
theorem excludes_step (hparse : ∀ s uid, R.parse s = some uid → isUUID uid = true) {m : AccessMoment}
    (he : SqlOp.Exec accessRules m.op m.before.world m.res m.after) (hopens : AccessOpens R m.thread.call m.thread.did m.op)
    (hnot : ¬ m.Includes threadID userID) (hdb : m.before.world.db.Excludes threadID userID) : m.after.db.Excludes threadID userID := by
  rcases SqlOp.Exec.db he with hsame | ⟨s, ho, hrun⟩
  · rwa [hsame]
  rw [ho] at hopens
  have hnames : s.Names := by
    cases s with
    | chat s =>
      cases s with
      | ensureThread id kind refID uids => exact hopens hparse
      | _ => trivial
    | _ => trivial
  intro uid hactive
  rw [hrun] at hactive
  rcases AccessSql.run_active hnames hactive with hold | hnew
  · exact hdb uid hold
  constructor
  · cases s with
    | chat s =>
      cases s with
      | ensureThread id kind refID uids =>
        obtain ⟨r, -, -, hmem⟩ := hnew
        exact hnames uid hmem
      | _ => exact hnew.elim
    | _ => exact hnew.elim
  · rintro rfl
    exact hnot ⟨s, ho, hnew⟩

/-- **Who is outside a thread at a moment, and is not named from then on, does not open it by a call made since.** -/
theorem shut_out (hparse : ∀ s uid, R.parse s = some uid → isUUID uid = true) (h : (accessSys R).Trace w₀ (tr₁ ++ d :: tr₂) c)
    (hd : d.after.db.Excludes threadID userID) (hnot : ∀ m ∈ tr₂, ¬ AccessMoment.Includes threadID userID m) :
    ∀ t ∈ c.threads.drop d.before.threads.length, t.call.user R = some userID → ∀ e ∈ t.did, ¬ Opens threadID e := by
  have hopens := access_prior h
  have hsince := h.since (F := fun w => w.db.Excludes threadID userID) (E := Outside threadID userID) hd
    (fun m hm hstep hw => ⟨excludes_step hparse hstep.exec (hopens m (by simp [hm])) (hnot m hm) hw,
      AccessMoment.outside hstep.exec hw⟩)
    (by
      rintro w w' ⟨later, -, rfl⟩ hw
      exact hw)
  intro t ht huser e he hopen
  have hout := hsince.2 t ht
  have hid := AccessCall.user_isUUID hparse huser
  obtain ⟨h₁, h₂, hdid⟩ := List.append_of_mem he
  have hbefore := (h.reach.after (fun call => (AccessCall.prog_obeys R call).after) t (List.mem_of_mem_drop ht)).2 h₁ e h₂ hdid
  have hnone : ¬ AccessMember h₁ threadID userID :=
    Outside.no_member (fun e' he' => hout e' (by rw [hdid]; exact List.mem_append_left _ he')) hid
  obtain ⟨o, res⟩ := e
  cases o with
  | now => exact hopen
  | fresh => exact hopen
  | sql s =>
    cases s with
    | chat s =>
      cases s with
      | insertMessage id tid uid text clientMsgID =>
        obtain rfl : tid = threadID := hopen
        exact hnone (hbefore userID huser)
      | markRead tid uid =>
        obtain rfl : tid = threadID := hopen
        exact hnone (hbefore userID huser)
      | _ => exact hopen
    | listMessages tid limit offset =>
      obtain rfl : tid = threadID := hopen
      exact hnone (hbefore userID huser)
    | listThreads uid limit offset =>
      obtain ⟨rows, rfl, r, hr, hrid⟩ := hopen
      obtain rfl : uid = userID := hbefore userID huser
      exact (hout _ he).threads limit offset rows rfl r hr hrid
    | _ => exact hopen

/-- **Membership follows what `EnsureThread` was told exactly if everybody who was in the thread is named again.** -/
theorem membership_iff (hparse : ∀ s uid, R.parse s = some uid → isUUID uid = true) (h : (accessSys R).Trace w₀ (tr₁ ++ d :: tr₂) c)
    {id kind refID : String} {uids : List String} {r : ThreadRow}
    (hd : d.event = ⟨.sql (.chat (.ensureThread id kind refID uids)), .ok r⟩) :
    Membership R d r.id uids tr₂ c ↔ ∀ uid, d.before.world.db.Joined r.id uid → uid ∈ uids := by
  have hmem : d ∈ tr₁ ++ d :: tr₂ := by simp
  have hrun : ChatRepo.ensureThread d.before.world.clock id kind refID uids d.before.world.db = (.ok r, d.after.db) := h.ran hmem hd
  have hnames : ∀ uid ∈ uids, isUUID uid = true := by
    have hopens := access_prior h d hmem
    obtain ⟨b, t, o, res, w'⟩ := d
    cases hd
    exact hopens hparse
  have hactive := ChatRepo.ensureThread_active hnames hrun r.id
  constructor
  · intro hm uid hu
    exact (hm.members uid).1 ((hactive uid).2 (.inl hu))
  · intro hall
    have hmembers : ∀ uid, d.after.db.Joined r.id uid ↔ uid ∈ uids := by
      intro uid
      rw [hactive uid]
      exact ⟨fun hu => hu.elim (hall uid) And.right, fun hu => .inr ⟨rfl, hu⟩⟩
    refine ⟨hmembers, fun userID hnot hno => shut_out hparse h (fun uid hu => ?_) hno⟩
    have hin := (hmembers uid).1 hu
    exact ⟨hnames uid hin, fun heq => hnot (heq ▸ hin)⟩

end Law

/-! ## A member of the staff that is dropped -/

def newStaff : String := "33333333-3333-3333-3333-333333333333"

/-- The participants of a booking's thread are named. -/
def namesThem (uids : List String) : AccessCall :=
  .chat (.ensureThread "venue_booking" "bbbbbbbb-0000-0000-0000-000000000000" firstUser uids)

def ensures (uids : List String) (m : AccessMoment) : Bool :=
  match m.op, m.res with
  | .sql (.chat (.ensureThread _ _ _ uids')), .ok r => uids' == uids && r.id == firstThread
  | _, _ => false

theorem ensures_event {uids : List String} {m : AccessMoment} (h : ensures uids m = true) :
    ∃ id kind refID r, m.event = ⟨.sql (.chat (.ensureThread id kind refID uids)), .ok r⟩ ∧ r.id = firstThread := by
  unfold ensures at h
  split at h
  · rename_i id kind refID uids' r hop hres
    obtain ⟨b, t, o, res, w'⟩ := m
    obtain rfl : o = _ := hop
    obtain rfl : res = _ := eq_of_heq hres
    obtain ⟨huids, hid⟩ := Bool.and_eq_true_iff.1 h
    obtain rfl := eq_of_beq huids
    exact ⟨id, kind, refID, r, rfl, eq_of_beq hid⟩
  · cases h

/-- Two turns, each as far as the statement. -/
def dropped (first second : List String) : List (Move AccessCall String) :=
  [.start (namesThem first), .step 0 firstThread, .step 0 "", .start (namesThem second),
    .step 1 "aaaaaaaa-0000-0000-0000-000000000001", .step 1 ""]

def inThread (userID : String) (db : ChatDB) : Bool :=
  db.participants.rows.any fun r => r.threadID == firstThread && r.userID == userID && r.leftAt.isNone

theorem active_of_inThread {userID : String} {db : ChatDB} (h : inThread userID db = true) : db.Joined firstThread userID := by
  obtain ⟨r, hr, hp⟩ := List.any_eq_true.1 h
  simp only [Bool.and_eq_true, beq_iff_eq, Option.isNone_iff_eq_none] at hp
  exact ⟨r, hr, hp.1.1, hp.1.2, hp.2⟩

theorem plainParse_isUUID : ∀ s uid, plainParse.parse s = some uid → isUUID uid = true := by
  intro s uid h
  have hp : (if isUUID s then some s else none) = some uid := h
  by_cases hs : isUUID s = true
  · rw [if_pos hs] at hp
    rwa [← Option.some.inj hp]
  · rw [if_neg hs] at hp
    cases hp

/-- A schedule whose fourth operation names participants. -/
theorem dropped_trace (first second : List String) {Q : AccessMoment → Bool}
    (h : (play (accessSys plainParse).prog (fun id o w => SqlOp.turn accessRules id o w) (dropped first second) ⟨⟨emptyChat, 0, []⟩, []⟩).any
      (fun x => (x.1[3]?).any fun m => ensures second m && Q m) = true) :
    ∃ tr₁ d tr₂ c id kind refID r, (accessSys plainParse).Trace ⟨emptyChat, 0, []⟩ (tr₁ ++ d :: tr₂) c ∧
      d.event = ⟨.sql (.chat (.ensureThread id kind refID second)), .ok r⟩ ∧ r.id = firstThread ∧ Q d = true := by
  obtain ⟨tr, c, ht, hQ⟩ := Sys.Trace.played_to (fun _ _ => trivial) (fun id o w r w' => SqlOp.exec_of_turn id o w r w')
    (dropped first second) h
  obtain ⟨d, hd, hQ⟩ := (Option.any_eq_true _ _).1 hQ
  obtain ⟨hens, hQ⟩ := Bool.and_eq_true_iff.1 hQ
  obtain ⟨id, kind, refID, r, hevent, hid⟩ := ensures_event hens
  have htr : tr = tr.take 3 ++ d :: tr.drop 4 := (take_cons_drop hd).1
  rw [htr] at ht
  exact ⟨_, d, _, c, id, kind, refID, r, ht, hevent, hid, hQ⟩

theorem membership_iff_all : ∃ tr₁ d tr₂ c, (accessSys plainParse).Trace ⟨emptyChat, 0, []⟩ (tr₁ ++ d :: tr₂) c ∧
    (Membership plainParse d firstThread [firstUser, secondUser] tr₂ c ↔
      ∀ uid, d.before.world.db.Joined firstThread uid → uid ∈ [firstUser, secondUser]) := by
  obtain ⟨tr₁, d, tr₂, c, id, kind, refID, r, ht, hd, hid, -⟩ :=
    dropped_trace [firstUser, secondUser] [firstUser, secondUser] (Q := fun _ => true) (by decide +kernel)
  have hiff := membership_iff plainParse_isUUID ht hd
  rw [hid] at hiff
  exact ⟨tr₁, d, tr₂, c, ht, hiff⟩

/-- The user that is not named again is in the thread as before. -/
theorem member_stays : ¬ ∀ (R : ChatRules) (w₀ : ChatWorld) (tr₁ tr₂ : List AccessMoment) (d : AccessMoment) (c : AccessConfig),
    (∀ s uid, R.parse s = some uid → isUUID uid = true) → (accessSys R).Trace w₀ (tr₁ ++ d :: tr₂) c →
    ∀ (id kind refID : String) (uids : List String) (r : ThreadRow),
      d.event = ⟨.sql (.chat (.ensureThread id kind refID uids)), .ok r⟩ → Membership R d r.id uids tr₂ c := by
  intro hall
  obtain ⟨tr₁, d, tr₂, c, id, kind, refID, r, ht, hd, hid, hin⟩ :=
    dropped_trace [firstUser, secondUser] [firstUser, newStaff] (Q := fun m => inThread secondUser m.after.db) (by decide +kernel)
  have hm := hall plainParse _ tr₁ tr₂ d c plainParse_isUUID ht id kind refID _ r hd
  rw [hid] at hm
  exact absurd ((hm.members secondUser).1 (active_of_inThread hin)) (by decide)

end Agregator
