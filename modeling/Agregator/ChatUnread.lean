import Agregator.ChatHead
/-!
# ChatUnread — the counters of unread messages

A counter goes up by a trigger for each message of another, and starts again when its owner reads.  What it is to count is the
query that once filled it: the messages of others after the last one the owner has read.
-/
namespace Agregator

open Rel Conc

/-! ## What a counter is to count -/

/-- The order of the messages of a thread. -/
def ChatMessage.after (m wm : ChatMessage) : Bool :=
  decide (wm.createdAt < m.createdAt) || (m.createdAt == wm.createdAt && decide (wm.id < m.id))

def participantKey (threadID userID : String) (r : ParticipantRow) : Bool := r.threadID == threadID && r.userID == userID

namespace ChatDB

variable (db : ChatDB)

/-- The last message a user has read of a thread. -/
def watermark (threadID userID : String) : Option String :=
  (db.reads.get fun r => r.threadID == threadID && r.userID == userID).bind (·.lastReadMessageID)

/-- A message that comes after what has been read. -/
def counted (read : Option String) (m : ChatMessage) : Bool :=
  match read with
  | none => true
  | some wid => db.messages.rows.any fun wm => wm.id == wid && m.after wm

/-- The messages of others after one that has been read. -/
def unreadAfter (threadID userID : String) (read : Option String) : ℕ :=
  ((db.messagesOf threadID).filter fun m => m.authorUserID != userID && db.counted read m).length

/-- The back-fill of the counters. -/
def unreadBy (threadID userID : String) : ℕ := db.unreadAfter threadID userID (db.watermark threadID userID)

def participant (threadID userID : String) : Option ParticipantRow := db.participants.get (participantKey threadID userID)

/-- The counter of a user, zero if there is none. -/
def storedCount (threadID userID : String) : ℕ := ((db.participant threadID userID).map (·.unreadCount)).getD 0

/-- The user takes part in the thread. -/
def Active (threadID userID : String) : Prop := ∃ r, db.participant threadID userID = some r ∧ r.leftAt = none

/-- **The counters of the participants are right.** -/
def CountsRight : Prop := ∀ tid uid, db.Active tid uid → db.storedCount tid uid = db.unreadBy tid uid

/-- What the rows refer to is there. -/
structure Referred : Prop where
  threaded : ∀ m ∈ db.messages.rows, (ChatRepo.threadRow m.threadID db).isSome
  joined : ∀ r ∈ db.participants.rows, (ChatRepo.threadRow r.threadID db).isSome
  read : ∀ r ∈ db.reads.rows, ∀ wid, r.lastReadMessageID = some wid → ∃ m ∈ db.messages.rows, m.id = wid
  head : ∀ r ∈ db.threads.rows, ∀ wid, r.lastMessageID = some wid → ∃ m ∈ db.messages.rows, m.id = wid

end ChatDB

/-- When a transaction keeps the counters right: who joins finds no message of others unread, who reads leaves none, and a
message comes after whatever the others have read. -/
def ChatSql.Counts (s : ChatSql) (now : Time) (db : ChatDB) : Prop :=
  match s with
  | ensureThread _ kind refID uids => ∀ t, db.threads.get (fun r => r.kind == kind && r.refID == refID) = some t →
      ∀ uid ∈ uids, trimSpace uid ≠ "" → db.storedCount t.id (trimSpace uid) = db.unreadBy t.id (trimSpace uid)
  | insertMessage id tid uid text clientMsgID => db.messages.get (ChatRepo.sentBefore tid uid clientMsgID) = none →
      ∀ p, db.Active tid p → p ≠ uid → db.counted (db.watermark tid p) ⟨id, tid, uid, text, clientMsgID, now⟩ = true
  | markRead tid uid => ∀ t, ChatRepo.threadRow tid db = some t → db.Active tid uid → db.unreadAfter tid uid t.lastMessageID = 0
  | getThread _ | listParticipants _ | loadReads _ => True

/-! ## The counters after a statement -/

section Counters

variable {db db' : ChatDB} {now : Time} {tid uid : String}

theorem participantKey_iff {r : ParticipantRow} : participantKey tid uid r = true ↔ r.threadID = tid ∧ r.userID = uid := by
  simp [participantKey]

/-- The rows of the participants after an update that leaves their keys alone. -/
theorem participant_update {p : ParticipantRow → Bool} {f : ParticipantRow → ParticipantRow}
    (hu : db.participants.update p f = .ok db'.participants) (hf : ∀ r, (f r).threadID = r.threadID ∧ (f r).userID = r.userID)
    (tid uid : String) : db'.participant tid uid = (db.participant tid uid).map fun r => if p r then f r else r :=
  Table.get_update hu fun r => by
    unfold participantKey
    rw [(hf r).1, (hf r).2]

/-- An update that keeps the counters and takes nobody out. -/
theorem storedCount_update {p : ParticipantRow → Bool} {f : ParticipantRow → ParticipantRow}
    (hu : db.participants.update p f = .ok db'.participants) (hf : ∀ r, (f r).threadID = r.threadID ∧ (f r).userID = r.userID)
    (hc : ∀ r, (f r).unreadCount = r.unreadCount) (tid uid : String) : db'.storedCount tid uid = db.storedCount tid uid := by
  unfold ChatDB.storedCount
  rw [participant_update hu hf]
  cases db.participant tid uid with
  | none => rfl
  | some r =>
    by_cases hp : p r = true
    · simp [hp, hc]
    · simp [hp]

/-- An update that leaves the departures alone takes nobody in or out. -/
theorem active_update {p : ParticipantRow → Bool} {f : ParticipantRow → ParticipantRow}
    (hu : db.participants.update p f = .ok db'.participants) (hf : ∀ r, (f r).threadID = r.threadID ∧ (f r).userID = r.userID)
    (hl : ∀ r, (f r).leftAt = r.leftAt) (tid uid : String) : db'.Active tid uid ↔ db.Active tid uid := by
  unfold ChatDB.Active
  rw [participant_update hu hf]
  cases db.participant tid uid with
  | none => simp
  | some r =>
    by_cases hp : p r = true
    · simp [hp, hl]
    · simp [hp]

theorem participant_key {r : ParticipantRow} (h : db.participant tid uid = some r) : r.threadID = tid ∧ r.userID = uid :=
  participantKey_iff.1 (Table.get_mem h).2

/-- A participant is there, or is new. -/
theorem upsertParticipant_rows (h : ChatRepo.upsertParticipant now tid uid db = .ok db') :
    (db.participants.update (participantKey tid uid) (fun r => { r with leftAt := none }) = .ok db'.participants ∧
      (db.participant tid uid).isSome) ∨
    (db.participants.insert { threadID := tid, userID := uid, joinedAt := now } = .ok db'.participants ∧
      db.participant tid uid = none) := by
  unfold ChatRepo.upsertParticipant at h
  simp only at h
  cases hg : db.participants.get (fun r => r.threadID == tid && r.userID == uid) with
  | some r =>
    rw [hg] at h
    simp only at h
    split at h
    · cases h
    · rename_i participants hu
      cases h
      have hr : db.participant tid uid = some r := hg
      exact .inl ⟨hu, by rw [hr]; rfl⟩
  | none =>
    rw [hg] at h
    simp only at h
    split at h
    · cases h
    · rename_i participants hi
      cases h
      exact .inr ⟨hi, hg⟩

/-- **A participant that is put in is active, with the counter it had.** -/
theorem upsertParticipant_counts (h : ChatRepo.upsertParticipant now tid uid db = .ok db') :
    (∀ t u, db'.storedCount t u = db.storedCount t u) ∧ ∀ t u, db'.Active t u ↔ db.Active t u ∨ (t = tid ∧ u = uid) := by
  rcases upsertParticipant_rows h with ⟨hu, hsome⟩ | ⟨hi, hnone⟩
  · refine ⟨storedCount_update hu (fun _ => ⟨rfl, rfl⟩) fun _ => rfl, fun t u => ?_⟩
    unfold ChatDB.Active
    rw [participant_update hu fun _ => ⟨rfl, rfl⟩]
    by_cases hkey : t = tid ∧ u = uid
    · obtain ⟨rfl, rfl⟩ := hkey
      obtain ⟨r, hr⟩ := Option.isSome_iff_exists.1 hsome
      rw [hr, Option.map_some, if_pos (Table.get_mem hr).2]
      simp
    · have hsame : ((db.participant t u).map fun r => if participantKey tid uid r = true then
          { r with leftAt := none } else r) = db.participant t u := by
        cases hp : db.participant t u with
        | none => rfl
        | some x =>
          obtain ⟨ht, hu⟩ := participant_key hp
          rw [Option.map_some, if_neg]
          exact fun hx => hkey ⟨ht.symm.trans (participantKey_iff.1 hx).1, hu.symm.trans (participantKey_iff.1 hx).2⟩
      rw [hsame]
      simp [hkey]
  · have hget : ∀ t u, db'.participant t u = (db.participant t u).or
        (if t = tid ∧ u = uid then some { threadID := tid, userID := uid, joinedAt := now } else none) := by
      intro t u
      unfold ChatDB.participant
      rw [Table.get_insert hi]
      congr 1
      by_cases hkey : t = tid ∧ u = uid
      · rw [if_pos hkey, if_pos (participantKey_iff.2 ⟨hkey.1.symm, hkey.2.symm⟩)]
      · rw [if_neg hkey, if_neg]
        exact fun hk => hkey ⟨(participantKey_iff.1 hk).1.symm, (participantKey_iff.1 hk).2.symm⟩
    refine ⟨fun t u => ?_, fun t u => ?_⟩
    · unfold ChatDB.storedCount
      rw [hget]
      by_cases hkey : t = tid ∧ u = uid
      · obtain ⟨rfl, rfl⟩ := hkey
        rw [hnone, if_pos ⟨rfl, rfl⟩]
        rfl
      · rw [if_neg hkey, Option.or_none]
    · unfold ChatDB.Active
      rw [hget]
      by_cases hkey : t = tid ∧ u = uid
      · obtain ⟨rfl, rfl⟩ := hkey
        rw [hnone, if_pos ⟨rfl, rfl⟩]
        simp
      · rw [if_neg hkey, Option.or_none]
        simp [hkey]

theorem upsertParticipants_counts : ∀ {uids : List String} {db db' : ChatDB}, ChatRepo.upsertParticipants now tid uids db = .ok db' →
    (∀ t u, db'.storedCount t u = db.storedCount t u) ∧
      ∀ t u, db'.Active t u ↔ db.Active t u ∨ (t = tid ∧ ∃ uid ∈ uids, trimSpace uid ≠ "" ∧ u = trimSpace uid)
  | [], db, db', h => by
    cases h
    simp
  | uid :: uids, db, db', h => by
    unfold ChatRepo.upsertParticipants at h
    by_cases hn : trimSpace uid = ""
    · rw [if_pos hn] at h
      obtain ⟨hs, ha⟩ := upsertParticipants_counts h
      refine ⟨hs, fun t u => (ha t u).trans ?_⟩
      simp [hn]
    · rw [if_neg hn] at h
      split at h
      · cases h
      rename_i db₁ h₁
      obtain ⟨hs₁, ha₁⟩ := upsertParticipant_counts h₁
      obtain ⟨hs, ha⟩ := upsertParticipants_counts h
      refine ⟨fun t u => (hs t u).trans (hs₁ t u), fun t u => ?_⟩
      rw [ha, ha₁]
      constructor
      · rintro ((h | ⟨rfl, rfl⟩) | ⟨rfl, x, hx, hxn, rfl⟩)
        · exact .inl h
        · exact .inr ⟨rfl, uid, List.mem_cons_self, hn, rfl⟩
        · exact .inr ⟨rfl, x, List.mem_cons_of_mem _ hx, hxn, rfl⟩
      · rintro (h | ⟨rfl, x, hx, hxn, rfl⟩)
        · exact .inl (.inl h)
        · rcases List.mem_cons.1 hx with rfl | hx
          · exact .inl (.inr ⟨rfl, rfl⟩)
          · exact .inr ⟨rfl, x, hx, hxn, rfl⟩

/-! ### The messages and what has been read -/

/-- What is unread goes by the messages and by what has been read. -/
theorem unreadBy_same (hm : db'.messages = db.messages) (hr : db'.reads = db.reads) (t u : String) :
    db'.unreadBy t u = db.unreadBy t u := by
  unfold ChatDB.unreadBy ChatDB.unreadAfter ChatDB.watermark ChatDB.messagesOf ChatDB.counted
  rw [hm, hr]

/-- A message that is stored counts for what comes before it only if its identifier was known. -/
theorem counted_stored {m x : ChatMessage} {read : Option String} (hi : db.messages.insert m = .ok db'.messages)
    (hread : ∀ wid, read = some wid → ∃ y ∈ db.messages.rows, y.id = wid) : db'.counted read x = db.counted read x := by
  unfold ChatDB.counted
  cases read with
  | none => rfl
  | some wid =>
    simp only
    rw [Table.insert_rows hi, List.any_append]
    obtain ⟨y, hy, hid⟩ := hread wid rfl
    have hne : (m.id == wid) = false := by
      have hclash := (Table.of_insert_ok hi).2 y hy
      simp only [messageSchema, Bool.or_eq_false_iff] at hclash
      rw [Bool.beq_comm, ← hid]
      exact hclash.1
    simp [hne]

/-- **A message that is stored is unread by another if it comes after what that one has read.** -/
theorem unreadAfter_stored {m : ChatMessage} {read : Option String} (hi : db.messages.insert m = .ok db'.messages)
    (hread : ∀ wid, read = some wid → ∃ y ∈ db.messages.rows, y.id = wid) (t u : String) :
    db'.unreadAfter t u read = db.unreadAfter t u read +
      if m.threadID = t ∧ m.authorUserID ≠ u ∧ db.counted read m = true then 1 else 0 := by
  unfold ChatDB.unreadAfter ChatDB.messagesOf
  rw [Table.select_insert hi, List.filter_append, List.length_append]
  have hsame : (fun x : ChatMessage => x.authorUserID != u && db'.counted read x) =
      fun x => x.authorUserID != u && db.counted read x := funext fun x => by rw [counted_stored hi hread]
  rw [hsame]
  congr 1
  by_cases ht : m.threadID = t
  · rw [if_pos (beq_iff_eq.2 ht), List.filter_singleton]
    by_cases hc : m.authorUserID ≠ u ∧ db.counted read m = true
    · simp [ht, hc.1, hc.2, bne_iff_ne.2 hc.1]
    · rw [if_neg fun h => hc h.2]
      have : (m.authorUserID != u && db.counted read m) = false := by
        rw [Bool.and_eq_false_iff, bne_eq_false_iff_eq]
        by_cases hu : m.authorUserID = u
        · exact .inl hu
        · exact .inr (Bool.eq_false_iff.2 fun h => hc ⟨hu, h⟩)
      rw [this]
      rfl
  · rw [if_neg (by rwa [beq_iff_eq]), if_neg fun h => ht h.1]
    rfl

/-- What a transaction that notes a reading has written. -/
theorem markRead_rows (h : ChatRepo.markRead now tid uid db = (.ok (), db')) : db' = db ∧ ChatRepo.threadRow tid db = none ∨
    ∃ t, ChatRepo.threadRow tid db = some t ∧ db'.threads = db.threads ∧ db'.messages = db.messages ∧
      db.participants.update (participantKey tid uid) (fun r => { r with unreadCount := 0 }) = .ok db'.participants ∧
      (db.reads.update (fun r => r.threadID == tid && r.userID == uid)
          (fun r => { r with lastReadAt := some now, lastReadMessageID := t.lastMessageID }) = .ok db'.reads ∧
        (db.reads.get fun r => r.threadID == tid && r.userID == uid).isSome ∨
      db.reads.insert ⟨tid, uid, some now, t.lastMessageID⟩ = .ok db'.reads ∧
        (db.reads.get fun r => r.threadID == tid && r.userID == uid) = none) := by
  unfold ChatRepo.markRead at h
  simp only at h
  split at h
  · rename_i hnone
    cases h
    exact .inl ⟨rfl, hnone⟩
  rename_i t ht
  split at h
  · cases h
  rename_i reads hreads
  split at h
  · cases h
  rename_i db₁ hreset
  cases h
  unfold ChatRepo.resetUnread at hreset
  split at hreset
  · cases hreset
  rename_i participants hu
  cases hreset
  refine .inr ⟨t, ht, rfl, rfl, hu, ?_⟩
  split at hreads
  · rename_i r hr
    exact .inl ⟨hreads, by rw [hr]; rfl⟩
  · rename_i hr
    exact .inr ⟨hreads, hr⟩

/-- The last message a user has read is the last one the thread knows of. -/
theorem markRead_watermark {read : Option String}
    (h : db.reads.update (fun r => r.threadID == tid && r.userID == uid)
          (fun r => { r with lastReadAt := some now, lastReadMessageID := read }) = .ok db'.reads ∧
        (db.reads.get fun r => r.threadID == tid && r.userID == uid).isSome ∨
      db.reads.insert ⟨tid, uid, some now, read⟩ = .ok db'.reads ∧
        (db.reads.get fun r => r.threadID == tid && r.userID == uid) = none) (t u : String) :
    db'.watermark t u = if t = tid ∧ u = uid then read else db.watermark t u := by
  unfold ChatDB.watermark
  rcases h with ⟨hu, hsome⟩ | ⟨hi, hnone⟩
  · rw [Table.get_update hu fun _ => rfl]
    by_cases hkey : t = tid ∧ u = uid
    · obtain ⟨rfl, rfl⟩ := hkey
      obtain ⟨r, hr⟩ := Option.isSome_iff_exists.1 hsome
      rw [if_pos ⟨rfl, rfl⟩, hr, Option.map_some, if_pos (Table.get_mem hr).2]
      rfl
    · rw [if_neg hkey]
      cases hg : db.reads.get fun r => r.threadID == t && r.userID == u with
      | none => rfl
      | some r =>
        have hr := (Table.get_mem hg).2
        simp only [Bool.and_eq_true, beq_iff_eq] at hr
        rw [Option.map_some, if_neg]
        intro hx
        simp only [Bool.and_eq_true, beq_iff_eq] at hx
        exact hkey ⟨hr.1.symm.trans hx.1, hr.2.symm.trans hx.2⟩
  · rw [Table.get_insert hi]
    by_cases hkey : t = tid ∧ u = uid
    · obtain ⟨rfl, rfl⟩ := hkey
      rw [hnone]
      simp
    · have hno : ¬ ((tid == t && uid == u) = true) := by
        intro hx
        simp only [Bool.and_eq_true, beq_iff_eq] at hx
        exact hkey ⟨hx.1.symm, hx.2.symm⟩
      rw [if_neg hkey, if_neg hno, Option.or_none]

/-! ### What the rows refer to -/

theorem ChatDB.Referred.watermark (h : db.Referred) {wid : String} (hw : db.watermark tid uid = some wid) :
    ∃ m ∈ db.messages.rows, m.id = wid := by
  obtain ⟨r, hr, hlast⟩ := Option.bind_eq_some_iff.1 hw
  exact h.read r (Table.get_mem hr).1 wid hlast

/-- Rows refer to what is there as long as nothing is taken away. -/
theorem ChatDB.Referred.grown (h : db.Referred) (hthreads : ∀ id, (ChatRepo.threadRow id db).isSome → (ChatRepo.threadRow id db').isSome)
    (hmsgs : ∀ m ∈ db.messages.rows, m ∈ db'.messages.rows)
    (hm : ∀ m ∈ db'.messages.rows, m ∈ db.messages.rows ∨ (ChatRepo.threadRow m.threadID db').isSome)
    (hp : ∀ r ∈ db'.participants.rows, (∃ r' ∈ db.participants.rows, r'.threadID = r.threadID) ∨
      (ChatRepo.threadRow r.threadID db').isSome)
    (hr : ∀ r ∈ db'.reads.rows, (∃ r' ∈ db.reads.rows, r'.lastReadMessageID = r.lastReadMessageID) ∨
      ∃ t ∈ db.threads.rows, r.lastReadMessageID = t.lastMessageID)
    (ht : ∀ t ∈ db'.threads.rows, (∃ t' ∈ db.threads.rows, t'.lastMessageID = t.lastMessageID) ∨
      ∀ wid, t.lastMessageID = some wid → ∃ m ∈ db'.messages.rows, m.id = wid) : db'.Referred := by
  have hgrown : ∀ wid, (∃ m ∈ db.messages.rows, m.id = wid) → ∃ m ∈ db'.messages.rows, m.id = wid := by
    rintro wid ⟨m, hmem, hid⟩
    exact ⟨m, hmsgs m hmem, hid⟩
  constructor
  · intro m hmem
    rcases hm m hmem with hold | hnew
    · exact hthreads _ (h.threaded m hold)
    · exact hnew
  · intro r hmem
    rcases hp r hmem with ⟨r', hr', hid⟩ | hnew
    · rw [← hid]
      exact hthreads _ (h.joined r' hr')
    · exact hnew
  · intro r hmem wid hw
    rcases hr r hmem with ⟨r', hr', hlast⟩ | ⟨t, htm, hlast⟩
    · exact hgrown wid (h.read r' hr' wid (hlast.trans hw))
    · exact hgrown wid (h.head t htm wid (hlast.symm.trans hw))
  · intro t hmem wid hw
    rcases ht t hmem with ⟨t', ht', hlast⟩ | hnew
    · exact hgrown wid (h.head t' ht' wid (hlast.trans hw))
    · exact hnew wid hw

/-- The rows after an update. -/
theorem mem_of_update {α : Type} {S : Schema α} {t t' : Table S} {p : α → Bool} {f : α → α} (h : t.update p f = .ok t') {r : α}
    (hr : r ∈ t'.rows) : ∃ r' ∈ t.rows, r = if p r' then f r' else r' := by
  rw [Table.update_rows h] at hr
  obtain ⟨r', hr', rfl⟩ := List.mem_map.1 hr
  exact ⟨r', hr', rfl⟩

theorem upsertParticipants_threads : ∀ {uids : List String} {db db' : ChatDB},
    ChatRepo.upsertParticipants now tid uids db = .ok db' →
      ∀ r ∈ db'.participants.rows, (∃ r' ∈ db.participants.rows, r'.threadID = r.threadID) ∨ r.threadID = tid
  | [], db, db', h, r, hr => by
    cases h
    exact .inl ⟨r, hr, rfl⟩
  | uid :: uids, db, db', h, r, hr => by
    unfold ChatRepo.upsertParticipants at h
    split at h
    · exact upsertParticipants_threads h r hr
    split at h
    · cases h
    rename_i db₁ h₁
    rcases upsertParticipants_threads h r hr with ⟨r₁, hr₁, hid⟩ | hid
    · rcases upsertParticipant_rows h₁ with ⟨hu, -⟩ | ⟨hi, -⟩
      · obtain ⟨r', hr', rfl⟩ := mem_of_update hu hr₁
        refine .inl ⟨r', hr', ?_⟩
        rw [← hid]
        split <;> rfl
      · rw [Table.insert_rows hi] at hr₁
        rcases List.mem_append.1 hr₁ with hr₁ | hr₁
        · exact .inl ⟨r₁, hr₁, hid⟩
        · rw [List.mem_singleton.1 hr₁] at hid
          exact .inr hid.symm
    · exact .inr hid

/-- The thread of a reference is there, or is new. -/
theorem upsertThread_cases {id kind refID : String} {r : ThreadRow} (h : ChatRepo.upsertThread now id kind refID db = .ok (r, db')) :
    (∃ t, db.threads.get (fun x => x.kind == kind && x.refID == refID) = some t ∧ r.id = t.id ∧
      db.threads.update (fun x => x.kind == kind && x.refID == refID) (fun x => { x with updatedAt := now }) = .ok db'.threads) ∨
    (db.threads.get (fun x => x.kind == kind && x.refID == refID) = none ∧ r.id = id ∧ r.lastMessageID = none ∧
      db.threads.insert r = .ok db'.threads) := by
  unfold ChatRepo.upsertThread at h
  simp only at h
  split at h
  · rename_i t ht
    split at h
    · cases h
    · rename_i threads hu
      cases h
      exact .inl ⟨t, ht, rfl, hu⟩
  · rename_i ht
    split at h
    · cases h
    · rename_i threads hi
      cases h
      exact .inr ⟨ht, rfl, rfl, hi⟩

/-- The thread that comes back is there, as are the threads of before. -/
theorem upsertThread_there {id kind refID : String} {r : ThreadRow} (h : ChatRepo.upsertThread now id kind refID db = .ok (r, db')) :
    (ChatRepo.threadRow r.id db').isSome ∧ (∀ x, (ChatRepo.threadRow x db).isSome → (ChatRepo.threadRow x db').isSome) ∧
      ∀ t ∈ db'.threads.rows, (∃ t' ∈ db.threads.rows, t'.lastMessageID = t.lastMessageID) ∨ t.lastMessageID = none := by
  rcases upsertThread_cases h with ⟨t, ht, hid, hu⟩ | ⟨-, -, hlast, hi⟩
  · have hrow := fun x => threadRow_update hu (fun _ => rfl) x
    refine ⟨?_, fun x hx => ?_, fun t' ht' => ?_⟩
    · rw [hid, hrow, threadRow_of_mem (Table.get_mem ht).1]
      rfl
    · rw [hrow, Option.isSome_map]
      exact hx
    · obtain ⟨t₀, ht₀, rfl⟩ := mem_of_update hu ht'
      refine .inl ⟨t₀, ht₀, ?_⟩
      split <;> rfl
  · have hrow : ∀ x, ChatRepo.threadRow x db' = (ChatRepo.threadRow x db).or (if (r.id == x) = true then some r else none) :=
      fun x => Table.get_insert hi _
    refine ⟨?_, fun x hx => ?_, fun t' ht' => ?_⟩
    · rw [hrow]
      simp
    · rw [hrow, Option.isSome_or, hx]
      rfl
    · rw [Table.insert_rows hi] at ht'
      rcases List.mem_append.1 ht' with ht' | ht'
      · exact .inl ⟨t', ht', rfl⟩
      · rw [List.mem_singleton.1 ht']
        exact .inr hlast

/-- **What the rows refer to stays there.** -/
theorem ChatSql.run_referred {s : ChatSql} {a : s.Ans} (h : db.Referred) (hrun : s.run now db = (.ok a, db')) : db'.Referred := by
  cases s with
  | getThread id | listParticipants threadID | loadReads threadID =>
    cases hrun
    exact h
  | markRead tid uid =>
    rcases markRead_rows hrun with ⟨rfl, -⟩ | ⟨t, ht, hthreads, hmsgs, hp, hreads⟩
    · exact h
    have hsame : ∀ id, ChatRepo.threadRow id db' = ChatRepo.threadRow id db := fun id => by
      unfold ChatRepo.threadRow
      rw [hthreads]
    refine h.grown (fun id hid => by rwa [hsame]) (fun m hm => by rwa [hmsgs]) (fun m hm => ?_) (fun r hr => ?_) (fun r hr => ?_)
      fun r hr => ?_
    · rw [hmsgs] at hm
      exact .inl hm
    · obtain ⟨r', hr', rfl⟩ := mem_of_update hp hr
      refine .inl ⟨r', hr', ?_⟩
      split <;> rfl
    · rcases hreads with ⟨hu, -⟩ | ⟨hi, -⟩
      · obtain ⟨r', hr', rfl⟩ := mem_of_update hu hr
        split
        · exact .inr ⟨t, (threadRow_mem ht).1, rfl⟩
        · exact .inl ⟨r', hr', rfl⟩
      · rw [Table.insert_rows hi] at hr
        rcases List.mem_append.1 hr with hr | hr
        · exact .inl ⟨r, hr, rfl⟩
        · rw [List.mem_singleton.1 hr]
          exact .inr ⟨t, (threadRow_mem ht).1, rfl⟩
    · rw [hthreads] at hr
      exact .inl ⟨r, hr, rfl⟩
  | ensureThread id kind refID uids =>
    obtain ⟨db₁, h₁, h₂⟩ := ChatRepo.ensureThread_ok hrun
    obtain ⟨hm₁, hp₁, hr₁, -⟩ := ChatRepo.upsertThread_ok h₁
    obtain ⟨ht₂, hm₂, hr₂⟩ := ChatRepo.upsertParticipants_ok h₂
    obtain ⟨hthere, hgrow, hlast⟩ := upsertThread_there h₁
    have hrow : ∀ x, ChatRepo.threadRow x db' = ChatRepo.threadRow x db₁ := fun x => by
      unfold ChatRepo.threadRow
      rw [ht₂]
    refine h.grown (fun x hx => ?_) (fun m hm => ?_) (fun m hm => ?_) (fun r hr => ?_) (fun r hr => ?_) fun t ht => ?_
    · rw [hrow]
      exact hgrow x hx
    · rwa [hm₂, hm₁]
    · rw [hm₂, hm₁] at hm
      exact .inl hm
    · rcases upsertParticipants_threads h₂ r hr with ⟨r', hr', hid⟩ | hid
      · rw [hp₁] at hr'
        exact .inl ⟨r', hr', hid⟩
      · rw [hrow, hid]
        exact .inr hthere
    · rw [hr₂, hr₁] at hr
      exact .inl ⟨r, hr, rfl⟩
    · rw [ht₂] at ht
      refine (hlast t ht).imp_right fun hnone wid hw => ?_
      rw [hnone] at hw
      cases hw
  | insertMessage id tid uid text cid =>
    obtain ⟨db₁, hput, htouch, -⟩ := ChatRepo.insertMessage_ok hrun
    obtain ⟨hm₂, hp₂, hr₂, hu⟩ := ChatRepo.touchThread_ok htouch
    cases hold : db.messages.get (ChatRepo.sentBefore tid uid cid) with
    | some old =>
      rw [ChatRepo.putMessage_old hold] at hput
      obtain ⟨hold', rfl⟩ : old = a.1 ∧ db = db₁ := Prod.mk.inj (Except.ok.inj hput)
      have hrow := fun x => threadRow_update hu (fun _ => rfl) x
      refine h.grown (fun x hx => ?_) (fun m hm => by rwa [hm₂]) (fun m hm => ?_) (fun r hr => ?_) (fun r hr => ?_) fun t ht => ?_
      · rw [hrow, Option.isSome_map]
        exact hx
      · rw [hm₂] at hm
        exact .inl hm
      · rw [hp₂] at hr
        exact .inl ⟨r, hr, rfl⟩
      · rw [hr₂] at hr
        exact .inl ⟨r, hr, rfl⟩
      · obtain ⟨t', ht', rfl⟩ := mem_of_update hu ht
        split
        · refine .inr fun wid hw => ⟨a.1, ?_, Option.some.inj hw⟩
          rw [hm₂, ← hold']
          exact (Table.get_mem hold).1
        · exact .inl ⟨t', ht', rfl⟩
    | none =>
      obtain ⟨hmsg, hthread, ht₁, hr₁, hi, hp₁⟩ := ChatRepo.putMessage_new hold hput
      rw [ht₁] at hu
      rw [← hm₂] at hi
      rw [← hp₂] at hp₁
      have hrow := fun x => threadRow_update hu (fun _ => rfl) x
      refine h.grown (fun x hx => ?_) (fun m hm => ?_) (fun m hm => ?_) (fun r hr => ?_) (fun r hr => ?_) fun t ht => ?_
      · rw [hrow, Option.isSome_map]
        exact hx
      · rw [Table.insert_rows hi]
        exact List.mem_append_left _ hm
      · rw [Table.insert_rows hi] at hm
        rcases List.mem_append.1 hm with hm | hm
        · exact .inl hm
        · rw [List.mem_singleton.1 hm, hrow, Option.isSome_map, hmsg]
          exact .inr hthread
      · obtain ⟨r', hr', rfl⟩ := mem_of_update hp₁ hr
        refine .inl ⟨r', hr', ?_⟩
        split <;> rfl
      · rw [hr₂, hr₁] at hr
        exact .inl ⟨r, hr, rfl⟩
      · obtain ⟨t', ht', rfl⟩ := mem_of_update hu ht
        split
        · refine .inr fun wid hw => ⟨a.1, ?_, Option.some.inj hw⟩
          rw [Table.insert_rows hi]
          exact List.mem_append_right _ (List.mem_singleton.2 rfl)
        · exact .inl ⟨t', ht', rfl⟩

/-! ### The counters after a transaction -/

/-- A thread nothing refers to has nobody in it and nothing to read. -/
theorem ChatDB.Referred.untouched (h : db.Referred) (hnone : ChatRepo.threadRow tid db = none) (u : String) :
    db.storedCount tid u = 0 ∧ db.unreadBy tid u = 0 := by
  constructor
  · unfold ChatDB.storedCount
    cases hp : db.participant tid u with
    | none => rfl
    | some r =>
      have hthere := h.joined r (Table.get_mem hp).1
      rw [(participant_key hp).1, hnone] at hthere
      cases hthere
  · have hmsgs : db.messagesOf tid = [] := by
      refine List.filter_eq_nil_iff.2 fun m hm hid => ?_
      have hthere := h.threaded m hm
      rw [beq_iff_eq.1 hid, hnone] at hthere
      cases hthere
    unfold ChatDB.unreadBy ChatDB.unreadAfter
    rw [hmsgs]
    rfl

/-- **Who joins keeps the counters right exactly when nothing is unread for them.** -/
theorem ensureThread_right_iff {id kind refID : String} {uids : List String} {r : ThreadRow} (href : db.Referred) (h : db.CountsRight)
    (hrun : ChatRepo.ensureThread now id kind refID uids db = (.ok r, db')) :
    db'.CountsRight ↔ (ChatSql.ensureThread id kind refID uids).Counts now db := by
  obtain ⟨db₁, h₁, h₂⟩ := ChatRepo.ensureThread_ok hrun
  obtain ⟨hm₁, hp₁, hr₁, -⟩ := ChatRepo.upsertThread_ok h₁
  obtain ⟨-, hm₂, hr₂⟩ := ChatRepo.upsertParticipants_ok h₂
  obtain ⟨hs, ha⟩ := upsertParticipants_counts h₂
  have hpart : ∀ t u, db₁.participant t u = db.participant t u := fun t u => by
    unfold ChatDB.participant
    rw [hp₁]
  have hstored : ∀ t u, db'.storedCount t u = db.storedCount t u := fun t u => by
    rw [hs]
    unfold ChatDB.storedCount
    rw [hpart]
  have hunread : ∀ t u, db'.unreadBy t u = db.unreadBy t u := unreadBy_same (hm₂.trans hm₁) (hr₂.trans hr₁)
  have hactive : ∀ t u, db₁.Active t u ↔ db.Active t u := fun t u => by
    unfold ChatDB.Active
    rw [hpart]
  have key : db'.CountsRight ↔ ∀ uid ∈ uids, trimSpace uid ≠ "" → db.storedCount r.id (trimSpace uid) = db.unreadBy r.id (trimSpace uid) := by
    constructor
    · intro hright uid huid hne
      have := hright r.id (trimSpace uid) ((ha _ _).2 (.inr ⟨rfl, uid, huid, hne, rfl⟩))
      rwa [hstored, hunread] at this
    · intro hjoin t u hact
      rw [hstored, hunread]
      rcases (ha t u).1 hact with hold | ⟨rfl, uid, huid, hne, rfl⟩
      · exact h t u ((hactive t u).1 hold)
      · exact hjoin uid huid hne
  rw [key]
  rcases upsertThread_cases h₁ with ⟨t, ht, hid, -⟩ | ⟨hnone, -, -, hi⟩
  · rw [hid]
    constructor
    · intro hjoin t' ht'
      obtain rfl : t = t' := Option.some.inj (ht.symm.trans ht')
      exact hjoin
    · exact fun hc => hc t ht
  · have hnew : ChatRepo.threadRow r.id db = none := by
      refine Table.get_eq_none.2 fun x hx => ?_
      have hclash := (Table.of_insert_ok hi).2 x hx
      simp only [threadSchema, Bool.or_eq_false_iff] at hclash
      exact hclash.1
    constructor
    · intro _ t ht
      rw [hnone] at ht
      cases ht
    · intro _ uid _ _
      rw [(href.untouched hnew _).1, (href.untouched hnew _).2]

/-- **A message that is stored keeps the counters right exactly when it comes after whatever the others have read.** -/
theorem stored_right_iff {id text cid : String} {a : ChatMessage × ChatThread} (href : db.Referred) (h : db.CountsRight)
    (hrun : ChatRepo.insertMessage now id tid uid text cid db = (.ok a, db'))
    (hnew : db.messages.get (ChatRepo.sentBefore tid uid cid) = none) :
    db'.CountsRight ↔ (ChatSql.insertMessage id tid uid text cid).Counts now db := by
  obtain ⟨db₁, hput, htouch, -⟩ := ChatRepo.insertMessage_ok hrun
  obtain ⟨hm₂, hp₂, hr₂, -⟩ := ChatRepo.touchThread_ok htouch
  obtain ⟨hmsg, -, -, hr₁, hi, hp₁⟩ := ChatRepo.putMessage_new hnew hput
  rw [← hm₂] at hi
  rw [← hp₂] at hp₁
  have hpart := participant_update hp₁ fun _ => ⟨rfl, rfl⟩
  have hwater : ∀ t u, db'.watermark t u = db.watermark t u := fun t u => by
    unfold ChatDB.watermark
    rw [hr₂, hr₁]
  have hactive := active_update hp₁ (fun _ => ⟨rfl, rfl⟩) fun _ => rfl
  have hstored : ∀ t u, db.Active t u → db'.storedCount t u = db.storedCount t u + if tid = t ∧ uid ≠ u then 1 else 0 := by
    rintro t u ⟨r, hr, hleft⟩
    obtain ⟨hrt, hru⟩ := participant_key hr
    unfold ChatDB.storedCount
    rw [hpart, hr]
    by_cases hkey : tid = t ∧ uid ≠ u
    · have hp : (r.threadID == tid && r.userID != uid && r.leftAt.isNone) = true := by
        simp [hrt, hru, hkey.1, hleft, Ne.symm hkey.2]
      rw [Option.map_some, if_pos hp, if_pos hkey]
      rfl
    · have hp : ¬ (r.threadID == tid && r.userID != uid && r.leftAt.isNone) = true := by
        intro hp
        simp only [Bool.and_eq_true, beq_iff_eq, bne_iff_ne, hrt, hru] at hp
        exact hkey ⟨hp.1.1.symm, Ne.symm hp.1.2⟩
      rw [Option.map_some, if_neg hp, if_neg hkey]
      rfl
  have hunread : ∀ t u, db'.unreadBy t u = db.unreadBy t u +
      if a.1.threadID = t ∧ a.1.authorUserID ≠ u ∧ db.counted (db.watermark t u) a.1 = true then 1 else 0 := fun t u => by
    unfold ChatDB.unreadBy
    rw [hwater]
    exact unreadAfter_stored hi (fun wid hw => href.watermark hw) t u
  have hthread : a.1.threadID = tid := by rw [hmsg]
  have hauthor : a.1.authorUserID = uid := by rw [hmsg]
  constructor
  · intro hright _ p hact hne
    have heq := hright tid p ((hactive tid p).2 hact)
    rw [hstored tid p hact, hunread, h tid p hact, hthread, hauthor, if_pos ⟨rfl, hne.symm⟩] at heq
    by_contra hcount
    rw [← hmsg] at hcount
    rw [if_neg fun hc => hcount hc.2.2] at heq
    omega
  · intro hcount t u hact
    have hact := (hactive t u).1 hact
    rw [hstored t u hact, hunread, h t u hact, hthread, hauthor]
    by_cases hkey : tid = t ∧ uid ≠ u
    · obtain ⟨rfl, hne⟩ := hkey
      have hc := hcount hnew u hact hne.symm
      rw [← hmsg] at hc
      rw [if_pos ⟨rfl, hne⟩, if_pos ⟨rfl, hne, hc⟩]
    · rw [if_neg hkey, if_neg fun hc => hkey ⟨hc.1, hc.2.1⟩]

/-- **Who reads keeps the counters right exactly when nothing of others comes after what is read.** -/
theorem markRead_right_iff (h : db.CountsRight) (hrun : ChatRepo.markRead now tid uid db = (.ok (), db')) :
    db'.CountsRight ↔ (ChatSql.markRead tid uid).Counts now db := by
  rcases markRead_rows hrun with ⟨rfl, hnone⟩ | ⟨t, ht, -, hmsgs, hp, hreads⟩
  · constructor
    · intro _ t ht
      rw [hnone] at ht
      cases ht
    · exact fun _ => h
  have hpart := participant_update hp fun _ => ⟨rfl, rfl⟩
  have hwater := markRead_watermark hreads
  have hactive := active_update hp (fun _ => ⟨rfl, rfl⟩) fun _ => rfl
  have hafter : ∀ t u read, db'.unreadAfter t u read = db.unreadAfter t u read := fun t u read => by
    unfold ChatDB.unreadAfter ChatDB.messagesOf ChatDB.counted
    rw [hmsgs]
  have hother : ∀ x u, ¬ (x = tid ∧ u = uid) → db'.storedCount x u = db.storedCount x u := fun x u hkey => by
    unfold ChatDB.storedCount
    rw [hpart]
    cases hr : db.participant x u with
    | none => rfl
    | some r =>
      obtain ⟨hrt, hru⟩ := participant_key hr
      have hno : ¬ participantKey tid uid r = true := fun hk =>
        hkey ⟨hrt.symm.trans (participantKey_iff.1 hk).1, hru.symm.trans (participantKey_iff.1 hk).2⟩
      simp [hno]
  have hown : db'.storedCount tid uid = 0 := by
    unfold ChatDB.storedCount
    rw [hpart]
    cases hr : db.participant tid uid with
    | none => rfl
    | some r => simp [(Table.get_mem hr).2]
  constructor
  · intro hright t' ht' hact
    obtain rfl : t = t' := Option.some.inj (ht.symm.trans ht')
    have heq := hright tid uid ((hactive tid uid).2 hact)
    unfold ChatDB.unreadBy at heq
    rw [hown, hwater, if_pos ⟨rfl, rfl⟩, hafter] at heq
    exact heq.symm
  · intro hcount x u hact
    have hact := (hactive x u).1 hact
    unfold ChatDB.unreadBy
    rw [hwater, hafter]
    by_cases hkey : x = tid ∧ u = uid
    · obtain ⟨rfl, rfl⟩ := hkey
      rw [if_pos ⟨rfl, rfl⟩, hown, hcount t ht hact]
    · rw [if_neg hkey, hother x u hkey]
      exact h x u hact

/-- **A transaction that succeeds keeps the counters right exactly under its condition.** -/
theorem ChatSql.run_right_iff {s : ChatSql} {a : s.Ans} (href : db.Referred) (h : db.CountsRight)
    (hrun : s.run now db = (.ok a, db')) : db'.CountsRight ↔ s.Counts now db := by
  cases s with
  | getThread id | listParticipants threadID | loadReads threadID =>
    cases hrun
    exact ⟨fun _ => trivial, fun _ => h⟩
  | ensureThread id kind refID uids => exact ensureThread_right_iff href h hrun
  | markRead tid uid => exact markRead_right_iff h hrun
  | insertMessage id tid uid text cid =>
    cases hold : db.messages.get (ChatRepo.sentBefore tid uid cid) with
    | none => exact stored_right_iff href h hrun hold
    | some old =>
      obtain ⟨-, hm, hp, -⟩ := resent_ok hold hrun
      obtain ⟨db₁, hput, htouch, -⟩ := ChatRepo.insertMessage_ok hrun
      rw [ChatRepo.putMessage_old hold] at hput
      obtain ⟨-, rfl⟩ : old = a.1 ∧ db = db₁ := Prod.mk.inj (Except.ok.inj hput)
      obtain ⟨-, -, hr, -⟩ := ChatRepo.touchThread_ok htouch
      constructor
      · intro _ hnone
        rw [hold] at hnone
        cases hnone
      · intro _ t u hact
        have hpart : db'.participant t u = db.participant t u := by
          unfold ChatDB.participant
          rw [hp]
        unfold ChatDB.Active at hact
        rw [hpart] at hact
        rw [unreadBy_same hm hr, ← h t u hact]
        unfold ChatDB.storedCount
        rw [hpart]

end Counters

/-! ## Every run -/

/-- The transaction that takes effect meets its condition. -/
def ChatMoment.Counts (m : ChatMoment) : Prop :=
  ChatMoment.Lands m → ∀ s, m.op = .sql s → s.Counts m.before.world.clock m.before.world.db

section Runs

variable {R : ChatRules} {w₀ : ChatWorld} {tr : List ChatMoment} {c : ChatConfig} {m : ChatMoment}

theorem referred_of_trace (h : (chatSys R).Trace w₀ tr c) (h0 : w₀.db.Referred) : c.world.db.Referred := by
  refine h.pool_inv (P := fun m => m.Step (chatSys R)) (fun w _ => w.db.Referred) h0 (fun _ _ _ hw _ => hw) ?_ ?_ h.steps
  · intro w w' ts₁ ts₂ c h o k r hw he hstep
    rcases ChatMoment.lands_or hstep with hdb | ⟨s, a, -, hrun⟩
    · have hdb : w'.db = w.db := hdb
      rwa [hdb]
    · exact ChatSql.run_referred hw hrun
  · rintro w w' _ hw ⟨later, -, rfl⟩
    exact hw

theorem ChatMoment.right_iff (hm : m.Step (chatSys R)) (href : m.before.world.db.Referred) (h : m.before.world.db.CountsRight) :
    m.after.db.CountsRight ↔ ChatMoment.Counts m := by
  constructor
  · rintro hright ⟨s, a, hs, hrun⟩ s' hs'
    obtain rfl : s = s' := SqlOp.sql.inj (hs.symm.trans hs')
    exact (ChatSql.run_right_iff href h hrun).1 hright
  · intro hc
    rcases ChatMoment.lands_or hm with hdb | hl
    · rwa [hdb]
    · obtain ⟨s, a, hs, hrun⟩ := hl
      exact (ChatSql.run_right_iff href h hrun).2 (hc ⟨s, a, hs, hrun⟩ s hs)

theorem right_of_counts (h : (chatSys R).Trace w₀ tr c) (h0 : w₀.db.Referred) (hc : w₀.db.CountsRight)
    (hall : ∀ m ∈ tr, ChatMoment.Counts m) : c.world.db.CountsRight := by
  have hboth : c.world.db.Referred ∧ c.world.db.CountsRight := by
    refine h.pool_inv (P := fun m => m.Step (chatSys R) ∧ ChatMoment.Counts m) (fun w _ => w.db.Referred ∧ w.db.CountsRight) ⟨h0, hc⟩
      (fun _ _ _ hw _ => hw) ?_ ?_ fun m hm => ⟨h.steps m hm, hall m hm⟩
    · rintro w w' ts₁ ts₂ c h o k r ⟨href, hright⟩ he ⟨hstep, hcount⟩
      refine ⟨?_, (ChatMoment.right_iff hstep href hright).2 hcount⟩
      rcases ChatMoment.lands_or hstep with hdb | ⟨s, a, -, hrun⟩
      · have hdb : w'.db = w.db := hdb
        rwa [hdb]
      · exact ChatSql.run_referred href hrun
    · rintro w w' _ hw ⟨later, -, rfl⟩
      exact hw
  exact hboth.2

/-- **The counters are right in every state of a run if and only if every transaction that takes effect meets its condition.** -/
theorem counts_right_iff (h : (chatSys R).Trace w₀ tr c) (h0 : w₀.db.Referred) (hc : w₀.db.CountsRight) :
    (∀ m ∈ tr, m.after.db.CountsRight) ↔ ∀ m ∈ tr, ChatMoment.Counts m := by
  constructor
  · intro hall m hm
    obtain ⟨tr₁, tr₂, rfl⟩ := List.append_of_mem hm
    have hbefore := h.before rfl
    refine (ChatMoment.right_iff (h.steps m hm) (referred_of_trace hbefore h0) ?_).1 (hall m hm)
    rcases hbefore.db_origin with hdb | ⟨m', hm', hdb⟩
    · rwa [hdb]
    · rw [← hdb]
      exact hall m' (List.mem_append_left _ hm')
  · intro hall m hm
    obtain ⟨tr₁, tr₂, rfl⟩ := List.append_of_mem hm
    have hbefore := h.before rfl
    refine (ChatMoment.right_iff (h.steps m hm) (referred_of_trace hbefore h0) ?_).2 (hall m hm)
    exact right_of_counts hbefore h0 hc fun m' hm' => hall m' (List.mem_append_left _ hm')

end Runs

/-! ## A participant that comes late -/

def lateUser : String := "33333333-3333-3333-3333-333333333333"

/-- A third user joins when there is a message. -/
def joinsLate : List (Turn ChatCall) :=
  [⟨1, .ensureThread "venue_booking" "bbbbbbbb-0000-0000-0000-000000000000" firstUser [firstUser, secondUser], [firstThread]⟩,
    ⟨2, .sendMessage firstThread firstUser "Hello" "m1", ["c0000000-0000-0000-0000-000000000001"]⟩,
    ⟨3, .ensureThread "venue_booking" "bbbbbbbb-0000-0000-0000-000000000000" firstUser [firstUser, secondUser, lateUser],
      ["aaaaaaaa-0000-0000-0000-000000000001"]⟩]

theorem emptyChat_referred : emptyChat.Referred :=
  ⟨fun _ hm => absurd hm List.not_mem_nil, fun _ hm => absurd hm List.not_mem_nil, fun _ hm => absurd hm List.not_mem_nil,
    fun _ hm => absurd hm List.not_mem_nil⟩

theorem emptyChat_right : emptyChat.CountsRight := by
  rintro tid uid ⟨r, hr, -⟩
  exact absurd (Table.get_mem hr).1 List.not_mem_nil

theorem joinsLate_counts : (playAll chatRules (ChatCall.prog plainParse) joinsLate emptyChat).map (fun db =>
    ((db.participant firstThread lateUser).map (fun r => (r.leftAt.isNone, r.unreadCount)), db.unreadBy firstThread lateUser)) =
    some (some (true, 0), 1) := by decide +kernel

/-- A run leads to a counter that is not right. -/
theorem joinsLate_trace : ∃ tr c, (chatSys plainParse).Trace ⟨emptyChat, 0, []⟩ tr c ∧ ∃ m ∈ tr, ¬ m.after.db.CountsRight := by
  obtain ⟨db, hdb, hres⟩ := Option.map_eq_some_iff.1 joinsLate_counts
  obtain ⟨tr, w, ts, ht, rfl⟩ := played hdb (by decide) (by decide)
  have hbad : ¬ w.db.CountsRight := by
    intro h
    simp only [Prod.mk.injEq] at hres
    obtain ⟨hlate, hunread⟩ := hres
    obtain ⟨r, hr, hcount⟩ := Option.map_eq_some_iff.1 hlate
    obtain ⟨hleft, hzero⟩ := Prod.mk.inj hcount
    have heq := h firstThread lateUser ⟨r, hr, Option.isNone_iff_eq_none.1 hleft⟩
    unfold ChatDB.storedCount at heq
    rw [hr, hunread, Option.map_some, Option.getD_some, hzero] at heq
    exact absurd heq (by decide)
  rcases ht.db_origin with hdb | ⟨m, hm, hdb⟩
  · have hdb : w.db = emptyChat := hdb
    rw [hdb] at hbad
    exact absurd emptyChat_right hbad
  · have hdb : m.after.db = w.db := hdb
    exact ⟨tr, _, ht, m, hm, by rwa [hdb]⟩

theorem joinsLate_uncounted : ∃ tr c, (chatSys plainParse).Trace ⟨emptyChat, 0, []⟩ tr c ∧ ¬ ∀ m ∈ tr, ChatMoment.Counts m := by
  obtain ⟨tr, c, ht, m, hm, hbad⟩ := joinsLate_trace
  exact ⟨tr, c, ht, fun hc => hbad ((counts_right_iff ht emptyChat_referred emptyChat_right).2 hc m hm)⟩

theorem counts_wrong : ¬ ∀ (R : ChatRules) (w₀ : ChatWorld) (tr : List ChatMoment) (c : ChatConfig), (chatSys R).Trace w₀ tr c →
    w₀.db.Referred → w₀.db.CountsRight → ∀ m ∈ tr, m.after.db.CountsRight := by
  intro hall
  obtain ⟨tr, c, ht, m, hm, hbad⟩ := joinsLate_trace
  exact hbad (hall _ _ tr c ht emptyChat_referred emptyChat_right m hm)

end Agregator
