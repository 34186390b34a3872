import Mathlib.Data.Prod.Lex
import Agregator.ChatAccess
import Agregator.ChatUnread
import Agregator.GoStamp
/-!
# ReadReceipts — the ticks beside a message

The server keeps the last message each participant has read, and knows its messages by their instant and identifier.  The
browser orders the messages again, by the text of the instant and then by the identifier, and looks whether the mark of every
other participant stands at the message or after it.  The text has no fractions of a second.
-/
namespace Agregator

open Rel

/-! ## What the gateway sends -/

/-- A message as the browser has it. -/
structure MessageJSON where
  id : String
  threadID : String
  authorUserID : String
  text : String
  createdAt : Option String
deriving DecidableEq, Repr

structure ReadJSON where
  userID : String
  lastReadMessageID : Option String
deriving DecidableEq, Repr

/-- A thread as the browser has it, less the counter of its unread messages. -/
structure ThreadJSON where
  id : String
  kind : String
  refID : String
  participantUserIDs : Option (List String)
  lastMessageID : String
  lastMessageAt : Option String
  participantReads : Option (List ReadJSON)
deriving DecidableEq, Repr

def chatMessageToJSON (m : ChatMessage) : MessageJSON where
  id := toLower m.id
  threadID := toLower m.threadID
  authorUserID := toLower m.authorUserID
  text := m.text
  createdAt := some (rfc3339 m.createdAt)

def participantReadToJSON (pr : ParticipantRead) : ReadJSON where
  userID := trimSpace pr.userID
  lastReadMessageID :=
    let id := trimSpace (pr.lastReadMessageID.getD "")
    if id ≠ "" then some (toLower id) else none

def chatThreadToJSON (t : ChatThread) : ThreadJSON where
  id := toLower t.id
  kind := t.kind
  refID := t.refID
  participantUserIDs := some t.participantUserIDs
  lastMessageID := toLower (t.lastMessageID.getD "")
  lastMessageAt := t.lastMessageAt.map rfc3339
  participantReads := some (t.participantReads.map participantReadToJSON)

/-- A thread with its participants and what they have read. -/
def ChatDB.threadOf (db : ChatDB) (r : ThreadRow) : ChatThread :=
  { r.toThread with
    participantUserIDs := ChatRepo.listParticipantsByThreadID r.id db
    participantReads := ChatRepo.loadParticipantReads r.id db }

/-! ## The browser -/

/-- `localeCompare` in the language of the browser.  No digits, hyphens or letters up to `f` make one letter together there, so
that texts of instants and identifiers are compared by their characters. -/
structure Collation where
  localeCompare : String → String → Ordering
  stamps : ∀ t u, Stamped t → Stamped u →
    localeCompare (rfc3339 t) (rfc3339 u) = compareOfLessAndEq (rfc3339 t) (rfc3339 u)
  ids : ∀ a b, isUUID a = true → isUUID b = true → localeCompare a b = compareOfLessAndEq a b

inductive OutgoingDeliveryState where
  | sent
  | unread
  | read
deriving DecidableEq, Repr

namespace ReadReceipts

def normId (id : String) : String := toLower (trimSpace id)

section Client

variable (lang : Collation)

def compareMessages (a b : MessageJSON) : Ordering :=
  let ta := a.createdAt.getD ""
  let tb := b.createdAt.getD ""
  if ta ≠ tb then lang.localeCompare ta tb else lang.localeCompare a.id b.id

def sortMessagesForTimeline (messages : List MessageJSON) : List MessageJSON :=
  messages.mergeSort fun a b => compareMessages lang a b != .gt

end Client

/-- The index of a message, if it is there. -/
def messageTimelineIndex (msgId : String) (ordered : List MessageJSON) : Option ℕ := ordered.findIdx? (·.id == msgId)

def recipientsOf (thread : ThreadJSON) (vid : String) : List String :=
  ((thread.participantUserIDs.getD []).map normId).filter fun id => id != "" && id != vid

/-- The mark of a participant. -/
def watermarkOf (thread : ThreadJSON) (rid : String) : Option String :=
  ((thread.participantReads.getD []).find? fun r => normId r.userID == rid).bind (·.lastReadMessageID)

/-- One round of the loop over the recipients. -/
def hasRead (thread : ThreadJSON) (ordered : List MessageJSON) (msgIdx : ℕ) (rid : String) : Bool :=
  match watermarkOf thread rid with
  | none => false
  | some watermark =>
    if watermark = "" then false
    else
      match messageTimelineIndex watermark ordered with
      | none => false
      | some wIdx => !decide (wIdx < msgIdx)

def isOutgoingReadByEveryone (msg : MessageJSON) (thread : ThreadJSON) (viewerUserId : String) (ordered : List MessageJSON) :
    Bool :=
  let vid := normId viewerUserId
  match messageTimelineIndex msg.id ordered with
  | none => false
  | some msgIdx =>
    let recipients := recipientsOf thread vid
    if recipients.length = 0 then false else recipients.all (hasRead thread ordered msgIdx)

def getOutgoingDeliveryState (msg : MessageJSON) (thread : ThreadJSON) (viewerUserId : String) (ordered : List MessageJSON) :
    OutgoingDeliveryState :=
  if isOutgoingReadByEveryone msg thread viewerUserId ordered then .read
  else
    let recipients := recipientsOf thread (normId viewerUserId)
    if recipients.length = 0 then .sent
    else if recipients.any fun rid => (watermarkOf thread rid).any (· ≠ "") then .unread else .sent

/-- `sameChatUser`: the message is of the user. -/
def sameChatUser (a b : String) : Bool := trimSpace a != "" && trimSpace b != "" && normId a == normId b

end ReadReceipts

/-! ## The server -/

/-- A participant has read a message: its mark is the message, or one that comes after it. -/
def ChatDB.ReadTo (db : ChatDB) (m : ChatMessage) (userID : String) : Prop :=
  ∃ w ∈ db.messagesOf m.threadID, db.watermark m.threadID userID = some w.id ∧ (w = m ∨ w.after m = true)

/-- The participants of the thread of a message, but for its author. -/
def ChatDB.Recipient (db : ChatDB) (m : ChatMessage) (userID : String) : Prop :=
  db.Joined m.threadID userID ∧ userID ≠ m.authorUserID

/-- Every other participant has read the message. -/
def ChatDB.ReadByOthers (db : ChatDB) (m : ChatMessage) : Prop := ∀ uid, db.Recipient m uid → db.ReadTo m uid

/-- The mark is a message of the same second, that comes later though its identifier comes first. -/
def ChatDB.MarkEarlier (db : ChatDB) (m : ChatMessage) (userID : String) : Prop :=
  ∃ w ∈ db.messagesOf m.threadID, db.watermark m.threadID userID = some w.id ∧
    second w.createdAt = second m.createdAt ∧ m.createdAt < w.createdAt ∧ w.id < m.id

/-- The mark is a message of the same second, that came before though its identifier comes last. -/
def ChatDB.MarkLater (db : ChatDB) (m : ChatMessage) (userID : String) : Prop :=
  ∃ w ∈ db.messagesOf m.threadID, db.watermark m.threadID userID = some w.id ∧
    second w.createdAt = second m.createdAt ∧ w.createdAt < m.createdAt ∧ m.id < w.id

/-- There is somebody to read the message, and either one who has not come to it in any order, or those whose mark the
seconds put before the message are there just when those whose mark they put after it are. -/
def ChatDB.SecondsTell (db : ChatDB) (m : ChatMessage) : Prop :=
  (∃ uid, db.Recipient m uid) ∧ ((∃ uid, db.Recipient m uid ∧ ¬ db.ReadTo m uid ∧ ¬ db.MarkLater m uid) ∨
    ((∃ uid, db.Recipient m uid ∧ db.MarkEarlier m uid) ↔ ∃ uid, db.Recipient m uid ∧ db.MarkLater m uid))

/-- The columns hold what their types hold: identifiers as the database prints them, and instants of four-digit years. -/
structure ChatDB.Typed (db : ChatDB) : Prop where
  message : ∀ m ∈ db.messages.rows, isUUID m.id = true ∧ isUUID m.authorUserID = true ∧ Stamped m.createdAt
  participant : ∀ r ∈ db.participants.rows, isUUID r.userID = true
  reader : ∀ r ∈ db.reads.rows, isUUID r.userID = true ∧ ∀ wid, r.lastReadMessageID = some wid → isUUID wid = true

/-! ## The order of the browser -/

/-- The order by the second and the identifier. -/
def timelineKey (m : ChatMessage) : ℕ ×ₗ String := toLex (second m.createdAt, m.id)

theorem timelineKey_lt {a b : ChatMessage} :
    timelineKey a < timelineKey b ↔ second a.createdAt < second b.createdAt ∨ second a.createdAt = second b.createdAt ∧ a.id < b.id := by
  simp [timelineKey, Prod.Lex.toLex_lt_toLex]

theorem timelineKey_inj {a b : ChatMessage} (h : timelineKey a = timelineKey b) : a.id = b.id :=
  congrArg (fun k => (ofLex k).2) h

namespace ReadReceipts

variable {lang : Collation}

theorem localeCompare_ids {a b : String} (ha : isUUID a = true) (hb : isUUID b = true) : lang.localeCompare a b ≠ .gt ↔ a ≤ b := by
  rw [lang.ids a b ha hb]
  unfold compareOfLessAndEq
  rcases lt_trichotomy a b with h | rfl | h
  · simp [h, h.le]
  · simp
  · simp [h.not_gt, h.ne', h]

/-- **The browser compares messages by their seconds and identifiers.** -/
theorem compareMessages_ne_gt {a b : ChatMessage} (ha : isUUID a.id = true) (hb : isUUID b.id = true)
    (hat : Stamped a.createdAt) (hbt : Stamped b.createdAt) :
    compareMessages lang (chatMessageToJSON a) (chatMessageToJSON b) ≠ .gt ↔ timelineKey a ≤ timelineKey b := by
  unfold compareMessages chatMessageToJSON
  simp only [Option.getD_some, toLower_of_isUUID ha, toLower_of_isUUID hb, ne_eq, rfc3339_inj hat hbt]
  rw [timelineKey, timelineKey, Prod.Lex.toLex_le_toLex]
  rcases lt_trichotomy (second a.createdAt) (second b.createdAt) with h | h | h
  · simp only [h.ne, h, not_false_eq_true, if_true, true_or, iff_true]
    rw [lang.stamps _ _ hat hbt, compareOfLessAndEq, if_pos (rfc3339_lt hbt h)]
    decide
  · simp only [h, not_true_eq_false, if_false, lt_irrefl, false_or, true_and]
    exact localeCompare_ids ha hb
  · simp only [h.ne', h.not_gt, not_false_eq_true, if_true, false_and, or_self, iff_false, not_not]
    have hlt := rfc3339_lt hat h
    rw [lang.stamps _ _ hat hbt, compareOfLessAndEq, if_neg hlt.not_gt, if_neg hlt.ne']

/-- The messages as the browser orders them. -/
def timeline (msgs : List ChatMessage) : List ChatMessage := msgs.mergeSort fun a b => decide (timelineKey a ≤ timelineKey b)

/-- Messages as the database holds them, of different identifiers. -/
structure TypedMessages (msgs : List ChatMessage) : Prop where
  typed : ∀ m ∈ msgs, isUUID m.id = true ∧ Stamped m.createdAt
  ids : msgs.Pairwise fun a b => a.id ≠ b.id

section Timeline

variable {msgs : List ChatMessage} {a b : ChatMessage}

theorem mem_timeline : a ∈ timeline msgs ↔ a ∈ msgs := List.mem_mergeSort

theorem sortMessages_eq (h : TypedMessages msgs) :
    sortMessagesForTimeline lang (msgs.map chatMessageToJSON) = (timeline msgs).map chatMessageToJSON := by
  unfold sortMessagesForTimeline timeline
  rw [List.map_mergeSort]
  intro a ha b hb
  have hcmp : compareMessages lang (chatMessageToJSON a) (chatMessageToJSON b) ≠ .gt ↔ timelineKey a ≤ timelineKey b :=
    compareMessages_ne_gt (h.typed a ha).1 (h.typed b hb).1 (h.typed a ha).2 (h.typed b hb).2
  rw [Bool.eq_iff_iff, decide_eq_true_iff, bne_iff_ne]
  exact hcmp.symm

/-- The messages stand in the strict order of their keys. -/
theorem timeline_pairwise (h : TypedMessages msgs) : (timeline msgs).Pairwise fun a b => timelineKey a < timelineKey b := by
  have hle : (timeline msgs).Pairwise fun a b => decide (timelineKey a ≤ timelineKey b) = true := by
    apply List.pairwise_mergeSort
    · intro a b c hab hbc
      rw [decide_eq_true_iff] at hab hbc ⊢
      exact hab.trans hbc
    · intro a b
      rw [Bool.or_eq_true, decide_eq_true_iff, decide_eq_true_iff]
      exact le_total _ _
  have hne : (timeline msgs).Pairwise fun a b => a.id ≠ b.id :=
    (List.mergeSort_perm msgs _).symm.pairwise h.ids fun h => h.symm
  refine (hle.and hne).imp fun hab => ?_
  exact lt_of_le_of_ne (of_decide_eq_true hab.1) fun heq => hab.2 (timelineKey_inj heq)

theorem messageTimelineIndex_eq (h : TypedMessages msgs) (id : String) :
    messageTimelineIndex id ((timeline msgs).map chatMessageToJSON) = (timeline msgs).findIdx? fun m => m.id == id := by
  unfold messageTimelineIndex
  rw [List.findIdx?_map]
  have hkeep : ∀ L : List ChatMessage, (∀ m ∈ L, isUUID m.id = true) →
      L.findIdx? ((fun j : MessageJSON => j.id == id) ∘ chatMessageToJSON) = L.findIdx? fun m => m.id == id := by
    intro L
    induction L with
    | nil => exact fun _ => rfl
    | cons m L ih =>
      intro hL
      have hm : ((fun j : MessageJSON => j.id == id) ∘ chatMessageToJSON) m = (m.id == id) := by
        simp only [Function.comp_apply, chatMessageToJSON, toLower_of_isUUID (hL m List.mem_cons_self)]
      rw [List.findIdx?_cons, List.findIdx?_cons, hm, ih fun x hx => hL x (List.mem_cons_of_mem _ hx)]
  exact hkeep _ fun m hm => (h.typed m (mem_timeline.1 hm)).1

/-- A message is found where it stands. -/
theorem index_of_mem (h : TypedMessages msgs) (ha : a ∈ msgs) :
    ∃ i, (timeline msgs).findIdx? (fun m => m.id == a.id) = some i ∧ (timeline msgs)[i]? = some a := by
  obtain ⟨i, hi, hia⟩ := List.mem_iff_getElem.1 (mem_timeline.2 ha)
  refine ⟨i, List.findIdx?_eq_some_iff_getElem.2 ⟨hi, by simp [hia], fun j hj => ?_⟩, by rw [List.getElem?_eq_getElem hi, hia]⟩
  have hlt := List.pairwise_iff_getElem.1 (timeline_pairwise h) j i (hj.trans hi) hi hj
  have hne : (timeline msgs).Pairwise fun a b => a.id ≠ b.id :=
    (List.mergeSort_perm msgs _).symm.pairwise h.ids fun h => h.symm
  have hid := List.pairwise_iff_getElem.1 hne j i (hj.trans hi) hi hj
  rw [hia] at hid
  simpa using hid

theorem index_none {id : String} (h : ∀ m ∈ msgs, m.id ≠ id) : (timeline msgs).findIdx? (fun m => m.id == id) = none := by
  rw [List.findIdx?_eq_none_iff]
  intro m hm
  simpa using h m (mem_timeline.1 hm)

/-- **Of two messages the browser puts first the one of the smaller key.** -/
theorem index_lt (h : TypedMessages msgs) {i j : ℕ} (hi : (timeline msgs)[i]? = some a) (hj : (timeline msgs)[j]? = some b) :
    i < j ↔ timelineKey a < timelineKey b := by
  obtain ⟨hil, rfl⟩ := List.getElem?_eq_some_iff.1 hi
  obtain ⟨hjl, rfl⟩ := List.getElem?_eq_some_iff.1 hj
  have hsorted := List.pairwise_iff_getElem.1 (timeline_pairwise h)
  constructor
  · exact fun hij => hsorted i j hil hjl hij
  · intro hlt
    by_contra hge
    rcases (not_lt.1 hge).lt_or_eq with hji | rfl
    · exact lt_asymm hlt (hsorted j i hjl hil hji)
    · exact lt_irrefl _ hlt

end Timeline

/-! ## The thread -/

theorem normId_of_isUUID {id : String} (h : isUUID id = true) : normId id = id := by
  rw [normId, trimSpace_of_isUUID h, toLower_of_isUUID h]

section Thread

variable {db : ChatDB} {r : ThreadRow} {rid : String}

/-- The recipients are the other participants of the thread. -/
theorem mem_recipientsOf (h : db.Typed) {vid : String} :
    rid ∈ recipientsOf (chatThreadToJSON (db.threadOf r)) vid ↔ db.Joined r.id rid ∧ rid ≠ vid := by
  have hparts : ∀ uid, db.Joined r.id uid → isUUID uid = true := by
    rintro uid ⟨p, hp, -, rfl, -⟩
    exact h.participant p hp
  unfold recipientsOf chatThreadToJSON ChatDB.threadOf
  simp only [Option.getD_some, List.mem_filter, List.mem_map, ChatRepo.mem_listParticipants, Bool.and_eq_true, bne_iff_ne]
  constructor
  · rintro ⟨⟨uid, hj, rfl⟩, -, hne⟩
    rw [normId_of_isUUID (hparts uid hj)] at hne ⊢
    exact ⟨hj, hne⟩
  · rintro ⟨hj, hne⟩
    have hid := hparts rid hj
    exact ⟨⟨rid, hj, normId_of_isUUID hid⟩, ne_empty_of_isUUID hid, hne⟩

theorem participantRead_mark {pr : ParticipantRead} (h : ∀ wid, pr.lastReadMessageID = some wid → isUUID wid = true) :
    (participantReadToJSON pr).lastReadMessageID = pr.lastReadMessageID := by
  unfold participantReadToJSON
  cases hw : pr.lastReadMessageID with
  | none => rfl
  | some wid =>
    have hid := h wid hw
    simp only [Option.getD_some, trimSpace_of_isUUID hid, toLower_of_isUUID hid]
    rw [if_pos (ne_empty_of_isUUID hid)]

/-- The mark of a participant is the one in its row. -/
theorem watermarkOf_eq (h : db.Typed) : watermarkOf (chatThreadToJSON (db.threadOf r)) rid = db.watermark r.id rid := by
  have hmem : ∀ j, j ∈ (ChatRepo.loadParticipantReads r.id db).map participantReadToJSON ↔
      ∃ x ∈ db.reads.rows, x.threadID = r.id ∧ participantReadToJSON ⟨x.userID, x.lastReadMessageID⟩ = j := by
    intro j
    simp [ChatRepo.loadParticipantReads, Table.select, List.mem_insertionSort, and_assoc]
  have hname : ∀ x ∈ db.reads.rows, normId (participantReadToJSON ⟨x.userID, x.lastReadMessageID⟩).userID = x.userID := by
    intro x hx
    have hid := (h.reader x hx).1
    show normId (trimSpace x.userID) = _
    rw [trimSpace_of_isUUID hid, normId_of_isUUID hid]
  show (List.find? _ ((ChatRepo.loadParticipantReads r.id db).map participantReadToJSON)).bind _ = _
  unfold ChatDB.watermark
  cases hg : db.reads.get (fun x => x.threadID == r.id && x.userID == rid) with
  | none =>
    have hno := Table.get_eq_none.1 hg
    rw [List.find?_eq_none.2]
    · rfl
    · intro j hj
      obtain ⟨x, hx, ht, rfl⟩ := (hmem j).1 hj
      have := hno x hx
      rw [hname x hx]
      simp_all
  | some y =>
    obtain ⟨hy, hkey⟩ := Table.get_mem hg
    simp only [Bool.and_eq_true, beq_iff_eq] at hkey
    cases hf : ((ChatRepo.loadParticipantReads r.id db).map participantReadToJSON).find? fun j => normId j.userID == rid with
    | none =>
      have := List.find?_eq_none.1 hf _ ((hmem _).2 ⟨y, hy, hkey.1, rfl⟩)
      rw [hname y hy, hkey.2] at this
      simp at this
    | some j =>
      obtain ⟨x, hx, ht, rfl⟩ := (hmem j).1 (List.mem_of_find?_eq_some hf)
      have hrid := List.find?_some hf
      rw [hname x hx, beq_iff_eq] at hrid
      have hsame : x = y := db.reads.eq_of_clash hx hy (by simp [readSchema, ht, hrid, hkey.1, hkey.2])
      subst hsame
      exact participantRead_mark (h.reader x hx).2

/-- **A recipient counts as having read a message** when the browser does not put its mark before the message. -/
theorem hasRead_iff (h : db.Typed) {msgs : List ChatMessage} {m : ChatMessage} {i : ℕ} (hs : TypedMessages msgs)
    (hi : (timeline msgs)[i]? = some m) :
    hasRead (chatThreadToJSON (db.threadOf r)) ((timeline msgs).map chatMessageToJSON) i rid = true ↔
      ∃ w ∈ msgs, db.watermark r.id rid = some w.id ∧ ¬ timelineKey w < timelineKey m := by
  unfold hasRead
  rw [watermarkOf_eq h]
  cases hw : db.watermark r.id rid with
  | none => simp
  | some wid =>
    simp only [messageTimelineIndex_eq hs, Option.some.injEq]
    by_cases hin : ∃ w ∈ msgs, w.id = wid
    · obtain ⟨w, hwm, rfl⟩ := hin
      obtain ⟨j, hj, hjw⟩ := index_of_mem hs hwm
      rw [if_neg (ne_empty_of_isUUID (hs.typed w hwm).1), hj]
      simp only [Bool.not_eq_true', decide_eq_false_iff_not, index_lt hs hjw hi]
      constructor
      · exact fun hlt => ⟨w, hwm, rfl, hlt⟩
      · rintro ⟨w', hw', hid, hlt⟩
        obtain ⟨j', hj', hjw'⟩ := index_of_mem hs hw'
        rw [← hid, hj, Option.some.injEq] at hj'
        rw [← hj', hjw, Option.some.injEq] at hjw'
        rw [hjw']
        exact hlt
    · have hnone : (timeline msgs).findIdx? (fun m => m.id == wid) = none := index_none fun w hwm hid => hin ⟨w, hwm, hid⟩
      rw [hnone]
      constructor
      · intro hc
        simp at hc
      · rintro ⟨w, hwm, hid, -⟩
        exact absurd ⟨w, hwm, hid.symm⟩ hin

end Thread

end ReadReceipts

/-! ## What the browser shows and what the server knows -/

/-- Where a mark is shown as read just when it is read and not early, or late, all marks agree just when one is neither, or
the early ones are there with the late ones. -/
theorem all_agree_iff {ι : Type} {P Shown Read Early Late : ι → Prop}
    (hshown : ∀ i, P i → (Shown i ↔ (Read i ∧ ¬ Early i) ∨ Late i)) (hearly : ∀ i, Early i → Read i)
    (hlate : ∀ i, Late i → ¬ Read i) :
    (((∃ i, P i) ∧ ∀ i, P i → Shown i) ↔ ∀ i, P i → Read i) ↔
      (∃ i, P i) ∧ ((∃ i, P i ∧ ¬ Read i ∧ ¬ Late i) ∨ ((∃ i, P i ∧ Early i) ↔ ∃ i, P i ∧ Late i)) := by
  by_cases hsome : ∃ i, P i
  swap
  · have hall : ∀ i, P i → Read i := fun i hi => absurd ⟨i, hi⟩ hsome
    simp only [hsome, false_and, false_iff, iff_false]
    exact fun h => h hall
  simp only [hsome, true_and]
  by_cases hbehind : ∃ i, P i ∧ ¬ Read i ∧ ¬ Late i
  · obtain ⟨i, hi, hr, hl⟩ := hbehind
    have hns : ¬ Shown i := fun hs => ((hshown i hi).1 hs).elim (fun h => hr h.1) hl
    have hcl : ¬ ∀ i, P i → Shown i := fun h => hns (h i hi)
    have hsv : ¬ ∀ i, P i → Read i := fun h => hr (h i hi)
    simp only [hcl, hsv, true_iff]
    exact .inl ⟨i, hi, hr, hl⟩
  have hcases : ∀ i, P i → Read i ∨ Late i := by
    intro i hi
    by_contra hn
    rw [not_or] at hn
    exact hbehind ⟨i, hi, hn⟩
  have hclient : (∀ i, P i → Shown i) ↔ ¬ ∃ i, P i ∧ Early i := by
    constructor
    · rintro hs ⟨i, hi, he⟩
      rcases (hshown i hi).1 (hs i hi) with h | h
      · exact h.2 he
      · exact hlate i h (hearly i he)
    · intro hno i hi
      refine (hshown i hi).2 ((hcases i hi).imp_left fun hr => ⟨hr, fun he => hno ⟨i, hi, he⟩⟩)
  have hserver : (∀ i, P i → Read i) ↔ ¬ ∃ i, P i ∧ Late i := by
    constructor
    · rintro hr ⟨i, hi, hl⟩
      exact hlate i hl (hr i hi)
    · intro hno i hi
      exact (hcases i hi).resolve_right fun hl => hno ⟨i, hi, hl⟩
  rw [hclient, hserver, not_iff_not]
  simp only [hbehind, false_or]

namespace ChatDB

variable {db : ChatDB} {m : ChatMessage} {uid : String}

/-- A mark is one message. -/
theorem mark_unique {tid : String} {w w' : ChatMessage} (hw : w ∈ db.messagesOf tid) (hw' : w' ∈ db.messagesOf tid)
    (h : w.id = w'.id) : w = w' :=
  db.messages.eq_of_clash (List.mem_filter.1 hw).1 (List.mem_filter.1 hw').1 (by simp [messageSchema, h])

theorem MarkEarlier.readTo (h : db.MarkEarlier m uid) : db.ReadTo m uid := by
  obtain ⟨w, hw, hmark, -, hlt, -⟩ := h
  exact ⟨w, hw, hmark, .inr (by simp [ChatMessage.after, hlt])⟩

theorem MarkLater.not_readTo (h : db.MarkLater m uid) : ¬ db.ReadTo m uid := by
  obtain ⟨w, hw, hmark, -, hlt, -⟩ := h
  rintro ⟨w', hw', hmark', hread⟩
  obtain rfl := mark_unique hw hw' (Option.some.inj (hmark.symm.trans hmark'))
  rcases hread with rfl | hafter
  · exact lt_irrefl _ hlt
  · simp [ChatMessage.after, hlt.not_gt, hlt.ne] at hafter

/-- The key of a mark is not before that of a message. -/
theorem shown_iff (hm : m ∈ db.messagesOf m.threadID) :
    (∃ w ∈ db.messagesOf m.threadID, db.watermark m.threadID uid = some w.id ∧ ¬ timelineKey w < timelineKey m) ↔
      (db.ReadTo m uid ∧ ¬ db.MarkEarlier m uid) ∨ db.MarkLater m uid := by
  constructor
  · rintro ⟨w, hw, hmark, hkey⟩
    rw [timelineKey_lt, not_or, not_lt, not_and, not_lt] at hkey
    obtain ⟨hsec, hid⟩ := hkey
    rcases lt_trichotomy w.createdAt m.createdAt with hlt | heq | hgt
    · -- a mark that came before is in the second of the message
      have hsame := le_antisymm (second_mono hlt.le) hsec
      have hne : m.id ≠ w.id := fun h => hlt.ne (congrArg _ (mark_unique hw hm h.symm))
      exact .inr ⟨w, hw, hmark, hsame, hlt, lt_of_le_of_ne (hid hsame) hne⟩
    · refine .inl ⟨⟨w, hw, hmark, ?_⟩, ?_⟩
      · by_cases hsame : w.id = m.id
        · exact .inl (mark_unique hw hm hsame)
        · have hlt : m.id < w.id := lt_of_le_of_ne (hid (by rw [heq])) (Ne.symm hsame)
          exact .inr (by simp [ChatMessage.after, heq, hlt])
      · rintro ⟨w', hw', hmark', -, hlt, -⟩
        obtain rfl := mark_unique hw hw' (Option.some.inj (hmark.symm.trans hmark'))
        exact hlt.ne' heq
    · refine .inl ⟨⟨w, hw, hmark, .inr (by simp [ChatMessage.after, hgt])⟩, ?_⟩
      rintro ⟨w', hw', hmark', hsame, -, hlt⟩
      obtain rfl := mark_unique hw hw' (Option.some.inj (hmark.symm.trans hmark'))
      exact (hid hsame).not_gt hlt
  · rintro (⟨⟨w, hw, hmark, hread⟩, hearly⟩ | ⟨w, hw, hmark, hsame, -, hid⟩)
    · refine ⟨w, hw, hmark, fun hkey => ?_⟩
      rw [timelineKey_lt] at hkey
      rcases hread with rfl | hafter
      · rcases hkey with h | h
        · exact lt_irrefl _ h
        · exact lt_irrefl _ h.2
      · simp only [ChatMessage.after, Bool.or_eq_true, Bool.and_eq_true, decide_eq_true_eq, beq_iff_eq] at hafter
        rcases hafter with hlt | ⟨heq, hid⟩
        · rcases hkey with h | ⟨h, hid⟩
          · exact (second_mono hlt.le).not_gt h
          · exact hearly ⟨w, hw, hmark, h, hlt, hid⟩
        · rcases hkey with h | h
          · rw [heq] at h
            exact lt_irrefl _ h
          · exact lt_asymm hid h.2
    · refine ⟨w, hw, hmark, fun hkey => ?_⟩
      rw [timelineKey_lt] at hkey
      rcases hkey with h | h
      · exact h.ne hsame
      · exact lt_asymm hid h.2

end ChatDB

/-! ### The ticks -/

section Ticks

open ReadReceipts

variable {lang : Collation} {db : ChatDB} {r : ThreadRow} {m : ChatMessage} {msgs : List ChatMessage} {viewer : String}

theorem stored_of_typed (h : db.Typed) (hall : msgs.Perm (db.messagesOf r.id)) : TypedMessages msgs where
  typed x hx := by
    have hx := (List.mem_filter.1 (hall.mem_iff.1 hx)).1
    exact ⟨(h.message x hx).1, (h.message x hx).2.2⟩
  ids := by
    refine hall.symm.pairwise ?_ fun h => h.symm
    refine (db.messages.noClash.filter _).imp fun hab hid => ?_
    simp [messageSchema, hid] at hab

/-- **The browser shows a message as read** when the second and the identifier of every other participant's mark are not before
its own. -/
theorem getOutgoingDeliveryState_read (h : db.Typed) (hm : m ∈ db.messagesOf r.id) (hall : msgs.Perm (db.messagesOf r.id))
    (hmine : sameChatUser viewer (chatMessageToJSON m).authorUserID = true) :
    getOutgoingDeliveryState (chatMessageToJSON m) (chatThreadToJSON (db.threadOf r)) viewer
        (sortMessagesForTimeline lang (msgs.map chatMessageToJSON)) = .read ↔
      (∃ uid, db.Recipient m uid) ∧ ∀ uid, db.Recipient m uid → ∃ w ∈ db.messagesOf m.threadID,
        db.watermark m.threadID uid = some w.id ∧ ¬ timelineKey w < timelineKey m := by
  obtain ⟨hrow, hthread⟩ := List.mem_filter.1 hm
  have hthread : m.threadID = r.id := beq_iff_eq.1 hthread
  obtain ⟨hid, hauthor, -⟩ := h.message m hrow
  have hs := stored_of_typed h hall
  have hvid : normId viewer = m.authorUserID := by
    simp only [sameChatUser, Bool.and_eq_true, beq_iff_eq] at hmine
    rw [hmine.2]
    show normId (toLower m.authorUserID) = _
    rw [toLower_of_isUUID hauthor, normId_of_isUUID hauthor]
  obtain ⟨i, hidx, hi⟩ := index_of_mem hs (hall.mem_iff.2 hm)
  have hrecip : ∀ rid, rid ∈ recipientsOf (chatThreadToJSON (db.threadOf r)) (normId viewer) ↔ db.Recipient m rid := by
    intro rid
    rw [mem_recipientsOf h, hvid, ChatDB.Recipient, hthread]
  have hloop : ∀ rid, hasRead (chatThreadToJSON (db.threadOf r)) ((timeline msgs).map chatMessageToJSON) i rid = true ↔
      ∃ w ∈ db.messagesOf m.threadID, db.watermark m.threadID rid = some w.id ∧ ¬ timelineKey w < timelineKey m := by
    intro rid
    rw [hasRead_iff h hs hi, hthread]
    simp only [hall.mem_iff]
  have hindex : messageTimelineIndex (chatMessageToJSON m).id ((timeline msgs).map chatMessageToJSON) = some i := by
    rw [messageTimelineIndex_eq hs]
    show List.findIdx? (fun x : ChatMessage => x.id == toLower m.id) _ = _
    rw [toLower_of_isUUID hid, hidx]
  rw [sortMessages_eq hs]
  have hstate : ∀ thread ordered, getOutgoingDeliveryState (chatMessageToJSON m) thread viewer ordered = .read ↔
      isOutgoingReadByEveryone (chatMessageToJSON m) thread viewer ordered = true := by
    intro thread ordered
    unfold getOutgoingDeliveryState
    by_cases hread : isOutgoingReadByEveryone (chatMessageToJSON m) thread viewer ordered = true
    · simp [hread]
    · simp only [hread, Bool.false_eq_true, if_false, iff_false]
      split_ifs <;> simp
  rw [hstate, isOutgoingReadByEveryone, hindex]
  simp only
  by_cases hnone : (recipientsOf (chatThreadToJSON (db.threadOf r)) (normId viewer)).length = 0
  · rw [if_pos hnone]
    have hno : ¬ ∃ uid, db.Recipient m uid := by
      rintro ⟨uid, hu⟩
      rw [List.eq_nil_of_length_eq_zero hnone] at hrecip
      exact absurd ((hrecip uid).2 hu) List.not_mem_nil
    simp [hno]
  · rw [if_neg hnone, List.all_eq_true]
    have hsome : ∃ uid, db.Recipient m uid := by
      obtain ⟨uid, hu⟩ := List.exists_mem_of_length_pos (Nat.pos_of_ne_zero hnone)
      exact ⟨uid, (hrecip uid).1 hu⟩
    simp only [hsome, true_and, hrecip, hloop]

/-- **The browser and the server agree** on whether a message is read just when the seconds tell: a mark of the message's own
second whose identifier stands the other way is taken wrongly. -/
theorem read_iff_secondsTell (lang : Collation) (h : db.Typed) (hm : m ∈ db.messagesOf r.id) (hall : msgs.Perm (db.messagesOf r.id))
    (hmine : sameChatUser viewer (chatMessageToJSON m).authorUserID = true) :
    (getOutgoingDeliveryState (chatMessageToJSON m) (chatThreadToJSON (db.threadOf r)) viewer
        (sortMessagesForTimeline lang (msgs.map chatMessageToJSON)) = .read ↔ db.ReadByOthers m) ↔ db.SecondsTell m := by
  have hm' : m ∈ db.messagesOf m.threadID := by
    have hthread : m.threadID = r.id := beq_iff_eq.1 (List.mem_filter.1 hm).2
    rw [hthread]
    exact hm
  rw [getOutgoingDeliveryState_read h hm hall hmine]
  exact all_agree_iff (fun _ _ => ChatDB.shown_iff hm') (fun _ => ChatDB.MarkEarlier.readTo) fun _ => ChatDB.MarkLater.not_readTo

end Ticks

/-! ### Two messages of one second -/

/-- A language that compares by characters throughout. -/
def plainCollation : Collation where
  localeCompare a b := compareOfLessAndEq a b
  stamps _ _ _ _ := rfl
  ids _ _ _ _ := rfl

namespace ChatDB

def sampleThread : ThreadRow where
  id := "11111111-1111-4111-8111-111111111111"
  kind := "venue_booking"
  refID := "22222222-2222-4222-8222-222222222222"
  createdAt := 63901922600000000
  updatedAt := 63901922600000000

def sampleAuthor : String := "33333333-3333-4333-8333-333333333333"

def sampleReader : String := "44444444-4444-4444-8444-444444444444"

/-- A message sent a tenth of a second after a full one, or some tenths later. -/
def sampleMessage (id clientMsgID : String) (tenths : ℤ) : ChatMessage :=
  ⟨id, sampleThread.id, sampleAuthor, "…", clientMsgID, 63901922645000000 + tenths * 100000⟩

/-- A first message, and a second one whose identifier is smaller. -/
def firstOfTwo : ChatMessage := sampleMessage "bbbbbbbb-bbbb-4bbb-8bbb-bbbbbbbbbbbb" "one" 1

def secondOfTwo : ChatMessage := sampleMessage "aaaaaaaa-aaaa-4aaa-8aaa-aaaaaaaaaaaa" "two" 5

/-- A thread of two messages, of which the other participant has read the last. -/
def twoInASecond : ChatDB where
  threads := ⟨[sampleThread], by decide, by decide⟩
  messages := ⟨[firstOfTwo, secondOfTwo], by decide, by decide⟩
  participants := ⟨[⟨sampleThread.id, sampleAuthor, "participant", 63901922600000000, none, 0⟩,
    ⟨sampleThread.id, sampleReader, "participant", 63901922600000000, none, 0⟩], by decide, by decide⟩
  reads := ⟨[⟨sampleThread.id, sampleReader, some 63901922646000000, some secondOfTwo.id⟩], by decide, by decide⟩

theorem twoInASecond_typed : twoInASecond.Typed where
  message := by decide +kernel
  participant := by decide +kernel
  reader := by decide +kernel

theorem firstOfTwo_recipient {uid : String} : twoInASecond.Recipient firstOfTwo uid ↔ uid = sampleReader := by
  unfold Recipient Joined
  constructor
  · rintro ⟨⟨p, hp, -, rfl, -⟩, hne⟩
    simp only [twoInASecond, List.mem_cons, List.not_mem_nil, or_false] at hp
    rcases hp with rfl | rfl
    · exact absurd rfl hne
    · rfl
  · rintro rfl
    exact ⟨⟨_, List.mem_cons_of_mem _ List.mem_cons_self, rfl, rfl, rfl⟩, by decide⟩

theorem secondOfTwo_mark : secondOfTwo ∈ twoInASecond.messagesOf firstOfTwo.threadID ∧
    twoInASecond.watermark firstOfTwo.threadID sampleReader = some secondOfTwo.id := by decide +kernel

theorem secondOfTwo_after : secondOfTwo.after firstOfTwo = true := by decide

end ChatDB

open ReadReceipts in
/-- The other participant has read both messages, and the first of them is shown as unread. -/
theorem read_not_shown : ¬ ∀ (lang : Collation) (db : ChatDB) (r : ThreadRow) (m : ChatMessage) (msgs : List ChatMessage)
    (viewer : String), db.Typed → m ∈ db.messagesOf r.id → msgs.Perm (db.messagesOf r.id) →
    sameChatUser viewer (chatMessageToJSON m).authorUserID = true →
    (getOutgoingDeliveryState (chatMessageToJSON m) (chatThreadToJSON (db.threadOf r)) viewer
        (sortMessagesForTimeline lang (msgs.map chatMessageToJSON)) = .read ↔ db.ReadByOthers m) := by
  intro hc
  have hagree := hc plainCollation ChatDB.twoInASecond ChatDB.sampleThread ChatDB.firstOfTwo _ ChatDB.sampleAuthor
    ChatDB.twoInASecond_typed (by decide +kernel) (List.Perm.refl _) (by decide +kernel)
  have hread : ChatDB.twoInASecond.ReadByOthers ChatDB.firstOfTwo := by
    intro uid hu
    rw [ChatDB.firstOfTwo_recipient] at hu
    subst hu
    exact ⟨_, ChatDB.secondOfTwo_mark.1, ChatDB.secondOfTwo_mark.2, .inr ChatDB.secondOfTwo_after⟩
  have hshown := (getOutgoingDeliveryState_read ChatDB.twoInASecond_typed (by decide +kernel) (List.Perm.refl _) (by decide +kernel)).1 (hagree.2 hread)
  obtain ⟨w, hw, hmark, hkey⟩ := hshown.2 _ (ChatDB.firstOfTwo_recipient.2 rfl)
  obtain rfl := ChatDB.mark_unique hw ChatDB.secondOfTwo_mark.1 (Option.some.inj (hmark.symm.trans ChatDB.secondOfTwo_mark.2))
  exact hkey (timelineKey_lt.2 (.inr (by decide)))

/-- The mark of the last message tells of it what it says. -/
theorem ChatDB.secondOfTwo_tells : ChatDB.twoInASecond.SecondsTell ChatDB.secondOfTwo := by
  have hmark : ∀ uid, ChatDB.twoInASecond.Recipient ChatDB.secondOfTwo uid → ∀ w ∈ ChatDB.twoInASecond.messagesOf sampleThread.id,
      ChatDB.twoInASecond.watermark sampleThread.id uid = some w.id → w = ChatDB.secondOfTwo := by
    intro uid hu w hw hmark
    rw [ChatDB.firstOfTwo_recipient.1 hu] at hmark
    exact ChatDB.mark_unique hw ChatDB.secondOfTwo_mark.1 (Option.some.inj (hmark.symm.trans ChatDB.secondOfTwo_mark.2))
  refine ⟨⟨_, ChatDB.firstOfTwo_recipient.2 rfl⟩, .inr ⟨?_, ?_⟩⟩
  · rintro ⟨uid, hu, w, hw, hm, -, hlt, -⟩
    rw [hmark uid hu w hw hm] at hlt
    exact absurd hlt (lt_irrefl _)
  · rintro ⟨uid, hu, w, hw, hm, -, hlt, -⟩
    rw [hmark uid hu w hw hm] at hlt
    exact absurd hlt (lt_irrefl _)

open ReadReceipts in
/-- The second of the messages is shown as what it is. -/
theorem second_shown :
    getOutgoingDeliveryState (chatMessageToJSON ChatDB.secondOfTwo)
        (chatThreadToJSON (ChatDB.twoInASecond.threadOf ChatDB.sampleThread)) ChatDB.sampleAuthor
        (sortMessagesForTimeline plainCollation ((ChatDB.twoInASecond.messagesOf ChatDB.sampleThread.id).map chatMessageToJSON)) = .read ↔
      ChatDB.twoInASecond.ReadByOthers ChatDB.secondOfTwo :=
  (read_iff_secondsTell plainCollation ChatDB.twoInASecond_typed (by decide +kernel) (List.Perm.refl _) (by decide +kernel)).2
    ChatDB.secondOfTwo_tells

end Agregator
