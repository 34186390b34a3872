import Mathlib
import Agregator.PayOutbox
import Agregator.ConcLift
/-!
# PayRelay — what becomes of a payment event

A row is marked sent only once it is published, and marked failed only once ten publications of it have failed; both by what
every call does to the rows and to the transactions, whoever is interrupted where.  From any state that leaves behind, each
tick in which nothing fails brings a pending row nearer to the head of the outbox, so that it is published in the end
(`outbox_delivered`).  But an outage of ten ticks leaves a row behind for good (`outbox_not_always_delivered`).
-/
namespace Agregator

open Rel Conc OutboxRepo

/-! ## What a transaction makes of a row -/

namespace OutboxMark

def isFailed : OutboxMark → Bool
  | sent => false
  | failed _ => true

end OutboxMark

/-- Two records of one event. -/
structure OutboxEvent.SameMessage (a b : OutboxEvent) : Prop where
  id : a.id = b.id
  subject : a.subject = b.subject
  payload : a.payload = b.payload

namespace OutboxEvent.SameMessage

theorem refl (a : OutboxEvent) : a.SameMessage a := ⟨rfl, rfl, rfl⟩

theorem symm {a b : OutboxEvent} (h : a.SameMessage b) : b.SameMessage a := ⟨h.id.symm, h.subject.symm, h.payload.symm⟩

theorem trans {a b c : OutboxEvent} (h : a.SameMessage b) (h' : b.SameMessage c) : a.SameMessage c :=
  ⟨h.id.trans h'.id, h.subject.trans h'.subject, h.payload.trans h'.payload⟩

end OutboxEvent.SameMessage

/-- How often the transaction has written that a row could not be published. -/
def RelayTx.failing (tx : RelayTx) (i : ℤ) : ℕ := tx.marks.countP fun m => m.1 == i && m.2.isFailed

/-- What writes make of a row. -/
structure RowWritten (marks : List (ℤ × OutboxMark)) (e e' : OutboxEvent) : Prop where
  same : e'.SameMessage e
  attempts : e'.attemptCount = e.attemptCount + (marks.countP fun m => m.1 == e.id && m.2.isFailed : ℕ)
  sent : e'.sentAt ≠ none → e.sentAt ≠ none ∨ (e.id, .sent) ∈ marks
  kept : e.sentAt ≠ none ∨ (e.id, .sent) ∈ marks → e'.sentAt ≠ none
  exhausted : (e.failedAt ≠ none → outboxMaxAttempts ≤ e.attemptCount) → e'.failedAt ≠ none → outboxMaxAttempts ≤ e'.attemptCount

theorem rowWritten_foldl (now : Time) (marks : List (ℤ × OutboxMark)) :
    ∀ e, RowWritten marks e (marks.foldl (fun e m => if e.id = m.1 then m.2.row now e else e) e) := by
  induction marks with
  | nil => exact fun e => ⟨.refl e, by simp, by simp, by simp, fun h => h⟩
  | cons m marks ih =>
    intro e
    rw [List.foldl_cons]
    obtain ⟨i, mark⟩ := m
    by_cases hi : e.id = i
    · subst hi
      rw [if_pos rfl]
      cases mark with
      | sent =>
        obtain ⟨hsame, hatt, hsent, hkept, hexh⟩ := ih (sentRow now e)
        refine ⟨hsame.trans ⟨rfl, rfl, rfl⟩, ?_, fun _ => .inr List.mem_cons_self, fun _ => hkept (.inl (by simp [sentRow])), hexh⟩
        show _ = e.attemptCount + _
        rw [List.countP_cons_of_neg (by simp [OutboxMark.isFailed])]
        exact hatt
      | failed errMsg =>
        obtain ⟨hsame, hatt, hsent, hkept, hexh⟩ := ih (failedRow now errMsg e)
        refine ⟨hsame.trans ⟨rfl, rfl, rfl⟩, ?_, fun h => (hsent h).imp_right (List.mem_cons_of_mem _), fun h => hkept ?_,
          fun _ => hexh fun h => ?_⟩
        · rw [List.countP_cons_of_pos (by simp [OutboxMark.isFailed])]
          refine hatt.trans ?_
          simp only [failedRow]
          omega
        · exact h.imp_right fun h => (by simpa using h : (e.id, OutboxMark.sent) ∈ marks)
        · unfold failedRow at h ⊢
          dsimp only at h ⊢
          by_contra hlt
          rw [if_neg hlt] at h
          exact h rfl
    · rw [if_neg hi]
      obtain ⟨hsame, hatt, hsent, hkept, hexh⟩ := ih e
      refine ⟨hsame, ?_, fun h => (hsent h).imp_right (List.mem_cons_of_mem _), fun h => hkept (h.imp_right fun h => ?_), hexh⟩
      · rw [hatt, List.countP_cons_of_neg (by simp [Ne.symm hi])]
      · rcases List.mem_cons.1 h with h | h
        · cases h
          exact absurd rfl hi
        · exact h

theorem RelayTx.row_written (tx : RelayTx) (e : OutboxEvent) : RowWritten tx.marks e (tx.row e) :=
  rowWritten_foldl tx.now tx.marks e

/-! ## The open transactions -/

namespace RelayWorld

variable {w w' : RelayWorld} {s : ℕ} {tx : RelayTx}

/-- Each transaction has a session of its own. -/
structure Sessions (w : RelayWorld) : Prop where
  distinct : (w.txs.map (·.session)).Nodup
  opened : ∀ tx ∈ w.txs, tx.session < w.sessions

theorem tx_mem (h : w.tx s = some tx) : tx ∈ w.txs ∧ tx.session = s :=
  ⟨List.mem_of_find?_eq_some h, by simpa using List.find?_some h⟩

/-- **A transaction among the others**, which what is done in its session leaves alone. -/
theorem Sessions.split (hs : w.Sessions) (h : w.tx s = some tx) : ∃ l₁ l₂, w.txs = l₁ ++ tx :: l₂ ∧
    (∀ f, (w.updateTx s f).txs = l₁ ++ f tx :: l₂) ∧ (w.closeTx s).txs = l₁ ++ l₂ := by
  obtain ⟨htx, rfl⟩ := tx_mem h
  obtain ⟨l₁, l₂, hl⟩ := List.append_of_mem htx
  have hd := hs.distinct
  rw [hl, List.map_append, List.map_cons, List.nodup_append, List.nodup_cons] at hd
  obtain ⟨-, ⟨h2, -⟩, h3⟩ := hd
  have hne₁ : ∀ t ∈ l₁, t.session ≠ tx.session := fun t ht =>
    h3 t.session (List.mem_map_of_mem ht) tx.session List.mem_cons_self
  have hne₂ : ∀ t ∈ l₂, t.session ≠ tx.session := fun t ht hts => h2 (by rw [← hts]; exact List.mem_map_of_mem ht)
  refine ⟨l₁, l₂, hl, fun f => ?_, ?_⟩
  · have hmap : ∀ l : List RelayTx, (∀ t ∈ l, t.session ≠ tx.session) →
        l.map (fun t => if t.session = tx.session then f t else t) = l := fun l hne =>
      (List.map_congr_left (g := id) fun t ht => if_neg (hne t ht)).trans (List.map_id l)
    unfold updateTx
    rw [hl, List.map_append, List.map_cons, hmap l₁ hne₁, hmap l₂ hne₂, if_pos rfl]
  · have hfilter : ∀ l : List RelayTx, (∀ t ∈ l, t.session ≠ tx.session) → l.filter (·.session != tx.session) = l :=
      fun l hne => List.filter_eq_self.2 fun t ht => by simpa using hne t ht
    unfold closeTx
    rw [hl, List.filter_append, List.filter_cons_of_neg (by simp), hfilter l₁ hne₁, hfilter l₂ hne₂]

theorem Sessions.closeTx (hs : w.Sessions) (s : ℕ) : (w.closeTx s).Sessions :=
  ⟨hs.distinct.sublist (List.filter_sublist.map _), fun tx htx => hs.opened tx (List.mem_of_mem_filter htx)⟩

theorem Sessions.updateTx (hs : w.Sessions) (s : ℕ) {f : RelayTx → RelayTx} (hf : ∀ tx, (f tx).session = tx.session) :
    (w.updateTx s f).Sessions := by
  have hsess : ∀ tx : RelayTx, (if tx.session = s then f tx else tx).session = tx.session := fun tx => by
    split
    · exact hf tx
    · rfl
  constructor
  · have hmap : (w.updateTx s f).txs.map (·.session) = w.txs.map (·.session) := by
      unfold RelayWorld.updateTx
      rw [List.map_map]
      exact List.map_congr_left fun tx _ => hsess tx
    rw [hmap]
    exact hs.distinct
  · intro tx htx
    obtain ⟨tx₀, htx₀, rfl⟩ := List.mem_map.1 htx
    rw [hsess]
    exact hs.opened tx₀ htx₀

/-! ## How often a row was not published -/

/-- How often the open transactions have written that a row could not be published. -/
def failing (w : RelayWorld) (i : ℤ) : ℕ := (w.txs.map fun tx => tx.failing i).sum

/-- The attempts counted so far, when no more than `f` have been written of each row. -/
structure Counted (w : RelayWorld) (f : ℤ → ℕ) : Prop where
  sessions : w.Sessions
  marks : ∀ i, w.failing i ≤ f i
  rows : ∀ x ∈ w.outbox, x.attemptCount + (w.failing x.id : ℤ) ≤ f x.id
  exhausted : ∀ x ∈ w.outbox, x.failedAt ≠ none → outboxMaxAttempts ≤ x.attemptCount

variable {f : ℤ → ℕ}

/-- Transactions that have written less, and the same rows. -/
theorem Counted.less (h : w.Counted f) (ho : w'.outbox = w.outbox) (hs : w'.Sessions)
    (hf : ∀ i, w'.failing i ≤ w.failing i) : w'.Counted f := by
  refine ⟨hs, fun i => (hf i).trans (h.marks i), fun x hx => ?_, fun x hx => h.exhausted x (ho ▸ hx)⟩
  have := h.rows x (ho ▸ hx)
  have := hf x.id
  omega

theorem Counted.closeTx (h : w.Counted f) (s : ℕ) : (w.closeTx s).Counted f :=
  h.less rfl (h.sessions.closeTx s) fun i => (List.filter_sublist.map fun tx : RelayTx => tx.failing i).sum_le_sum (by simp)

/-- A change of a transaction that writes nothing. -/
theorem Counted.updateTx (h : w.Counted f) (s : ℕ) {g : RelayTx → RelayTx} (hg : ∀ tx, (g tx).session = tx.session)
    (hm : ∀ tx, (g tx).marks = tx.marks) : (w.updateTx s g).Counted f := by
  refine h.less rfl (h.sessions.updateTx s hg) fun i => ?_
  have hfail : (w.updateTx s g).txs.map (fun tx => tx.failing i) = w.txs.map fun tx => tx.failing i := by
    unfold RelayWorld.updateTx
    rw [List.map_map]
    refine List.map_congr_left fun tx _ => ?_
    show RelayTx.failing (if tx.session = s then g tx else tx) i = tx.failing i
    split
    · unfold RelayTx.failing
      rw [hm]
    · rfl
  unfold RelayWorld.failing
  rw [hfail]

/-- What a statement about a row adds. -/
def counts (id : ℤ) (mark : OutboxMark) (i : ℤ) : ℕ := if id = i ∧ mark.isFailed = true then 1 else 0

theorem Counted.mark (h : w.Counted f) (htx : w.tx s = some tx) (id : ℤ) (mark : OutboxMark) :
    (w.updateTx s fun tx => { tx with marks := tx.marks ++ [(id, mark)] }).Counted fun i => f i + counts id mark i := by
  obtain ⟨l₁, l₂, hl, hup, -⟩ := h.sessions.split htx
  have hfail : ∀ i, (w.updateTx s fun tx => { tx with marks := tx.marks ++ [(id, mark)] }).failing i =
      w.failing i + counts id mark i := by
    intro i
    unfold RelayWorld.failing
    rw [hup, hl]
    have hone : RelayTx.failing { tx with marks := tx.marks ++ [(id, mark)] } i = tx.failing i + counts id mark i := by
      unfold RelayTx.failing counts
      dsimp only
      rw [List.countP_append, List.countP_singleton]
      simp only [Bool.and_eq_true, beq_iff_eq]
    simp only [List.map_append, List.map_cons, List.sum_append, List.sum_cons, hone]
    omega
  refine ⟨h.sessions.updateTx s fun _ => rfl, fun i => ?_, fun x hx => ?_, h.exhausted⟩
  · rw [hfail]
    exact Nat.add_le_add_right (h.marks i) _
  · have := h.rows x hx
    rw [hfail]
    push_cast
    omega

theorem Counted.commit (h : w.Counted f) (htx : w.tx s = some tx) :
    RelayWorld.Counted { w.closeTx s with outbox := w.outbox.map tx.row } f := by
  obtain ⟨l₁, l₂, hl, -, hcl⟩ := h.sessions.split htx
  have hfail : ∀ i, (w.closeTx s).failing i + tx.failing i = w.failing i := by
    intro i
    unfold RelayWorld.failing
    rw [hcl, hl]
    simp only [List.map_append, List.map_cons, List.sum_append, List.sum_cons]
    omega
  refine ⟨⟨(h.sessions.closeTx s).distinct, (h.sessions.closeTx s).opened⟩, (h.closeTx s).marks, fun x' hx' => ?_, fun x' hx' => ?_⟩
  · obtain ⟨x, hx, rfl⟩ := List.mem_map.1 hx'
    obtain ⟨hsame, hatt, -, -, -⟩ := tx.row_written x
    rw [hsame.id, hatt]
    have := h.rows x hx
    have hf := hfail x.id
    change x.attemptCount + (tx.failing x.id : ℤ) + ((w.closeTx s).failing x.id : ℤ) ≤ f x.id
    omega
  · obtain ⟨x, hx, rfl⟩ := List.mem_map.1 hx'
    exact (tx.row_written x).exhausted (h.exhausted x hx)

theorem Counted.insert (h : w.Counted f) {e : OutboxEvent} (he : e.Staged) :
    RelayWorld.Counted { w with outbox := w.outbox ++ [e] } f := by
  refine ⟨⟨h.sessions.distinct, h.sessions.opened⟩, h.marks, fun x hx => ?_, fun x hx hfail => ?_⟩
  · rcases List.mem_append.1 hx with hx | hx
    · exact h.rows x hx
    · rw [List.mem_singleton.1 hx, he.attemptCount]
      have := h.marks e.id
      change (0 : ℤ) + (w.failing e.id : ℤ) ≤ f e.id
      omega
  · rcases List.mem_append.1 hx with hx | hx
    · exact h.exhausted x hx hfail
    · rw [List.mem_singleton.1 hx] at hfail
      exact absurd he.failedAt hfail

theorem Counted.begin (h : w.Counted f) (now : Time) : (RelayOp.beginTx now w).2.Counted f := by
  have hfail : ∀ i, (RelayOp.beginTx now w).2.failing i = w.failing i := by
    intro i
    simp [RelayOp.beginTx, RelayWorld.failing, RelayTx.failing]
  refine h.less rfl ⟨?_, fun tx htx => ?_⟩ fun i => (hfail i).le
  · unfold RelayOp.beginTx
    dsimp only
    rw [List.map_append, List.nodup_append]
    refine ⟨h.sessions.distinct, by simp, fun a ha b hb => ?_⟩
    obtain ⟨tx, htx, rfl⟩ := List.mem_map.1 ha
    have := h.sessions.opened tx htx
    obtain rfl : b = w.sessions := by simpa using hb
    omega
  · unfold RelayOp.beginTx at htx ⊢
    rcases List.mem_append.1 htx with htx | htx
    · have := h.sessions.opened tx htx
      dsimp only
      omega
    · rw [List.mem_singleton.1 htx]
      exact Nat.lt_succ_self _

end RelayWorld

/-! ## What a call does -/

/-- The ways a call changes the world. -/
inductive RelayOp.Effect (w : RelayWorld) : (o : RelayOp) → o.Res → RelayWorld → Prop
  | none (o : RelayOp) (r : o.Res) : (∀ e, o ≠ .publishMsg e) → Effect w o r w
  | begin (r : Except Err ℕ) (now : Time) : Effect w .begin r (beginTx now w).2
  | lock (s limit : ℕ) (r : Except Err (List OutboxEvent)) (ids : List ℤ) :
      Effect w (.selectPending s limit) r (w.updateTx s fun tx => { tx with locked := tx.locked ++ ids })
  | publish (e : OutboxEvent) : Effect w (.publishMsg e) (.ok ()) { w with published := w.published ++ [e] }
  | fail (e : OutboxEvent) (err : PublishErr) : Effect w (.publishMsg e) (.error err) { w with failures := w.failures ++ [e] }
  | write (s : ℕ) (id : ℤ) (mark : OutboxMark) (r : Except Err Unit) (tx : RelayTx) : w.tx s = some tx →
      Effect w (.exec s id mark) r (w.updateTx s fun tx => { tx with marks := tx.marks ++ [(id, mark)] })
  | abort (s : ℕ) (id : ℤ) (mark : OutboxMark) (r : Except Err Unit) :
      Effect w (.exec s id mark) r (w.updateTx s fun tx => { tx with aborted := true })
  | close (o : RelayOp) (r : o.Res) (s : ℕ) : (∀ e, o ≠ .publishMsg e) → Effect w o r (w.closeTx s)
  | commit (s : ℕ) (r : Except Err Unit) (tx : RelayTx) : w.tx s = some tx →
      Effect w (.commit s) r { w.closeTx s with outbox := w.outbox.map tx.row }

theorem RelayOp.Exec.effect {o : RelayOp} {w w' : RelayWorld} {r : o.Res} (h : RelayOp.Exec o w r w') : o.Effect w r w' := by
  obtain ⟨now, fault, he⟩ := h
  obtain rfl : w' = (o.run now fault w).2 := by rw [he]
  cases o with
  | begin =>
    rcases fault.apply_state Err.plain (beginTx now) w with hs | hs <;> simp only [run, hs]
    · exact .none _ _ fun _ h => by cases h
    · exact .begin r now
  | selectPending s limit =>
    rcases fault.apply_state Err.plain (select s limit) w with hs | hs <;> simp only [run, hs]
    · exact .none _ _ fun _ h => by cases h
    · unfold select
      split
      · exact .none _ _ fun _ h => by cases h
      · exact .lock s limit r _
  | publishMsg e =>
    simp only [run, RelayOp.publish] at he ⊢
    cases fault with
    | none =>
      obtain ⟨rfl, -⟩ := Prod.mk.inj he
      exact .publish e
    | before d =>
      obtain ⟨rfl, -⟩ := Prod.mk.inj he
      exact .fail e (.stopped (.plain d))
    | after d =>
      obtain ⟨rfl, -⟩ := Prod.mk.inj he
      exact .fail e (.refused (.plain d))
  | exec s id mark =>
    simp only [run, execMark]
    split
    · exact .none _ _ fun _ h => by cases h
    · rename_i tx htx
      split
      · exact .none _ _ fun _ h => by cases h
      · cases fault with
        | none => exact .write s id mark r tx htx
        | before d | after d => exact .abort s id mark r
  | commit s =>
    rcases fault.apply_state Err.plain (commitTx s) w with hs | hs <;> simp only [run, hs]
    · exact .none _ _ fun _ h => by cases h
    · unfold commitTx
      split
      · exact .none _ _ fun _ h => by cases h
      · rename_i tx htx
        split
        · exact .close _ r s fun _ h => by cases h
        · exact .commit s r tx htx
  | rollback s =>
    rcases fault.apply_state Err.plain (fun w : RelayWorld => ((.ok () : Except Err Unit), w.closeTx s)) w with hs | hs <;>
      simp only [run, hs]
    · exact .none _ _ fun _ h => by cases h
    · exact .close _ r s fun _ h => by cases h

/-- Whether an operation writes that a row could not be published. -/
def RelayOp.counts (i : ℤ) : RelayOp → ℕ
  | exec _ id mark => RelayWorld.counts id mark i
  | _ => 0

namespace RelayOp.Effect

variable {o : RelayOp} {w w' : RelayWorld} {r : o.Res}

theorem more {f : ℤ → ℕ} (hc : w.Counted f) (o : RelayOp) : w.Counted fun i => f i + o.counts i := by
  refine ⟨hc.sessions, fun i => (hc.marks i).trans (Nat.le_add_right _ _), fun x hx => ?_, hc.exhausted⟩
  have := hc.rows x hx
  push_cast
  omega

/-- **A call writes of a row that it could not be published only by the statement that says so.** -/
theorem counted (h : o.Effect w r w') {f : ℤ → ℕ} (hc : w.Counted f) : w'.Counted fun i => f i + o.counts i := by
  cases h with
  | none => exact more hc o
  | begin => exact hc.begin _
  | lock | abort => refine (more hc _).updateTx _ (fun _ => ?_) fun _ => ?_ <;> rfl
  | publish | fail => exact hc.less rfl ⟨hc.sessions.distinct, hc.sessions.opened⟩ fun i => le_refl _
  | write s id mark r tx htx => exact hc.mark htx id mark
  | close => exact (more hc _).closeTx _
  | commit s r tx htx => exact hc.commit htx

/-- Only a commit changes rows, those its transaction has written. -/
theorem outbox (h : o.Effect w r w') : w'.outbox = w.outbox ∨ ∃ tx ∈ w.txs, w'.outbox = w.outbox.map tx.row := by
  cases h with
  | commit s r tx htx => exact .inr ⟨tx, (RelayWorld.tx_mem htx).1, rfl⟩
  | none | begin | lock | abort | publish | fail | write | close => exact .inl rfl

/-- Only a statement writes. -/
theorem marks (h : o.Effect w r w') {tx' : RelayTx} (htx : tx' ∈ w'.txs) {i : ℤ} {mark : OutboxMark}
    (hm : (i, mark) ∈ tx'.marks) : (∃ tx ∈ w.txs, (i, mark) ∈ tx.marks) ∨ ∃ s, o = .exec s i mark := by
  cases h with
  | none | publish | fail => exact .inl ⟨tx', htx, hm⟩
  | close | commit => exact .inl ⟨tx', List.mem_of_mem_filter htx, hm⟩
  | begin r now =>
    rcases List.mem_append.1 htx with htx | htx
    · exact .inl ⟨tx', htx, hm⟩
    · rw [List.mem_singleton.1 htx] at hm
      cases hm
  | lock | abort =>
    obtain ⟨tx, hold, rfl⟩ := List.mem_map.1 htx
    refine .inl ⟨tx, hold, ?_⟩
    split at hm <;> exact hm
  | write s id m r _ _ =>
    obtain ⟨tx, hold, rfl⟩ := List.mem_map.1 htx
    split at hm
    · rcases List.mem_append.1 hm with hm | hm
      · exact .inl ⟨tx, hold, hm⟩
      · cases List.mem_singleton.1 hm
        exact .inr ⟨s, rfl⟩
    · exact .inl ⟨tx, hold, hm⟩

/-- What is published stays so, and is what a call has published. -/
theorem published (h : o.Effect w r w') : (∀ e ∈ w.published, e ∈ w'.published) ∧
    ∀ e ∈ w'.published, e ∈ w.published ∨ (⟨o, r⟩ : Event RelayOp RelayOp.Res) = ⟨.publishMsg e, .ok ()⟩ := by
  cases h with
  | publish e =>
    refine ⟨fun e' he' => List.mem_append_left _ he', fun e' he' => ?_⟩
    rcases List.mem_append.1 he' with he' | he'
    · exact .inl he'
    · rw [List.mem_singleton.1 he']
      exact .inr rfl
  | none | begin | lock | abort | fail | write | close | commit => exact ⟨fun _ h => h, fun _ h => .inl h⟩

end RelayOp.Effect

/-! ## What is selected -/

theorem mem_selectPending {limit : ℕ} {locked : List ℤ} {outbox : List OutboxEvent} {e : OutboxEvent}
    (h : e ∈ selectPending limit locked outbox) : e ∈ outbox ∧ pending e = true := by
  obtain ⟨h1, h2⟩ := List.mem_filter.1 (List.mem_mergeSort.1 (List.mem_of_mem_take h))
  simp only [Bool.and_eq_true] at h2
  exact ⟨h1, h2.1⟩

theorem RelayOp.Exec.selected {s limit : ℕ} {w w' : RelayWorld} {batch : List OutboxEvent}
    (h : RelayOp.Exec (.selectPending s limit) w (.ok batch) w') :
    batch = OutboxRepo.selectPending limit (w.txs.flatMap (·.locked)) w.outbox ∧ w'.outbox = w.outbox := by
  obtain ⟨now, fault, he⟩ := h
  have he := Fault.of_ok he
  unfold select at he
  split at he
  · cases he
  · simp only [Prod.mk.injEq, Except.ok.injEq] at he
    obtain ⟨rfl, rfl⟩ := he
    exact ⟨rfl, rfl⟩

/-! ## What a call has done before it writes -/

/-- A row is published from the batch, and what is written of it is what has just come of that. -/
def RelayOp.Preceded (h : List (Event RelayOp RelayOp.Res)) : RelayOp → Prop
  | publishMsg e => ∃ s limit batch, ⟨.selectPending s limit, .ok batch⟩ ∈ h ∧ e ∈ batch
  | exec _ i mark => ∃ h₀ e r, h = h₀ ++ [⟨.publishMsg e, r⟩] ∧ e.id = i ∧
      ((mark = .sent ∧ r = .ok ()) ∨ mark.isFailed = true ∧ r ≠ .ok ())
  | _ => True

theorem publishBatch_after (tx : ℕ) {s limit : ℕ} {all : List OutboxEvent} (batch : List OutboxEvent) :
    ∀ {h : List (Event RelayOp RelayOp.Res)}, ⟨.selectPending s limit, .ok all⟩ ∈ h → (∀ e ∈ batch, e ∈ all) →
      (publishBatch tx batch).After RelayOp.Preceded h := by
  induction batch with
  | nil => exact fun _ _ => trivial
  | cons e batch ih =>
    intro h hsel hsub
    have hrest : ∀ e ∈ batch, e ∈ all := fun e he => hsub e (List.mem_cons_of_mem _ he)
    refine ⟨⟨s, limit, all, hsel, hsub e List.mem_cons_self⟩, fun r => ?_⟩
    match r with
    | .ok () => exact ⟨⟨h, e, .ok (), rfl, rfl, .inl ⟨rfl, rfl⟩⟩, fun _ => ih (by simp [hsel]) hrest⟩
    | .error (.stopped err) =>
      exact ⟨⟨h, e, .error (.stopped err), rfl, rfl, .inr ⟨rfl, nofun⟩⟩, fun _ => ih (by simp [hsel]) hrest⟩
    | .error (.refused err) =>
      exact ⟨⟨h, e, .error (.refused err), rfl, rfl, .inr ⟨rfl, nofun⟩⟩, fun _ => ih (by simp [hsel]) hrest⟩

theorem relayTx_after (limit tx : ℕ) {h : List (Event RelayOp RelayOp.Res)} : (relayTx limit tx).After RelayOp.Preceded h := by
  simp only [relayTx, Prog.bind_eq, Prog.perform_bind]
  refine ⟨trivial, fun r => ?_⟩
  cases r with
  | error err => trivial
  | ok batch =>
    have hsel : (⟨.selectPending tx limit, .ok batch⟩ : Event RelayOp RelayOp.Res) ∈
        h ++ [⟨.selectPending tx limit, .ok batch⟩] := by simp
    refine Prog.After.bind (fun h _ => ?_) (publishBatch_after tx batch hsel fun _ he => he)
    refine ⟨trivial, fun r => ?_⟩
    cases r <;> trivial

theorem relay_after : relay.After RelayOp.Preceded [] := by
  simp only [relay, relayBatch, Prog.bind_eq, Prog.perform_bind]
  refine ⟨trivial, fun r => ?_⟩
  cases r with
  | error err => trivial
  | ok tx =>
    refine Prog.After.bind (fun h _ => ?_) (relayTx_after fetchBatchSize tx)
    exact ⟨trivial, fun _ => trivial⟩

/-! ## Every run -/

abbrev RelayConfig := Config RelayWorld Unit RelayOp RelayOp.Res (Except Err ℕ)

/-- Whether an event is a failed publication of a row. -/
def RelayOp.failureOf (i : ℤ) : Event RelayOp RelayOp.Res → ℕ
  | ⟨.publishMsg e, .error _⟩ => if e.id = i then 1 else 0
  | _ => 0

/-- **A call has written of a row that it could not be published no more often than that has happened to it.** -/
theorem counts_le (i : ℤ) : ∀ (n : ℕ) (h : List (Event RelayOp RelayOp.Res)), h.length ≤ n →
    (∀ h₁ e h₂, h = h₁ ++ e :: h₂ → RelayOp.Preceded h₁ e.1) →
    (h.map fun e => e.1.counts i).sum ≤ (h.map (RelayOp.failureOf i)).sum := by
  intro n
  induction n with
  | zero =>
    intro h hlen _
    rw [List.length_eq_zero_iff.1 (Nat.le_zero.1 hlen)]
    simp
  | succ n ih =>
    intro h hlen hpre
    rcases List.eq_nil_or_concat h with rfl | ⟨h₁, e, rfl⟩
    · simp
    rw [List.concat_eq_append] at hlen hpre ⊢
    rw [List.length_append, List.length_singleton] at hlen
    have hprefix : ∀ h₂ h₃, h₁ = h₂ ++ h₃ → (h₂.map fun e => e.1.counts i).sum ≤ (h₂.map (RelayOp.failureOf i)).sum := by
      intro h₂ h₃ h23
      refine ih h₂ ?_ fun h₄ e' h₅ h45 => hpre h₄ e' (h₅ ++ h₃ ++ [e]) (by rw [h23, h45]; simp)
      have := congrArg List.length h23
      rw [List.length_append] at this
      omega
    simp only [List.map_append, List.map_cons, List.map_nil, List.sum_append, List.sum_cons, List.sum_nil]
    by_cases hzero : e.1.counts i = 0
    · have := hprefix h₁ [] (List.append_nil _).symm
      omega
    · -- it is written right after the publication has failed
      have hlast := hpre h₁ e [] rfl
      obtain ⟨o, r⟩ := e
      cases o with
      | exec s id mark =>
        obtain ⟨h₀, ev, r', rfl, rfl, hmark⟩ := hlast
        have hcount : RelayOp.counts i (.exec s ev.id mark) = if ev.id = i ∧ mark.isFailed = true then 1 else 0 := rfl
        have h0 := hprefix h₀ _ rfl
        simp only [List.map_append, List.map_cons, List.map_nil, List.sum_append, List.sum_cons, List.sum_nil]
        change _ + (0 + 0) + (RelayOp.counts i (.exec s ev.id mark) + 0) ≤ _
        rw [hcount] at hzero ⊢
        have hcond : ev.id = i ∧ mark.isFailed = true := by
          by_contra hno
          exact hzero (if_neg hno)
        rw [if_pos hcond]
        rcases hmark with ⟨rfl, -⟩ | ⟨-, hr⟩
        · exact absurd hcond.2 (by simp [OutboxMark.isFailed])
        · cases r' with
          | ok u => exact absurd rfl hr
          | error err =>
            have hfail : RelayOp.failureOf i ⟨.publishMsg ev, .error err⟩ = 1 := if_pos hcond.1
            rw [hfail]
            omega
      | begin | selectPending | publishMsg | commit | rollback => exact absurd rfl hzero

namespace RelayWorld

/-- A publication of the row has succeeded. -/
def Published (w : RelayWorld) (x : OutboxEvent) : Prop := ∃ e ∈ w.published, e.SameMessage x

/-- A row is marked sent only if it was published, and marked failed only if ten publications of it have failed. -/
structure Accounted (w : RelayWorld) : Prop where
  sent : ∀ x ∈ w.outbox, x.sentAt ≠ none → w.Published x
  failed : ∀ x ∈ w.outbox, x.failedAt ≠ none → outboxMaxAttempts ≤ (w.failures.countP (·.id == x.id) : ℕ)

/-- The numbers of the rows. -/
structure Keyed (w : RelayWorld) : Prop where
  distinct : (w.outbox.map (·.id)).Nodup
  positive : ∀ x ∈ w.outbox, 0 < x.id

theorem Keyed.same {w : RelayWorld} (h : w.Keyed) {x y : OutboxEvent} (hx : x ∈ w.outbox) (hy : y ∈ w.outbox)
    (hid : x.id = y.id) : x = y :=
  List.inj_on_of_nodup_map h.distinct hx hy hid

theorem Keyed.mapped {w w' : RelayWorld} (h : w.Keyed) (hids : w'.outbox.map (·.id) = w.outbox.map (·.id)) : w'.Keyed := by
  refine ⟨by rw [hids]; exact h.distinct, fun x hx => ?_⟩
  have hx := List.mem_map_of_mem (f := OutboxEvent.id) hx
  rw [hids] at hx
  obtain ⟨y, hy, hid⟩ := List.mem_map.1 hx
  rw [← hid]
  exact h.positive y hy

theorem Keyed.insert {w w' : RelayWorld} (h : w.Keyed) (hw : w.Inserts w') : w'.Keyed := by
  cases hw with
  | insert e he hfresh =>
    refine ⟨?_, fun x hx => ?_⟩
    · rw [List.map_append, List.nodup_append]
      refine ⟨h.distinct, by simp, fun a ha b hb hab => ?_⟩
      obtain rfl : b = e.id := by simpa using hb
      exact hfresh (hab ▸ ha)
    · rcases List.mem_append.1 hx with hx | hx
      · exact h.positive x hx
      · rw [List.mem_singleton.1 hx]
        exact he.id

theorem map_row_ids (tx : RelayTx) (l : List OutboxEvent) : (l.map tx.row).map (·.id) = l.map (·.id) := by
  rw [List.map_map]
  exact List.map_congr_left fun e _ => (tx.row_written e).same.id

end RelayWorld

theorem RelayOp.Effect.keyed {o : RelayOp} {w w' : RelayWorld} {r : o.Res} (h : o.Effect w r w') (hk : w.Keyed) : w'.Keyed := by
  rcases h.outbox with ho | ⟨tx, -, ho⟩
  · exact hk.mapped (by rw [ho])
  · exact hk.mapped (by rw [ho, RelayWorld.map_row_ids])

/-- The rows after a call or a payment: each that was there is there, with the same message. -/
theorem RelayOp.Effect.rows {o : RelayOp} {w w' : RelayWorld} {r : o.Res} (h : o.Effect w r w') :
    ∀ x ∈ w.outbox, ∃ x' ∈ w'.outbox, x'.SameMessage x := by
  rcases h.outbox with ho | ⟨tx, -, ho⟩
  · exact fun x hx => ⟨x, ho ▸ hx, .refl x⟩
  · exact fun x hx => ⟨tx.row x, by rw [ho]; exact List.mem_map_of_mem hx, (tx.row_written x).same⟩

section Runs

variable {c : RelayConfig}

theorem relay_keyed (h : relaySys.Reach anyStep .empty c) : c.world.Keyed := by
  refine h.inv RelayWorld.Keyed ⟨by simp [RelayWorld.empty], by simp [RelayWorld.empty]⟩ ?_ ?_
  · exact fun c t o r w' _ _ hk he => (RelayOp.Exec.effect he).keyed hk
  · intro w w' hk hm
    cases hm with
    | insert hw => exact hk.insert hw
    | close s => exact ⟨hk.distinct, hk.positive⟩

/-- **The attempts that the rows count are those that have failed.** -/
theorem relay_counted (h : relaySys.Reach anyStep .empty c) :
    c.world.Counted fun i => tally (fun e => e.1.counts i) c.threads := by
  refine h.pool_inv (fun w ts => w.Counted fun i => tally (fun e => e.1.counts i) ts) ?_ ?_ ?_ ?_
  · refine ⟨⟨?_, ?_⟩, ?_, ?_, ?_⟩ <;> simp [RelayWorld.empty, RelayWorld.failing]
  · intro w ts c hc
    simpa only [tally_start] using hc
  · intro w w' ts₁ ts₂ c h o k r hc he _
    have hc' := (RelayOp.Exec.effect he).counted hc
    have hsum : ∀ i, tally (fun e : Event RelayOp RelayOp.Res => e.1.counts i) (ts₁ ++ ⟨c, h ++ [⟨o, r⟩], k r⟩ :: ts₂) =
        tally (fun e => e.1.counts i) (ts₁ ++ ⟨c, h, .call o k⟩ :: ts₂) + o.counts i := fun i =>
      tally_perform _ ts₁ ts₂ c h ⟨o, r⟩ (.call o k) (k r)
    simpa only [hsum] using hc'
  · intro w w' ts hc hm
    cases hm with
    | insert hw =>
      cases hw with
      | insert e he _ => exact hc.insert he
    | close s => exact hc.closeTx s

theorem relay_failures (h : relaySys.Reach anyStep .empty c) (i : ℤ) :
    tally (RelayOp.failureOf i) c.threads ≤ c.world.failures.countP (·.id == i) := by
  refine h.pool_inv (fun w ts => tally (RelayOp.failureOf i) ts ≤ w.failures.countP (·.id == i)) (Nat.le_refl _) ?_ ?_ ?_
  · intro w ts c hc
    rwa [tally_start]
  · intro w w' ts₁ ts₂ c h o k r hc he _
    rw [tally_perform _ ts₁ ts₂ c h ⟨o, r⟩ (.call o k) (k r)]
    have hgrows : w.failures.countP (·.id == i) + RelayOp.failureOf i ⟨o, r⟩ ≤ w'.failures.countP (·.id == i) := by
      cases RelayOp.Exec.effect he with
      | fail e err =>
        rw [List.countP_append, List.countP_singleton]
        by_cases hi : e.id = i <;> simp [RelayOp.failureOf, hi]
      | publish => exact Nat.le_refl _
      | begin | lock | write | abort | commit => exact Nat.le_refl _
      | none o r hno | close o r s hno =>
        cases o with
        | publishMsg e => exact absurd rfl (hno e)
        | begin | selectPending | exec | commit | rollback => exact Nat.le_refl _
    omega
  · intro w w' ts hc hm
    cases hm with
    | insert hw =>
      cases hw with
      | insert => exact hc
    | close s => exact hc

/-- What a call has published is published, and a row of the outbox. -/
theorem relay_published (h : relaySys.Reach anyStep .empty c) :
    ∀ t ∈ c.threads, ∀ e, ⟨.publishMsg e, .ok ()⟩ ∈ t.did → e ∈ c.world.published ∧ ∃ x ∈ c.world.outbox, x.SameMessage e := by
  intro t ht e he
  have hpre := (h.after (P := fun _ => RelayOp.Preceded) (fun _ => relay_after) t ht).2
  obtain ⟨h₁, h₂, hd⟩ := List.append_of_mem he
  obtain ⟨s, limit, batch, hsel, hbatch⟩ := hpre h₁ _ h₂ hd
  refine ⟨?_, ?_⟩
  · refine h.lasting (E := fun ev => ev = ⟨.publishMsg e, .ok ()⟩) (F := fun w => e ∈ w.published) ?_ ?_ ?_ t ht _ he rfl
    · rintro o w r w' hex heq
      cases heq
      cases RelayOp.Exec.effect hex with
      | publish => exact List.mem_append_right _ (List.mem_singleton.2 rfl)
      | none _ _ hno | close _ _ _ hno => exact absurd rfl (hno e)
    · exact fun o w r w' hex hp => (RelayOp.Exec.effect hex).published.1 e hp
    · intro w w' hm hp
      cases hm with
      | insert hw =>
        cases hw with
        | insert => exact hp
      | close s => exact hp
  · refine h.lasting (E := fun ev => ev = ⟨.selectPending s limit, .ok batch⟩)
      (F := fun w => ∀ e ∈ batch, ∃ x ∈ w.outbox, x.SameMessage e) ?_ ?_ ?_ t ht _ ?_ rfl e hbatch
    · rintro o w r w' hex heq
      cases heq
      obtain ⟨hbatch, ho⟩ := hex.selected
      intro e he
      rw [hbatch] at he
      exact ⟨e, ho ▸ (mem_selectPending he).1, .refl e⟩
    · intro o w r w' hex hrows e he
      obtain ⟨x, hx, hsame⟩ := hrows e he
      obtain ⟨x', hx', hsame'⟩ := (RelayOp.Exec.effect hex).rows x hx
      exact ⟨x', hx', hsame'.trans hsame⟩
    · intro w w' hm hrows e he
      obtain ⟨x, hx, hsame⟩ := hrows e he
      cases hm with
      | insert hw =>
        cases hw with
        | insert => exact ⟨x, List.mem_append_left _ hx, hsame⟩
      | close s => exact ⟨x, hx, hsame⟩
    · rw [hd]
      exact List.mem_append_left _ hsel

/-- **A row is marked sent only if it was published, and failed only if that has failed ten times**, in every run. -/
theorem relay_accounted (h : relaySys.Reach anyStep .empty c) : c.world.Accounted := by
  have hafter := h.after (P := fun _ => RelayOp.Preceded) fun _ => relay_after
  refine ⟨fun x hx hs => ?_, fun x hx hf => ?_⟩
  · -- the row is marked, or about to be
    let F (w : RelayWorld) : Prop :=
      (∃ y ∈ w.outbox, y.id = x.id ∧ y.sentAt ≠ none) ∨ ∃ tx ∈ w.txs, (x.id, .sent) ∈ tx.marks
    have hop : ∀ o w r w', relaySys.exec o w r w' → F w' → F w ∨ ∃ s, o = .exec s x.id .sent := by
      rintro o w r w' hex (⟨y, hy, hid, hs⟩ | ⟨tx, htx, hm⟩)
      · rcases (RelayOp.Exec.effect hex).outbox with ho | ⟨tx, htx, ho⟩
        · exact .inl (.inl ⟨y, ho ▸ hy, hid, hs⟩)
        · rw [ho] at hy
          obtain ⟨z, hz, rfl⟩ := List.mem_map.1 hy
          obtain ⟨hsame, -, hsent, -, -⟩ := tx.row_written z
          rw [hsame.id] at hid
          left
          exact (hsent hs).imp (fun hs => ⟨z, hz, hid, hs⟩) fun hm => ⟨tx, htx, hid ▸ hm⟩
      · exact ((RelayOp.Exec.effect hex).marks htx hm).imp_left fun h => .inr h
    have henv : ∀ w w', relaySys.env w w' → F w' → F w := by
      rintro w w' hm hF
      cases hm with
      | insert hw =>
        cases hw with
        | insert e he _ =>
          refine hF.imp_left ?_
          rintro ⟨y, hy, hid, hs⟩
          rcases List.mem_append.1 hy with hy | hy
          · exact ⟨y, hy, hid, hs⟩
          · rw [List.mem_singleton.1 hy] at hs
            exact absurd he.sentAt hs
      | close s =>
        refine hF.imp_right ?_
        rintro ⟨tx, htx, hm⟩
        exact ⟨tx, List.mem_of_mem_filter htx, hm⟩
    obtain ⟨t, ht, ev, hev, s, hexec⟩ := h.author (F := F) (E := fun ev => ∃ s, ev.1 = .exec s x.id .sent)
      (by simp [F, RelayWorld.empty]) hop henv (.inl ⟨x, hx, rfl, hs⟩)
    -- the statement comes right after the publication
    obtain ⟨h₁, h₂, hd⟩ := List.append_of_mem hev
    have hpre := (hafter t ht).2 h₁ ev h₂ hd
    rw [hexec] at hpre
    obtain ⟨h₀, e, r, rfl, hid, ⟨-, rfl⟩ | ⟨hno, -⟩⟩ := hpre
    · obtain ⟨hp, y, hy, hsame⟩ := relay_published h t ht e (by rw [hd]; simp)
      obtain rfl : y = x := (relay_keyed h).same hy hx (hsame.id.trans hid)
      exact ⟨e, hp, hsame.symm⟩
    · cases hno
  · have hcount := relay_counted h
    have h1 := hcount.exhausted x hx hf
    have h2 := hcount.rows x hx
    have h3 : tally (fun e : Event RelayOp RelayOp.Res => e.1.counts x.id) c.threads ≤ tally (RelayOp.failureOf x.id) c.threads :=
      tally_le fun t ht => counts_le x.id t.did.length t.did (Nat.le_refl _) (hafter t ht).2
    have h4 := relay_failures h x.id
    omega

end Runs

/-! ## Ticks in which nothing fails -/

/-- A call of a tick in which nothing fails, with the payments written since the last one. -/
def RelayOp.Clean (o : RelayOp) (w : RelayWorld) (r : o.Res) (w' : RelayWorld) : Prop :=
  ∃ w₁ now, Relation.ReflTransGen RelayWorld.Inserts w w₁ ∧ o.run now .none w₁ = (r, w')

/-- Ticks of one worker, one after the other, in which nothing fails. -/
inductive RelayWorld.Ticks : ℕ → RelayWorld → RelayWorld → Prop where
  | zero (w : RelayWorld) : Ticks 0 w w
  | tick {k : ℕ} {w w₁ w₂ : RelayWorld} (n : Except Err ℕ) : Ticks k w w₁ → relay.Runs RelayOp.Clean w₁ n w₂ → Ticks (k + 1) w w₂

namespace RelayWorld

variable {w w' w'' : RelayWorld}

/-- Rows and publications have been added. -/
structure Grown (w w' : RelayWorld) : Prop where
  rows : ∃ new, w'.outbox = w.outbox ++ new ∧ ∀ e ∈ new, pending e = true
  keyed : w.Keyed → w'.Keyed
  published : ∀ e ∈ w.published, e ∈ w'.published

theorem Grown.of_outbox (ho : w'.outbox = w.outbox) (hp : ∀ e ∈ w.published, e ∈ w'.published) : w.Grown w' :=
  ⟨⟨[], by rw [ho, List.append_nil], by simp⟩, fun hk => hk.mapped (by rw [ho]), hp⟩

theorem Grown.trans (h : w.Grown w') (h' : w'.Grown w'') : w.Grown w'' := by
  obtain ⟨new, ho, hnew⟩ := h.rows
  obtain ⟨new', ho', hnew'⟩ := h'.rows
  refine ⟨⟨new ++ new', by rw [ho', ho, List.append_assoc], fun e he => ?_⟩, fun hk => h'.keyed (h.keyed hk),
    fun e he => h'.published e (h.published e he)⟩
  exact (List.mem_append.1 he).elim (hnew e) (hnew' e)

theorem Grown.mem (h : w.Grown w') {x : OutboxEvent} (hx : x ∈ w.outbox) : x ∈ w'.outbox := by
  obtain ⟨new, ho, -⟩ := h.rows
  rw [ho]
  exact List.mem_append_left _ hx

/-- Payments written meanwhile. -/
theorem grown_of_inserts (h : Relation.ReflTransGen Inserts w w') :
    w.Grown w' ∧ w'.txs = w.txs ∧ w'.sessions = w.sessions ∧ w'.published = w.published := by
  induction h with
  | refl => exact ⟨.of_outbox rfl fun _ h => h, rfl, rfl, rfl⟩
  | tail _ hi ih =>
    obtain ⟨hg, h1, h2, h3⟩ := ih
    have hkeyed := fun hk : RelayWorld.Keyed _ => hk.insert hi
    cases hi with
    | insert e he hfresh =>
      exact ⟨hg.trans ⟨⟨[e], rfl, by simp [pending, he.sentAt, he.failedAt]⟩, hkeyed, fun _ h => h⟩, h1, h2, h3⟩

end RelayWorld

/-- **The loop publishes the whole batch** and writes so of every row. -/
theorem publishBatch_clean (s : ℕ) (now : Time) (locked : List ℤ) (batch : List OutboxEvent) :
    ∀ {w w' : RelayWorld} {marks : List (ℤ × OutboxMark)} {u : Unit}, w.txs = [⟨s, now, locked, marks, false⟩] →
      (publishBatch s batch).Runs RelayOp.Clean w u w' → w.Grown w' ∧
        w'.txs = [⟨s, now, locked, marks ++ batch.map fun e => (e.id, .sent), false⟩] ∧ ∀ e ∈ batch, e ∈ w'.published := by
  induction batch with
  | nil =>
    rintro w w' marks u htxs ⟨-, rfl⟩
    exact ⟨.of_outbox rfl fun _ h => h, by simpa using htxs, by simp⟩
  | cons e batch ih =>
    intro w w' marks u htxs hrun
    obtain ⟨r, w₁, ⟨w₀, t₁, hins, hpub⟩, hrun⟩ := hrun
    obtain ⟨hg, htx₀, -, hp₀⟩ := RelayWorld.grown_of_inserts hins
    simp only [RelayOp.run, RelayOp.publish, Prod.mk.injEq] at hpub
    obtain ⟨rfl, rfl⟩ := hpub
    obtain ⟨r, w₂, ⟨w₃, t₂, hins₂, hexec⟩, hrun⟩ := hrun
    obtain ⟨hg₂, htx₃, -, hp₃⟩ := RelayWorld.grown_of_inserts hins₂
    have htx : w₃.txs = [⟨s, now, locked, marks, false⟩] := htx₃.trans (htx₀.trans htxs)
    have hw₂ : w₂ = w₃.updateTx s fun tx => { tx with marks := tx.marks ++ [(e.id, .sent)] } := by
      simp only [RelayOp.run, RelayOp.execMark, RelayWorld.tx, htx, List.find?_cons, beq_self_eq_true, Bool.false_eq_true,
        if_false, Prod.mk.injEq] at hexec
      exact hexec.2.symm
    have htxs₂ : w₂.txs = [⟨s, now, locked, marks ++ [(e.id, .sent)], false⟩] := by
      rw [hw₂]
      simp [RelayWorld.updateTx, htx]
    obtain ⟨hg₃, htxs', hall⟩ := ih htxs₂ hrun
    have hstep₁ : w.Grown { w₀ with published := w₀.published ++ [e] } :=
      hg.trans (.of_outbox rfl fun _ h => List.mem_append_left _ h)
    have hstep₂ : w₃.Grown w₂ := by
      rw [hw₂]
      exact .of_outbox rfl fun _ h => h
    refine ⟨hstep₁.trans (hg₂.trans (hstep₂.trans hg₃)), ?_, fun e' he' => ?_⟩
    · rw [htxs']
      simp
    · rcases List.mem_cons.1 he' with rfl | he'
      · refine hg₃.published _ (hstep₂.published _ (hg₂.published _ ?_))
        exact List.mem_append_right _ (List.mem_singleton.2 rfl)
      · exact hall e' he'

/-- The transaction of a tick in which nothing fails, from its selection to its commit. -/
theorem relayTx_clean {limit s : ℕ} {now : Time} {w w' : RelayWorld} {n : Except Err ℕ} (htxs : w.txs = [⟨s, now, [], [], false⟩])
    (hrun : (relayTx limit s).Runs RelayOp.Clean w n w') : ∃ w₁ w₂ : RelayWorld, ∃ tx : RelayTx, w.Grown w₁ ∧ w₁.Grown w₂ ∧
      tx.marks = (selectPending limit [] w₁.outbox).map (fun e => (e.id, .sent)) ∧
      (∀ e ∈ selectPending limit [] w₁.outbox, e ∈ w₂.published) ∧ w' = { w₂ with outbox := w₂.outbox.map tx.row, txs := [] } := by
  simp only [relayTx, Prog.bind_eq, Prog.perform_bind] at hrun
  obtain ⟨r, w₃, ⟨w₁, t₁, hins, hsel⟩, hrun⟩ := hrun
  obtain ⟨hg₁, htx₁, -, -⟩ := RelayWorld.grown_of_inserts hins
  have htx₁ : w₁.txs = [⟨s, now, [], [], false⟩] := htx₁.trans htxs
  simp only [RelayOp.run, Fault.apply_none, RelayOp.select, RelayWorld.tx, htx₁, List.find?_cons, beq_self_eq_true,
    List.flatMap_cons, List.flatMap_nil, List.append_nil, Prod.mk.injEq] at hsel
  obtain ⟨rfl, rfl⟩ := hsel
  obtain ⟨u, w₄, hloop, hrun⟩ := (Prog.runs_bind _ _ _ _ _ _).1 hrun
  have hlocked : (w₁.updateTx s fun tx => { tx with
      locked := tx.locked ++ (selectPending limit [] w₁.outbox).map (·.id) }).txs =
      [⟨s, now, (selectPending limit [] w₁.outbox).map (·.id), [], false⟩] := by
    simp [RelayWorld.updateTx, htx₁]
  obtain ⟨hg₄, htx₄, hall⟩ := publishBatch_clean s now _ _ hlocked hloop
  rw [List.nil_append] at htx₄
  obtain ⟨r, w₅, ⟨w₂, t₂, hins₂, hcommit⟩, hrun⟩ := hrun
  obtain ⟨hg₂, htx₂, -, hp₂⟩ := RelayWorld.grown_of_inserts hins₂
  have htx₂ := htx₂.trans htx₄
  simp only [RelayOp.run, Fault.apply_none, RelayOp.commitTx, RelayWorld.tx, htx₂, List.find?_cons, beq_self_eq_true,
    Bool.false_eq_true, if_false, Prod.mk.injEq] at hcommit
  obtain ⟨rfl, rfl⟩ := hcommit
  obtain ⟨-, rfl⟩ := hrun
  have hlock : w₁.Grown (w₁.updateTx s fun tx => { tx with
      locked := tx.locked ++ (selectPending limit [] w₁.outbox).map (·.id) }) := .of_outbox rfl fun _ h => h
  refine ⟨w₁, w₂, ⟨s, now, (selectPending limit [] w₁.outbox).map (·.id),
    (selectPending limit [] w₁.outbox).map fun e => (e.id, .sent), false⟩, hg₁, hlock.trans (hg₄.trans hg₂), rfl,
    fun e he => hg₂.published e (hall e he), ?_⟩
  simp [RelayWorld.closeTx, htx₂]

/-- **What a tick does in which nothing fails**: it publishes what it selects, and commits that. -/
theorem relay_clean {w w' : RelayWorld} {n : Except Err ℕ} (htxs : w.txs = []) (hrun : relay.Runs RelayOp.Clean w n w') :
    ∃ w₁ w₂ : RelayWorld, ∃ tx : RelayTx, w.Grown w₁ ∧ w₁.Grown w₂ ∧
      tx.marks = (selectPending fetchBatchSize [] w₁.outbox).map (fun e => (e.id, .sent)) ∧
      (∀ e ∈ selectPending fetchBatchSize [] w₁.outbox, e ∈ w₂.published) ∧
      RelayWorld.Grown { w₂ with outbox := w₂.outbox.map tx.row, txs := [] } w' ∧ w'.txs = [] := by
  simp only [relay, relayBatch, Prog.bind_eq, Prog.perform_bind] at hrun
  obtain ⟨r, w₃, ⟨w₀, t₀, hins, hbegin⟩, hrun⟩ := hrun
  obtain ⟨hg₀, htx₀, -, -⟩ := RelayWorld.grown_of_inserts hins
  simp only [RelayOp.run, Fault.apply_none, RelayOp.beginTx, htx₀.trans htxs, List.nil_append, Prod.mk.injEq] at hbegin
  obtain ⟨rfl, rfl⟩ := hbegin
  obtain ⟨n', w₄, htx, hrun⟩ := (Prog.runs_bind _ _ _ _ _ _).1 hrun
  obtain ⟨w₁, w₂, tx, hg₁, hg₂, hmarks, hpub, rfl⟩ := relayTx_clean rfl htx
  obtain ⟨r, w₅, ⟨w₆, t₁, hins₂, hrollback⟩, -, rfl⟩ := hrun
  obtain ⟨hg₃, htx₃, -, -⟩ := RelayWorld.grown_of_inserts hins₂
  simp only [RelayOp.run, Fault.apply_none, Prod.mk.injEq] at hrollback
  obtain ⟨-, rfl⟩ := hrollback
  have hopen : w₀.Grown { w₀ with txs := [⟨w₀.sessions, t₀, [], [], false⟩], sessions := w₀.sessions + 1 } :=
    .of_outbox rfl fun _ h => h
  refine ⟨w₁, w₂, tx, hg₀.trans (hopen.trans hg₁), hg₂, hmarks, hpub, hg₃.trans (.of_outbox rfl fun _ h => h), ?_⟩
  simp [RelayWorld.closeTx, htx₃]

/-! ## Progress -/

/-- A row that is not selected comes after one that is. -/
theorem selectPending_before {limit : ℕ} (hlimit : 0 < limit) {outbox : List OutboxEvent} {x : OutboxEvent} (hx : x ∈ outbox)
    (hp : pending x = true) (hno : x ∉ selectPending limit [] outbox) : ∃ e ∈ selectPending limit [] outbox, e.id ≤ x.id := by
  unfold selectPending at hno ⊢
  generalize hS : (outbox.filter fun e => pending e && !List.contains [] e.id).mergeSort (fun a b => decide (a.id ≤ b.id)) = S at hno ⊢
  have hxS : x ∈ S := by
    rw [← hS, List.mem_mergeSort, List.mem_filter]
    exact ⟨hx, by simp [hp]⟩
  have hsorted : S.Pairwise fun a b => a.id ≤ b.id := by
    rw [← hS]
    exact Rel.mergeSort_pairwise OutboxEvent.id _
  cases S with
  | nil => cases hxS
  | cons e S =>
    obtain ⟨k, rfl⟩ : ∃ k, limit = k + 1 := ⟨limit - 1, by omega⟩
    refine ⟨e, by simp, ?_⟩
    rcases List.mem_cons.1 hxS with rfl | hxS
    · exact le_refl _
    · exact List.rel_of_pairwise_cons hsorted hxS

theorem RelayTx.row_of_not_marked {tx : RelayTx} {e : OutboxEvent} (h : ∀ m ∈ tx.marks, e.id ≠ m.1) : tx.row e = e := by
  have hfold : ∀ marks : List (ℤ × OutboxMark), (∀ m ∈ marks, e.id ≠ m.1) →
      marks.foldl (fun e m => if e.id = m.1 then m.2.row tx.now e else e) e = e := by
    intro marks
    induction marks with
    | nil => exact fun _ => rfl
    | cons m marks ih =>
      intro hm
      rw [List.foldl_cons, if_neg (hm m List.mem_cons_self)]
      exact ih fun m hm' => hm m (List.mem_cons_of_mem _ hm')
  exact hfold tx.marks h

namespace RelayWorld

variable {w w' : RelayWorld}

/-- The row with this number is sent, or given up. -/
def Done (w : RelayWorld) (i : ℤ) : Prop := ∃ y ∈ w.outbox, y.id = i ∧ pending y = false

/-- **What a tick in which nothing fails does for a pending row**: it publishes it, or an earlier one. -/
structure Advanced (w w' : RelayWorld) : Prop where
  keyed : w'.Keyed
  txs : w'.txs = []
  published : ∀ e ∈ w.published, e ∈ w'.published
  done : ∀ i, w.Done i → w'.Done i
  next : ∀ x ∈ w.outbox, pending x = true → w'.Published x ∨
    x ∈ w'.outbox ∧ ∃ i, 0 < i ∧ i < x.id ∧ ¬ w.Done i ∧ w'.Done i

theorem advanced (hk : w.Keyed) (htxs : w.txs = []) {n : Except Err ℕ} (hrun : relay.Runs RelayOp.Clean w n w') : w.Advanced w' := by
  obtain ⟨w₁, w₂, tx, hg₁, hg₂, hmarks, hpub, hg₃, htxs'⟩ := relay_clean htxs hrun
  have hk₁ := hg₁.keyed hk
  have hk₂ := hg₂.keyed hk₁
  have hids : (w₂.outbox.map tx.row).map (·.id) = w₂.outbox.map (·.id) := map_row_ids tx w₂.outbox
  have hmark : ∀ e ∈ selectPending fetchBatchSize [] w₁.outbox, (e.id, .sent) ∈ tx.marks := fun e he => by
    rw [hmarks]
    exact List.mem_map.2 ⟨e, he, rfl⟩
  -- a row of the outbox, after the commit and what follows it
  have hrow : ∀ y ∈ w₂.outbox, tx.row y ∈ w'.outbox := fun y hy => hg₃.mem (List.mem_map_of_mem hy)
  -- a row that is not selected stays as it is
  have hleft : ∀ y ∈ w₁.outbox, y ∉ selectPending fetchBatchSize [] w₁.outbox → y ∈ w'.outbox := by
    intro y hy hno
    have hrow := hrow y (hg₂.mem hy)
    rwa [RelayTx.row_of_not_marked] at hrow
    intro m hm hid
    rw [hmarks] at hm
    obtain ⟨e, he, rfl⟩ := List.mem_map.1 hm
    exact hno (hk₁.same hy (mem_selectPending he).1 hid ▸ he)
  refine ⟨hg₃.keyed (hk₂.mapped hids), htxs', fun e he => hg₃.published e (hg₂.published e (hg₁.published e he)), ?_, ?_⟩
  · rintro i ⟨y, hy, rfl, hp⟩
    refine ⟨y, hleft y (hg₁.mem hy) fun hsel => ?_, rfl, hp⟩
    rw [(mem_selectPending hsel).2] at hp
    cases hp
  · intro x hx hp
    have hx₁ := hg₁.mem hx
    by_cases hsel : x ∈ selectPending fetchBatchSize [] w₁.outbox
    · exact .inl ⟨x, hg₃.published x (hpub x hsel), .refl x⟩
    · right
      obtain ⟨e, he, hle⟩ := selectPending_before (by decide) hx₁ hp hsel
      obtain ⟨he₁, hep⟩ := mem_selectPending he
      have hne : e.id ≠ x.id := fun hid => hsel (hk₁.same he₁ hx₁ hid ▸ he)
      refine ⟨hleft x hx₁ hsel, e.id, hk₁.positive e he₁, by omega, ?_, tx.row e, hrow e (hg₂.mem he₁), ?_, ?_⟩
      · rintro ⟨y, hy, hid, hyp⟩
        rw [hk₁.same (hg₁.mem hy) he₁ hid, hep] at hyp
        cases hyp
      · exact (tx.row_written e).same.id
      · have hsent := (tx.row_written e).kept (.inr (hmark e he))
        unfold pending
        rw [Option.isNone_eq_false_iff.2 (Option.isSome_iff_ne_none.2 hsent), Bool.false_and]

open Classical in
/-- The numbers before a row that are not done. -/
noncomputable def ahead (w : RelayWorld) (n : ℤ) : Finset ℤ := (Finset.Ioo 0 n).filter fun i => ¬ w.Done i

open Classical in
theorem ahead_card_le (w : RelayWorld) (n : ℤ) : (w.ahead n).card ≤ (n - 1).toNat := by
  have h : (w.ahead n).card ≤ (Finset.Ioo 0 n).card := by
    unfold ahead
    exact Finset.card_filter_le _ _
  rw [Int.card_Ioo] at h
  omega

theorem Advanced.ahead_lt (h : w.Advanced w') {n i : ℤ} (h0 : 0 < i) (hn : i < n) (hi : ¬ w.Done i) (hi' : w'.Done i) :
    (w'.ahead n).card < (w.ahead n).card := by
  refine Finset.card_lt_card (Finset.ssubset_iff_of_subset ?_ |>.2 ⟨i, ?_, ?_⟩)
  · intro j hj
    simp only [ahead, Finset.mem_filter] at hj ⊢
    exact ⟨hj.1, fun hd => hj.2 (h.done j hd)⟩
  · simp only [ahead, Finset.mem_filter, Finset.mem_Ioo]
    exact ⟨⟨h0, hn⟩, hi⟩
  · simp only [ahead, Finset.mem_filter]
    exact fun hj => hj.2 hi'

theorem Ticks.advanced {k : ℕ} (h : Ticks k w w') (hk : w.Keyed) (htxs : w.txs = []) : w'.Keyed ∧ w'.txs = [] ∧
    (∀ e ∈ w.published, e ∈ w'.published) ∧ ∀ x ∈ w.outbox, pending x = true →
      w'.Published x ∨ x ∈ w'.outbox ∧ (w'.ahead x.id).card + k ≤ (w.ahead x.id).card := by
  induction h with
  | zero w => exact ⟨hk, htxs, fun _ h => h, fun x hx _ => .inr ⟨hx, Nat.le_refl _⟩⟩
  | tick n _ hrun ih =>
    obtain ⟨hk₁, htxs₁, hpub, hrows⟩ := ih hk htxs
    have hadv := RelayWorld.advanced hk₁ htxs₁ hrun
    refine ⟨hadv.keyed, hadv.txs, fun e he => hadv.published e (hpub e he), fun x hx hp => ?_⟩
    rcases hrows x hx hp with ⟨e, he, hsame⟩ | ⟨hx₁, hcard⟩
    · exact .inl ⟨e, hadv.published e he, hsame⟩
    · rcases hadv.next x hx₁ hp with hdone | ⟨hx₂, i, h0, hn, hi, hi'⟩
      · exact .inl hdone
      · have := hadv.ahead_lt h0 hn hi hi'
        exact .inr ⟨hx₂, by omega⟩

theorem exists_ticks (w : RelayWorld) (k : ℕ) : ∃ w', Ticks k w w' := by
  induction k with
  | zero => exact ⟨w, .zero w⟩
  | succ k ih =>
    obtain ⟨w₁, h⟩ := ih
    have hrun := Prog.runs_eval (show ∀ (o : RelayOp) w, o.Clean w (o.run 0 .none w).1 (o.run 0 .none w).2 from
      fun o w => ⟨w, 0, .refl, rfl⟩) relay w₁
    exact ⟨_, .tick _ h hrun⟩

end RelayWorld

/-- **What becomes of a payment event**, after any run of any number of workers: it is marked sent only if it was published,
and given up only if ten publications of it have failed; and unless it is given up, enough ticks in which nothing fails
publish it. -/
theorem outbox_delivered {c : RelayConfig} (h : relaySys.Reach anyStep .empty c) : c.world.Accounted ∧
    (c.world.txs = [] → ∀ x ∈ c.world.outbox, x.failedAt = none → ∀ k : ℕ, x.id ≤ k →
      (∃ w', RelayWorld.Ticks k c.world w') ∧ ∀ w', RelayWorld.Ticks k c.world w' → w'.Published x) := by
  refine ⟨relay_accounted h, fun htxs x hx hf k hle => ⟨RelayWorld.exists_ticks c.world k, fun w' hticks => ?_⟩⟩
  obtain ⟨-, -, hpub, hrows⟩ := hticks.advanced (relay_keyed h) htxs
  by_cases hs : x.sentAt = none
  · rcases hrows x hx (by simp [pending, hs, hf]) with hdone | ⟨-, hcard⟩
    · exact hdone
    · -- there are fewer numbers before it than ticks
      have := c.world.ahead_card_le x.id
      have := (relay_keyed h).positive x hx
      omega
  · obtain ⟨e, he, hsame⟩ := (relay_accounted h).sent x hx hs
    exact ⟨e, hpub e he, hsame⟩

/-! ## An outage of ten ticks -/

def outageMsg (e : OutboxEvent) : String :=
  truncateUTF8 ((Err.plain "nats: timeout").wrap ("attempt " ++ toString (e.attemptCount + 1))).text maxLastErrorBytes

/-- The first row, after a number of failed publications. -/
def failedTimes : ℕ → OutboxEvent
  | 0 => { id := 1, subject := .paymentCompleted, payload := ⟨"p", "b", "succeeded"⟩, paymentID := "p" }
  | k + 1 => failedRow 0 (outageMsg (failedTimes k)) (failedTimes k)

/-- After a number of ticks, of which the first ones failed. -/
def outageWorld (failed ticks : ℕ) : RelayWorld := ⟨[failedTimes failed], [], ticks, [], (List.range failed).map failedTimes⟩

theorem failedTimes_spec (k : ℕ) : (failedTimes k).id = 1 ∧ (failedTimes k).attemptCount = k ∧ (failedTimes k).sentAt = none ∧
    ((failedTimes k).failedAt = none ↔ k < 10) := by
  induction k with
  | zero => exact ⟨rfl, rfl, rfl, by simp [failedTimes]⟩
  | succ k ih =>
    obtain ⟨h1, h2, h3, -⟩ := ih
    refine ⟨h1, ?_, h3, ?_⟩
    · simp only [failedTimes, failedRow, h2]
      push_cast
      rfl
    · simp only [failedTimes, failedRow, h2, outboxMaxAttempts]
      split
      · simp only [reduceCtorEq, false_iff]
        omega
      · simp only [true_iff]
        omega

theorem select_outage (k : ℕ) : selectPending fetchBatchSize [] [failedTimes k] = if k < 10 then [failedTimes k] else [] := by
  obtain ⟨-, -, hs, hf⟩ := failedTimes_spec k
  by_cases hk : k < 10
  · simp [selectPending, pending, hs, hf.2 hk, hk, fetchBatchSize]
  · have hf : (failedTimes k).failedAt ≠ none := fun h => hk (hf.1 h)
    simp [selectPending, pending, hs, hf, hk]

/-- The broker answers no publication; the database is well. -/
def outageRun : (o : RelayOp) → RelayWorld → o.Res × RelayWorld
  | .publishMsg e, w => RelayOp.run 0 (.after "nats: timeout") (.publishMsg e) w
  | o, w => o.run 0 .none w

theorem publishBatch_outage (k : ℕ) (e : OutboxEvent) (outbox failures : List OutboxEvent) :
    (publishBatch k [e]).eval outageRun ⟨outbox, [⟨k, 0, [e.id], [], false⟩], k + 1, [], failures⟩ =
      ((), ⟨outbox, [⟨k, 0, [e.id], [(e.id, .failed (outageMsg e))], false⟩], k + 1, [], failures ++ [e]⟩) := by
  simp [publishBatch, publishOne, outageRun, RelayOp.run, RelayOp.publish, RelayOp.execMark, RelayWorld.tx, RelayWorld.updateTx,
    outageMsg]

theorem relay_outage {k : ℕ} (hk : k < 10) : (relay.eval outageRun (outageWorld k k)).2 = outageWorld (k + 1) (k + 1) := by
  have hsel := select_outage k
  rw [if_pos hk] at hsel
  simp only [relay, relayBatch, relayTx, Prog.bind_eq, Prog.perform_bind, Prog.eval_call, Prog.eval_bind, outageRun, RelayOp.run,
    Fault.apply_none, RelayOp.beginTx, outageWorld, List.nil_append, RelayOp.select, RelayWorld.tx, List.find?_cons,
    beq_self_eq_true, List.flatMap_cons, List.flatMap_nil, List.append_nil, hsel, RelayWorld.updateTx, List.map_cons,
    List.map_nil, if_true, publishBatch_outage]
  simp [RelayOp.commitTx, RelayWorld.tx, RelayWorld.closeTx, List.range_succ, RelayTx.row, OutboxMark.row, failedTimes]

/-- Ten ticks long the broker answers nothing, and the row is given up. -/
theorem outage_reached (k : ℕ) (hk : k ≤ 10) : ∃ ts, relaySys.Reach anyStep .empty ⟨outageWorld k k, ts⟩ := by
  induction k with
  | zero =>
    have h : relaySys.Reach anyStep .empty ⟨.empty, []⟩ := .init
    have hins : RelayWorld.Inserts .empty (outageWorld 0 0) :=
      .insert .empty (failedTimes 0) ⟨by decide, rfl, rfl, rfl⟩ (by simp [RelayWorld.empty])
    exact ⟨_, h.step (.env _ _ _ (.insert hins))⟩
  | succ k ih =>
    obtain ⟨ts, h⟩ := ih (by omega)
    have hexec : ∀ o w, RelayOp.Exec o w (outageRun o w).1 (outageRun o w).2 := by
      intro o w
      cases o with
      | publishMsg e => exact ⟨0, .after "nats: timeout", rfl⟩
      | begin | selectPending | exec | commit | rollback => exact ⟨0, .none, rfl⟩
    have hrun := Prog.runs_eval hexec relay (outageWorld k k)
    rw [relay_outage (by omega)] at hrun
    obtain ⟨did, h⟩ := Sys.Reach.runs (S := relaySys) (c := ()) (fun o w r w' he => ⟨he, fun _ _ _ => trivial⟩) hrun trivial h
    exact ⟨_, h⟩

/-- A tick that finds the row given up. -/
theorem relay_given_up (n : ℕ) : (relay.eval (fun o w => o.run 0 .none w) (outageWorld 10 n)).2 = outageWorld 10 (n + 1) := by
  have hsel := select_outage 10
  rw [if_neg (by decide)] at hsel
  simp only [relay, relayBatch, relayTx, Prog.bind_eq, Prog.perform_bind, Prog.eval_call, Prog.eval_bind, RelayOp.run,
    Fault.apply_none, RelayOp.beginTx, outageWorld, List.nil_append, RelayOp.select, RelayWorld.tx, List.find?_cons,
    beq_self_eq_true, List.flatMap_cons, List.flatMap_nil, List.append_nil, hsel, RelayWorld.updateTx, List.map_cons,
    List.map_nil, if_true, publishBatch, Prog.eval_ret, Prog.pure_eq]
  simp [RelayOp.commitTx, RelayWorld.tx, RelayWorld.closeTx, RelayTx.row]

theorem outage_ticks (k : ℕ) : RelayWorld.Ticks k (outageWorld 10 10) (outageWorld 10 (10 + k)) := by
  induction k with
  | zero => exact .zero _
  | succ k ih =>
    have hrun := Prog.runs_eval (show ∀ (o : RelayOp) w, o.Clean w (o.run 0 .none w).1 (o.run 0 .none w).2 from
      fun o w => ⟨w, 0, .refl, rfl⟩) relay (outageWorld 10 (10 + k))
    rw [relay_given_up] at hrun
    exact .tick _ ih hrun

theorem outbox_not_always_delivered : ¬ ∀ c : RelayConfig, relaySys.Reach anyStep .empty c → c.world.txs = [] →
    ∀ x ∈ c.world.outbox, ∃ k, ∀ w', RelayWorld.Ticks k c.world w' → w'.Published x := by
  intro hall
  obtain ⟨ts, h⟩ := outage_reached 10 (by omega)
  obtain ⟨k, hk⟩ := hall _ h rfl (failedTimes 10) List.mem_cons_self
  obtain ⟨e, he, -⟩ := hk _ (outage_ticks k)
  cases he

theorem outbox_delivered_sample : ∃ c : RelayConfig, relaySys.Reach anyStep .empty c ∧ c.world = outageWorld 9 9 ∧
    c.world.Accounted ∧ ∀ w', RelayWorld.Ticks 1 c.world w' → w'.Published (failedTimes 9) := by
  obtain ⟨ts, h⟩ := outage_reached 9 (by omega)
  obtain ⟨haccounted, hdelivered⟩ := outbox_delivered h
  obtain ⟨hid, -, -, hf⟩ := failedTimes_spec 9
  refine ⟨_, h, rfl, haccounted, ?_⟩
  exact (hdelivered rfl (failedTimes 9) List.mem_cons_self (hf.2 (by omega)) 1 (by rw [hid]; decide)).2

end Agregator
