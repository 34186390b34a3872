import Agregator.BookFacts
import Mathlib.Logic.Relation
/-!
# BookOutbox — the poller of the booking outbox

A poll fetches the oldest unsent rows, publishes them until one fails, and marks what it has published.  Publishing and
marking may fail, with or without their effect, and a poller may crash anywhere.  A row is marked only once it is
published, and an event of a booking is first published when all earlier ones of that booking are (`relayed_in_order`).

A row is drawn its number when it is inserted and is seen when its transaction commits, so rows of different bookings may
show up out of order; the transaction of a booking holds the row of the booking, which its `UPDATE` locks before.
-/
namespace Agregator

open Rel Conc

/-- The committed rows, the rows of open transactions, the next number of the sequence, and what the broker has taken. -/
structure OutboxWorld where
  outbox : List BookingEvent
  inserted : List BookingEvent
  next : ℤ
  published : List BookingEvent

/-! ## The repository and the broker -/

namespace BookingRepo

def fetchUnsentOutbox (limit : ℕ) (outbox : List BookingEvent) : List BookingEvent :=
  (((outbox.filter (·.sentAt.isNone)).mergeSort fun a b => decide (a.id ≤ b.id)).take limit).map fun ev =>
    { id := ev.id, subject := ev.subject, payload := ev.payload }

def markOutboxSent (now : Time) (ids : List ℤ) (outbox : List BookingEvent) : List BookingEvent :=
  outbox.map fun ev => if ev.id ∈ ids then { ev with sentAt := some now } else ev

end BookingRepo

/-- The broker is given the subject and the payload of the row. -/
inductive OutboxOp where
  | fetchUnsentOutbox (limit : ℕ)
  | publishRaw (ev : BookingEvent)
  | markOutboxSent (ids : List ℤ)

namespace OutboxOp

@[reducible] def Res : OutboxOp → Type
  | fetchUnsentOutbox _ => Except Err (List BookingEvent)
  | publishRaw _ | markOutboxSent _ => Except Err Unit

/-- What an operation does when nothing goes wrong. -/
def effect (now : Time) : (o : OutboxOp) → OutboxWorld → o.Res × OutboxWorld
  | fetchUnsentOutbox limit, w => (.ok (BookingRepo.fetchUnsentOutbox limit w.outbox), w)
  | publishRaw ev, w => (.ok (), { w with published := w.published ++ [ev] })
  | markOutboxSent ids, w => (.ok (), { w with outbox := BookingRepo.markOutboxSent now ids w.outbox })

def run (now : Time) (fault : Fault String) : (o : OutboxOp) → OutboxWorld → o.Res × OutboxWorld
  | fetchUnsentOutbox limit, w => fault.apply Err.plain (effect now (fetchUnsentOutbox limit)) w
  | publishRaw ev, w => fault.apply Err.plain (effect now (publishRaw ev)) w
  | markOutboxSent ids, w => fault.apply Err.plain (effect now (markOutboxSent ids)) w

def Exec (o : OutboxOp) (w : OutboxWorld) (r : o.Res) (w' : OutboxWorld) : Prop :=
  ∃ now fault, o.run now fault w = (r, w')

end OutboxOp

/-! ## A poll -/

abbrev OutboxProg := Prog OutboxOp OutboxOp.Res

abbrev OutboxOp.call (o : OutboxOp) : OutboxProg o.Res := Prog.perform o

open OutboxOp (call)

/-- The loop of `ProcessOutbox`: it stops at the first event that cannot be published. -/
def publishEach : List BookingEvent → OutboxProg (List ℤ)
  | [] => return []
  | ev :: events => do
    match ← call (.publishRaw ev) with
    | .error _ => return []
    | .ok () =>
      let sent ← publishEach events
      return ev.id :: sent

def processOutbox (limit : ℕ) : OutboxProg (ℕ × Option Err) := do
  match ← call (.fetchUnsentOutbox limit) with
  | .error err => return (0, some err)
  | .ok events =>
    let sent ← publishEach events
    if sent = [] then return (0, none)
    else
      match ← call (.markOutboxSent sent) with
      | .error err => return (sent.length, some err)
      | .ok () => return (sent.length, none)

/-- The transactions that write the outbox: no two of one booking are open at once. -/
inductive OutboxWorld.Writes : OutboxWorld → OutboxWorld → Prop where
  | insert (w : OutboxWorld) (ev : BookingEvent) (id : ℤ) : w.next ≤ id →
      (∀ x ∈ w.inserted, x.payload.bookingID ≠ ev.payload.bookingID) →
      Writes w { w with inserted := w.inserted ++ [{ ev with id := id, sentAt := none }], next := id + 1 }
  | commit (w : OutboxWorld) (l₁ l₂ : List BookingEvent) (ev : BookingEvent) : w.inserted = l₁ ++ ev :: l₂ →
      Writes w { w with inserted := l₁ ++ l₂, outbox := w.outbox ++ [ev] }
  | rollback (w : OutboxWorld) (l₁ l₂ : List BookingEvent) (ev : BookingEvent) : w.inserted = l₁ ++ ev :: l₂ →
      Writes w { w with inserted := l₁ ++ l₂ }

/-- Polls with their limits, any number of them. -/
def outboxSys : Sys OutboxWorld ℕ OutboxOp OutboxOp.Res (ℕ × Option Err) where
  prog := processOutbox
  ready _ _ := True
  exec := OutboxOp.Exec
  env := OutboxWorld.Writes

/-- As the migration creates it. -/
def OutboxWorld.empty : OutboxWorld := ⟨[], [], 1, []⟩

/-! ## What is to be kept -/

namespace OutboxWorld

/-- The event under this number has been published. -/
def Published (w : OutboxWorld) (i : ℤ) : Prop := ∃ p ∈ w.published, p.id = i

/-- Two records of one event. -/
def SameEvent (x y : BookingEvent) : Prop := x.id = y.id ∧ x.subject = y.subject ∧ x.payload = y.payload

/-- What is marked is published, what is published is in the outbox, and an event is first published after all earlier
events of its booking. -/
structure Relayed (w : OutboxWorld) : Prop where
  sent : ∀ ev ∈ w.outbox, ev.sentAt ≠ none → w.Published ev.id
  source : ∀ p ∈ w.published, ∃ x ∈ w.outbox, SameEvent x p
  ordered : ∀ l₁ p l₂, w.published = l₁ ++ p :: l₂ → (∀ q ∈ l₁, q.id ≠ p.id) →
    ∀ x ∈ w.outbox, x.payload.bookingID = p.payload.bookingID → x.id < p.id → ∃ q ∈ l₁, q.id = x.id

/-- Numbers are drawn in order, and the rows of open transactions come after the committed ones of their bookings. -/
structure Lined (w : OutboxWorld) : Prop where
  drawn : ∀ x ∈ w.outbox ++ w.inserted, x.id < w.next
  later : ∀ y ∈ w.inserted, ∀ x ∈ w.outbox, x.payload.bookingID = y.payload.bookingID → x.id < y.id
  locked : w.inserted.Pairwise fun x y => x.payload.bookingID ≠ y.payload.bookingID
  unsent : ∀ y ∈ w.inserted, y.sentAt = none

structure Good (w : OutboxWorld) : Prop where
  lined : w.Lined
  relayed : w.Relayed

/-- The world later. -/
structure Goes (w w' : OutboxWorld) : Prop where
  kept : ∀ x ∈ w.outbox, ∃ x' ∈ w'.outbox, SameEvent x' x ∧ (x.sentAt ≠ none → x'.sentAt ≠ none)
  fresh : ∀ x' ∈ w'.outbox, (∃ x ∈ w.outbox, SameEvent x x') ∨
    ∀ x ∈ w.outbox, x.payload.bookingID = x'.payload.bookingID → x.id < x'.id
  log : ∃ l, w'.published = w.published ++ l

variable {w w' w'' : OutboxWorld}

theorem SameEvent.trans {x y z : BookingEvent} (h : SameEvent x y) (h' : SameEvent y z) : SameEvent x z :=
  ⟨h.1.trans h'.1, h.2.1.trans h'.2.1, h.2.2.trans h'.2.2⟩

theorem SameEvent.symm {x y : BookingEvent} (h : SameEvent x y) : SameEvent y x := ⟨h.1.symm, h.2.1.symm, h.2.2.symm⟩

theorem Goes.refl (w : OutboxWorld) : w.Goes w :=
  ⟨fun x hx => ⟨x, hx, ⟨rfl, rfl, rfl⟩, fun h => h⟩, fun x hx => .inl ⟨x, hx, rfl, rfl, rfl⟩, [], by rw [List.append_nil]⟩

theorem Goes.trans (h : w.Goes w') (h' : w'.Goes w'') : w.Goes w'' := by
  refine ⟨fun x hx => ?_, fun x'' hx'' => ?_, ?_⟩
  · obtain ⟨x', hx', hsame, hsent⟩ := h.kept x hx
    obtain ⟨x'', hx'', hsame', hsent'⟩ := h'.kept x' hx'
    exact ⟨x'', hx'', hsame'.trans hsame, fun hs => hsent' (hsent hs)⟩
  · rcases h'.fresh x'' hx'' with ⟨x', hx', hsame⟩ | hnew
    · rcases h.fresh x' hx' with ⟨x, hx, hsame'⟩ | hnew
      · exact .inl ⟨x, hx, hsame'.trans hsame⟩
      · refine .inr fun x hx hb => ?_
        rw [← hsame.1]
        exact hnew x hx (by rw [hb, hsame.2.2])
    · refine .inr fun x hx hb => ?_
      obtain ⟨x', hx', hsame, -⟩ := h.kept x hx
      rw [← hsame.1]
      exact hnew x' hx' (by rw [hsame.2.2, hb])
  · obtain ⟨l, hl⟩ := h.log
    obtain ⟨l', hl'⟩ := h'.log
    exact ⟨l ++ l', by rw [hl', hl, List.append_assoc]⟩

theorem Goes.published (h : w.Goes w') {i : ℤ} (hi : w.Published i) : w'.Published i := by
  obtain ⟨p, hp, rfl⟩ := hi
  obtain ⟨l, hl⟩ := h.log
  exact ⟨p, by rw [hl]; exact List.mem_append_left _ hp, rfl⟩

/-! ## The transactions that write the outbox -/

/-- Rows that were there and are later, with nothing published meanwhile. -/
theorem Relayed.grow (h : w.Relayed) (hg : w.Goes w') (hlog : w'.published = w.published)
    (hsent : ∀ x' ∈ w'.outbox, x'.sentAt ≠ none → w.Published x'.id) : w'.Relayed := by
  refine ⟨fun x' hx' hs => ?_, fun p hp => ?_, fun l₁ p l₂ hl hfirst x' hx' hb hlt => ?_⟩
  · exact hg.published (hsent x' hx' hs)
  · rw [hlog] at hp
    obtain ⟨x, hx, hsame⟩ := h.source p hp
    obtain ⟨x', hx', hsame', -⟩ := hg.kept x hx
    exact ⟨x', hx', hsame'.trans hsame⟩
  · rw [hlog] at hl
    rcases hg.fresh x' hx' with ⟨x, hx, hsame⟩ | hnew
    · rw [← hsame.1] at hlt ⊢
      exact h.ordered l₁ p l₂ hl hfirst x hx (by rw [hsame.2.2, hb]) hlt
    · -- a new row comes after the event, which is of its booking
      obtain ⟨x, hx, hsame⟩ := h.source p (by rw [hl]; simp)
      have := hnew x hx (by rw [hsame.2.2, hb])
      rw [hsame.1] at this
      omega

/-- The rows of the other open transactions, when one comes to its end. -/
theorem Lined.others (h : w.Lined) {l₁ l₂ : List BookingEvent} {ev : BookingEvent} (hl : w.inserted = l₁ ++ ev :: l₂) :
    (∀ y ∈ l₁ ++ l₂, y ∈ w.inserted ∧ ev.payload.bookingID ≠ y.payload.bookingID) ∧
      (l₁ ++ l₂).Pairwise fun x y => x.payload.bookingID ≠ y.payload.bookingID := by
  have hlocked := h.locked
  rw [hl] at hlocked
  obtain ⟨h1, h2, h3⟩ := List.pairwise_append.1 hlocked
  obtain ⟨h4, h5⟩ := List.pairwise_cons.1 h2
  refine ⟨fun y hy => ?_, List.pairwise_append.2 ⟨h1, h5, fun x hx y hy => h3 x hx y (List.mem_cons_of_mem _ hy)⟩⟩
  rw [hl]
  rcases List.mem_append.1 hy with hy | hy
  · exact ⟨List.mem_append_left _ hy, fun hb => h3 y hy ev List.mem_cons_self hb.symm⟩
  · exact ⟨List.mem_append_right _ (List.mem_cons_of_mem _ hy), h4 y hy⟩

/-- **The transactions that write the outbox keep it in line**, and what is published stays so. -/
theorem Good.writes (h : w.Good) (hw : w.Writes w') : w'.Good ∧ w.Goes w' := by
  cases hw with
  | insert ev id hid hfree =>
    refine ⟨⟨⟨fun x hx => ?_, fun y hy x hx hb => ?_, ?_, fun y hy => ?_⟩,
      ⟨h.relayed.sent, h.relayed.source, h.relayed.ordered⟩⟩, ⟨(Goes.refl w).kept, (Goes.refl w).fresh, (Goes.refl w).log⟩⟩
    · rw [← List.append_assoc] at hx
      rcases List.mem_append.1 hx with hx | hx
      · have := h.lined.drawn x hx
        show x.id < id + 1
        omega
      · rw [List.mem_singleton.1 hx]
        show id < id + 1
        omega
    · rcases List.mem_append.1 hy with hy | hy
      · exact h.lined.later y hy x hx hb
      · rw [List.mem_singleton.1 hy]
        have := h.lined.drawn x (List.mem_append_left _ hx)
        show x.id < id
        omega
    · refine List.pairwise_append.2 ⟨h.lined.locked, by simp, fun x hx y hy => ?_⟩
      rw [List.mem_singleton.1 hy]
      exact hfree x hx
    · rcases List.mem_append.1 hy with hy | hy
      · exact h.lined.unsent y hy
      · rw [List.mem_singleton.1 hy]
  | commit l₁ l₂ ev hl =>
    have hev : ev ∈ w.inserted := by rw [hl]; simp
    obtain ⟨hothers, hlocked⟩ := h.lined.others hl
    have hg : w.Goes { w with inserted := l₁ ++ l₂, outbox := w.outbox ++ [ev] } := by
      refine ⟨fun x hx => ⟨x, List.mem_append_left _ hx, ⟨rfl, rfl, rfl⟩, fun h => h⟩, fun x' hx' => ?_, [], ?_⟩
      · rcases List.mem_append.1 hx' with hx' | hx'
        · exact .inl ⟨x', hx', rfl, rfl, rfl⟩
        · rw [List.mem_singleton.1 hx']
          exact .inr (h.lined.later ev hev)
      · exact (List.append_nil _).symm
    refine ⟨⟨⟨fun x hx => ?_, fun y hy x hx hb => ?_, hlocked, fun y hy => h.lined.unsent y (hothers y hy).1⟩,
      h.relayed.grow hg rfl fun x' hx' hs => ?_⟩, hg⟩
    · refine h.lined.drawn x ?_
      rcases List.mem_append.1 hx with hx | hx
      · rcases List.mem_append.1 hx with hx | hx
        · exact List.mem_append_left _ hx
        · rw [List.mem_singleton.1 hx]
          exact List.mem_append_right _ hev
      · exact List.mem_append_right _ (hothers x hx).1
    · rcases List.mem_append.1 hx with hx | hx
      · exact h.lined.later y (hothers y hy).1 x hx hb
      · rw [List.mem_singleton.1 hx] at hb
        exact absurd hb (hothers y hy).2
    · rcases List.mem_append.1 hx' with hx' | hx'
      · exact h.relayed.sent x' hx' hs
      · rw [List.mem_singleton.1 hx'] at hs
        exact absurd (h.lined.unsent ev hev) hs
  | rollback l₁ l₂ ev hl =>
    obtain ⟨hothers, hlocked⟩ := h.lined.others hl
    refine ⟨⟨⟨fun x hx => ?_, fun y hy => h.lined.later y (hothers y hy).1, hlocked,
      fun y hy => h.lined.unsent y (hothers y hy).1⟩, ⟨h.relayed.sent, h.relayed.source, h.relayed.ordered⟩⟩,
      ⟨(Goes.refl w).kept, (Goes.refl w).fresh, (Goes.refl w).log⟩⟩
    refine h.lined.drawn x ?_
    rcases List.mem_append.1 hx with hx | hx
    · exact List.mem_append_left _ hx
    · exact List.mem_append_right _ (hothers x hx).1

end OutboxWorld

/-! ## The transactions of the booking service -/

section Service

variable {loc : Location} {o : BookOp} {db db' : BookingDB} {r : o.Res}

theorem updateByID_outbox (id : String) (f : Booking → Booking) (now : Time) (ev : BookingEvent) (db : BookingDB) :
    (BookingRepo.updateByID id f (BookingRepo.insertOutbox now ev) db).2.outbox = db.outbox ∨
      (BookingRepo.updateByID id f (BookingRepo.insertOutbox now ev) db).2.outbox = (BookingRepo.insertOutbox now ev db).outbox ∧
        ∃ b, db.find id = some b := by
  rcases BookingRepo.updateByID_cases id f (BookingRepo.insertOutbox now ev) db with ⟨e, he⟩ | ⟨b, bookings, hb, -, he⟩
  · exact .inl (by rw [he])
  · exact .inr ⟨by rw [he]; rfl, b, hb⟩

/-- The event a statement adds to the outbox, and the booking it finds. -/
def BookOp.Announces (db : BookingDB) (ev : BookingEvent) : BookOp → Prop
  | .setPaymentAndStatus id _ _ _ e | .cancelWithEvent id e => ev = e ∧ ∃ b, db.find id = some b
  | .confirmPayment id pid subject => ∃ b now, db.find b.id = some b ∧ BookingRepo.confirmable id pid b = true ∧
      ev = newBookingEvent subject (BookingRepo.confirmRow now pid b)
  | _ => False

/-- A call adds one row to the outbox at most. -/
theorem BookOp.Exec.inserts (h : BookOp.Exec loc o db r db') :
    db'.outbox = db.outbox ∨
      ∃ now ev, db'.outbox = (BookingRepo.insertOutbox now ev db).outbox ∧ o.Announces db ev := by
  rcases h.state with rfl | ⟨env, -, hf, rfl⟩
  · exact .inl rfl
  cases o with
  | setPaymentAndStatus id pid url st ev =>
    simp only [run, hf, Fault.apply_none, BookingRepo.setPaymentAndStatus]
    split
    · exact .inl rfl
    · exact (updateByID_outbox id _ env.now ev db).imp_right fun h => ⟨env.now, ev, h.1, rfl, h.2⟩
  | cancelWithEvent id ev =>
    simp only [run, hf, Fault.apply_none, BookingRepo.cancelWithEvent]
    exact (updateByID_outbox id _ env.now ev db).imp_right fun h => ⟨env.now, ev, h.1, rfl, h.2⟩
  | confirmPayment id pid subject =>
    simp only [run, hf, Fault.apply_none]
    rcases BookingRepo.confirmPayment_cases env.now id pid subject db with he | ⟨bookings, b, -, hb, -, he⟩
    · exact .inl (by rw [he])
    · refine .inr ⟨env.now, newBookingEvent subject (BookingRepo.confirmRow env.now pid b), by rw [he]; rfl, b, env.now, ?_,
        (Table.get_mem hb).2, rfl⟩
      exact db.bookings.get_key (Table.get_mem hb).1 (by simp) fun x hx => by simpa [bookingSchema] using hx
  | updateStatus id st =>
    left
    simp only [run, hf, Fault.apply_none, BookingRepo.updateStatus]
    rcases BookingRepo.updateByID_cases id (fun b => { b with status := st, updatedAt := env.now }) (fun db => db) db with
      ⟨e, he⟩ | ⟨b, bookings, -, -, he⟩ <;> rw [he]
  | create b =>
    left
    simp only [run, hf, Fault.apply_none]
    unfold BookingRepo.create
    dsimp only
    split <;> rfl
  | delete id =>
    left
    simp only [run, hf, Fault.apply_none, BookingRepo.delete]
    split <;> rfl
  | autoCompleteVisitEnded =>
    left
    simp only [run, hf, Fault.apply_none, BookingRepo.autoCompleteVisitEnded, BookingRepo.updateAll]
    split <;> rfl
  | markCompletedEventSent id =>
    left
    simp only [run, hf, Fault.apply_none, BookingRepo.markCompletedEventSent, BookingRepo.updateAll]
    split
    · rfl
    · cases db.bookings.update _ _ <;> rfl
  | getVenue | checkSlotAvailability | reserveSlot | releaseSlot | createPayment | publishBookingCompleted | now | getByID |
      findUnpublishedCompleted | deleteOrphanPending | findExpiredPaymentPending =>
    left
    simp only [run, hf, Fault.apply_none, BookingRepo.deleteOrphanPending]

/-- **A call of the booking service writes the outbox as its transactions may**: it inserts a row and commits it. -/
theorem BookOp.Exec.writes (h : BookOp.Exec loc o db r db') {w : OutboxWorld} (ho : w.outbox = db.outbox) (hi : w.inserted = [])
    (hn : w.next ≤ nextSerial (db.outbox.map (·.id))) : ∃ next, next ≤ nextSerial (db'.outbox.map (·.id)) ∧
      Relation.ReflTransGen OutboxWorld.Writes w { w with outbox := db'.outbox, next := next } := by
  rcases h.inserts with hsame | ⟨now, ev, hrow, -⟩
  · refine ⟨w.next, by rw [hsame]; exact hn, ?_⟩
    rw [hsame, ← ho]
  · generalize hid : nextSerial (db.outbox.map (·.id)) = id at hn
    have hrow : db'.outbox = db.outbox ++ [{ ev with id := id, createdAt := now, sentAt := none }] := by
      rw [hrow, ← hid]
      rfl
    refine ⟨id + 1, ?_, ?_⟩
    · have : id < nextSerial (db'.outbox.map (·.id)) := lt_nextSerial (by rw [hrow]; simp)
      omega
    · have hins := OutboxWorld.Writes.insert w { ev with createdAt := now } id hn (by simp [hi])
      refine (Relation.ReflTransGen.single hins).tail ?_
      have hcom := OutboxWorld.Writes.commit { w with
        inserted := w.inserted ++ [{ ev with id := id, createdAt := now, sentAt := none }], next := id + 1 } [] []
        { ev with id := id, createdAt := now, sentAt := none } (by simp [hi])
      rw [hrow, ← ho]
      simpa only [hi, List.append_nil] using hcom

end Service

/-! ## The operations of a poll -/

namespace OutboxWorld

variable {w w' : OutboxWorld}

/-- What is left of a batch: its events are in the outbox, and the earlier ones of their bookings are published or come
before them. -/
def Queued (w : OutboxWorld) (events : List BookingEvent) : Prop :=
  ∀ l₁ ev l₂, events = l₁ ++ ev :: l₂ → (∃ x ∈ w.outbox, SameEvent x ev) ∧
    ∀ x ∈ w.outbox, x.payload.bookingID = ev.payload.bookingID → x.id < ev.id → w.Published x.id ∨ ∃ y ∈ l₁, y.id = x.id

theorem Queued.goes {events : List BookingEvent} (h : w.Queued events) (hg : w.Goes w') : w'.Queued events := by
  intro l₁ ev l₂ hl
  obtain ⟨⟨x, hx, hsame⟩, hearlier⟩ := h l₁ ev l₂ hl
  obtain ⟨x', hx', hsame', -⟩ := hg.kept x hx
  refine ⟨⟨x', hx', hsame'.trans hsame⟩, fun y' hy' hb hlt => ?_⟩
  rcases hg.fresh y' hy' with ⟨y, hy, hsame''⟩ | hnew
  · rw [← hsame''.1] at hlt ⊢
    exact (hearlier y hy (by rw [hsame''.2.2, hb]) hlt).imp_left hg.published
  · have := hnew x hx (by rw [hsame.2.2, hb])
    rw [hsame.1] at this
    omega

/-- **A batch is fetched in order**, from the events that are not marked. -/
theorem queued_fetch (h : w.Relayed) (limit : ℕ) : w.Queued (BookingRepo.fetchUnsentOutbox limit w.outbox) := by
  intro l₁ ev l₂ hl
  unfold BookingRepo.fetchUnsentOutbox at hl
  obtain ⟨b₁, b₂, hb, rfl, hb₂⟩ := List.map_eq_append_iff.1 hl
  obtain ⟨e, b₃, rfl, rfl, rfl⟩ := List.map_eq_cons_iff.1 hb₂
  generalize hS : (w.outbox.filter (·.sentAt.isNone)).mergeSort (fun a b => decide (a.id ≤ b.id)) = S at hb
  have hmem : ∀ x, x ∈ S ↔ x ∈ w.outbox ∧ x.sentAt = none := by
    intro x
    rw [← hS, List.mem_mergeSort, List.mem_filter, Option.isNone_iff_eq_none]
  have hsplit : S = b₁ ++ e :: (b₃ ++ S.drop limit) := by
    rw [← List.cons_append, ← List.append_assoc, ← hb, List.take_append_drop]
  have hsorted : S.Pairwise fun a b => a.id ≤ b.id := by
    rw [← hS]
    exact Rel.mergeSort_pairwise BookingEvent.id _
  refine ⟨⟨e, ((hmem e).1 (by rw [hsplit]; simp)).1, rfl, rfl, rfl⟩, fun x hx _ hlt => ?_⟩
  by_cases hs : x.sentAt = none
  · -- it is in the batch, before the event
    right
    have hxS : x ∈ S := (hmem x).2 ⟨hx, hs⟩
    rw [hsplit] at hxS hsorted
    rcases List.mem_append.1 hxS with hxS | hxS
    · exact ⟨_, List.mem_map_of_mem hxS, rfl⟩
    · exfalso
      have hlt : x.id < e.id := hlt
      rcases List.mem_cons.1 hxS with rfl | hxS
      · exact Int.lt_irrefl _ hlt
      · have := List.rel_of_pairwise_cons (List.pairwise_append.1 hsorted).2.1 hxS
        omega
  · exact .inl (h.sent x hx hs)

/-- **The first event of what is left of a batch is published**, if it is not yet, after the earlier ones of its booking. -/
theorem Good.publish (h : w.Good) {ev : BookingEvent} {events : List BookingEvent} (hq : w.Queued (ev :: events)) :
    { w with published := w.published ++ [ev] }.Good ∧ w.Goes { w with published := w.published ++ [ev] } ∧
      { w with published := w.published ++ [ev] }.Queued events := by
  have hg : w.Goes { w with published := w.published ++ [ev] } := ⟨(Goes.refl w).kept, (Goes.refl w).fresh, [ev], rfl⟩
  obtain ⟨hin, hearlier⟩ := hq [] ev events rfl
  refine ⟨⟨⟨h.lined.drawn, h.lined.later, h.lined.locked, h.lined.unsent⟩,
    ⟨fun x hx hs => hg.published (h.relayed.sent x hx hs), fun p hp => ?_, fun l₁ p l₂ hl hfirst x hx hb hlt => ?_⟩⟩, hg, ?_⟩
  · rcases List.mem_append.1 hp with hp | hp
    · exact h.relayed.source p hp
    · rw [List.mem_singleton.1 hp]
      exact hin
  · rcases List.eq_nil_or_concat l₂ with rfl | ⟨l₂', p', rfl⟩
    · obtain ⟨rfl, hp⟩ := List.append_inj' hl rfl
      cases hp
      rcases hearlier x hx hb hlt with ⟨q, hq, hi⟩ | ⟨y, hy, -⟩
      · exact ⟨q, hq, hi⟩
      · cases hy
    · rw [List.concat_eq_append, ← List.cons_append, ← List.append_assoc] at hl
      exact h.relayed.ordered l₁ p l₂' (List.append_inj' hl rfl).1 hfirst x hx hb hlt
  · intro l₁ e l₂ hl
    obtain ⟨hin, hearlier⟩ := hq (ev :: l₁) e l₂ (by rw [hl]; rfl)
    refine ⟨hin, fun x hx hb hlt => ?_⟩
    rcases hearlier x hx hb hlt with hp | ⟨y, hy, hi⟩
    · exact .inl (hg.published hp)
    · rcases List.mem_cons.1 hy with rfl | hy
      · exact .inl ⟨_, List.mem_append_right _ (List.mem_singleton.2 rfl), hi⟩
      · exact .inr ⟨y, hy, hi⟩

/-- **Marking published events** keeps the outbox. -/
theorem Good.mark (h : w.Good) (now : Time) {ids : List ℤ} (hids : ∀ i ∈ ids, w.Published i) :
    { w with outbox := BookingRepo.markOutboxSent now ids w.outbox }.Good ∧
      w.Goes { w with outbox := BookingRepo.markOutboxSent now ids w.outbox } := by
  have hrow : ∀ x, SameEvent (if x.id ∈ ids then { x with sentAt := some now } else x) x := by
    intro x
    split <;> exact ⟨rfl, rfl, rfl⟩
  have hof : ∀ x' ∈ BookingRepo.markOutboxSent now ids w.outbox, ∃ x ∈ w.outbox, SameEvent x x' ∧
      (x'.sentAt ≠ none → x.sentAt ≠ none ∨ x.id ∈ ids) := by
    intro x' hx'
    obtain ⟨x, hx, rfl⟩ := List.mem_map.1 hx'
    refine ⟨x, hx, (hrow x).symm, fun hs => ?_⟩
    by_cases hi : x.id ∈ ids
    · exact .inr hi
    · rw [if_neg hi] at hs
      exact .inl hs
  have hg : w.Goes { w with outbox := BookingRepo.markOutboxSent now ids w.outbox } := by
    refine ⟨fun x hx => ⟨_, List.mem_map_of_mem hx, hrow x, fun hs => ?_⟩, fun x' hx' => ?_, [], (List.append_nil _).symm⟩
    · split
      · simp
      · exact hs
    · obtain ⟨x, hx, hsame, -⟩ := hof x' hx'
      exact .inl ⟨x, hx, hsame⟩
  refine ⟨⟨⟨fun x' hx' => ?_, fun y hy x' hx' hb => ?_, h.lined.locked, h.lined.unsent⟩, h.relayed.grow hg rfl fun x' hx' hs => ?_⟩, hg⟩
  · rcases List.mem_append.1 hx' with hx' | hx'
    · obtain ⟨x, hx, hsame, -⟩ := hof x' hx'
      rw [← hsame.1]
      exact h.lined.drawn x (List.mem_append_left _ hx)
    · exact h.lined.drawn x' (List.mem_append_right _ hx')
  · obtain ⟨x, hx, hsame, -⟩ := hof x' hx'
    rw [← hsame.1]
    exact h.lined.later y hy x hx (by rw [hsame.2.2, hb])
  · obtain ⟨x, hx, hsame, hsent⟩ := hof x' hx'
    rw [← hsame.1]
    rcases hsent hs with hs | hi
    · exact h.relayed.sent x hx hs
    · exact hids _ hi

end OutboxWorld

/-! ## A poll in a pool -/

section Safe

open OutboxWorld

/-- A program that keeps the outbox whatever the others do. -/
abbrev PollSafe {α : Type} (Q : List (Event OutboxOp OutboxOp.Res) → α → OutboxWorld → Prop)
    (did : List (Event OutboxOp OutboxOp.Res)) (p : OutboxProg α) (w : OutboxWorld) : Prop :=
  p.Safe OutboxOp.Exec (fun _ _ _ => True) Good Goes Q did w

variable {w w' : OutboxWorld}

theorem OutboxOp.Exec.fetched {limit : ℕ} {r : Except Err (List BookingEvent)}
    (h : OutboxOp.Exec (.fetchUnsentOutbox limit) w r w') :
    w' = w ∧ ∀ events, r = .ok events → events = BookingRepo.fetchUnsentOutbox limit w.outbox := by
  obtain ⟨now, fault, he⟩ := h
  have hw : w' = (fault.apply Err.plain (effect now (fetchUnsentOutbox limit)) w).2 := (congrArg Prod.snd he).symm
  refine ⟨?_, fun events hr => ?_⟩
  · rcases fault.apply_state Err.plain (effect now (fetchUnsentOutbox limit)) w with hs | hs
    · exact hw.trans hs
    · exact hw.trans hs
  · subst hr
    have he := Fault.of_ok he
    simp only [effect, Prod.mk.injEq, Except.ok.injEq] at he
    exact he.1.symm

/-- A publication that reports success has taken place; one that fails may have. -/
theorem OutboxOp.Exec.published {ev : BookingEvent} {r : Except Err Unit} (h : OutboxOp.Exec (.publishRaw ev) w r w') :
    (w' = w ∧ r ≠ .ok ()) ∨ w' = { w with published := w.published ++ [ev] } := by
  obtain ⟨now, fault, he⟩ := h
  cases r with
  | ok u =>
    have he := Fault.of_ok he
    simp only [effect, Prod.mk.injEq] at he
    exact .inr he.2.symm
  | error e =>
    have hw : w' = (fault.apply Err.plain (effect now (publishRaw ev)) w).2 := (congrArg Prod.snd he).symm
    rcases fault.apply_state Err.plain (effect now (publishRaw ev)) w with hs | hs
    · exact .inl ⟨hw.trans hs, nofun⟩
    · exact .inr (hw.trans hs)

theorem OutboxOp.Exec.marked {ids : List ℤ} {r : Except Err Unit} (h : OutboxOp.Exec (.markOutboxSent ids) w r w') :
    w' = w ∨ ∃ now, w' = { w with outbox := BookingRepo.markOutboxSent now ids w.outbox } := by
  obtain ⟨now, fault, he⟩ := h
  have hw : w' = (fault.apply Err.plain (effect now (markOutboxSent ids)) w).2 := (congrArg Prod.snd he).symm
  rcases fault.apply_state Err.plain (effect now (markOutboxSent ids)) w with hs | hs
  · exact .inl (hw.trans hs)
  · exact .inr ⟨now, hw.trans hs⟩

/-- **The loop publishes in order**, and what it returns is published. -/
theorem publishEach_safe (events : List BookingEvent) :
    ∀ {did : List (Event OutboxOp OutboxOp.Res)} {w : OutboxWorld}, w.Queued events →
      PollSafe (fun _ sent w => ∀ i ∈ sent, w.Published i) did (publishEach events) w := by
  induction events with
  | nil => exact fun _ _ _ _ i hi => absurd hi (by simp)
  | cons ev events ih =>
    intro did w hq w₁ hg hI r w₂ he _
    rcases he.published with ⟨rfl, hr⟩ | rfl
    · -- the broker has not taken it
      refine ⟨hI, Goes.refl _, ?_⟩
      cases r with
      | ok u => exact absurd rfl hr
      | error e => exact fun _ _ _ i hi => absurd hi (by simp)
    · obtain ⟨hI', hg', hq'⟩ := hI.publish (hq.goes hg)
      refine ⟨hI', hg', ?_⟩
      cases r with
      | error e => exact fun _ _ _ i hi => absurd hi (by simp)
      | ok u =>
        have hev : OutboxWorld.Published { w₁ with published := w₁.published ++ [ev] } ev.id :=
          ⟨ev, List.mem_append_right _ (List.mem_singleton.2 rfl), rfl⟩
        change PollSafe _ _ ((publishEach events).bind _) _
        refine Prog.Safe.bind Goes.refl hI'
          ((Prog.Safe.frame (F := fun w => w.Published ev.id) (fun _ _ hp hg => Goes.published hg hp) hev (ih hq')).mono ?_)
        rintro did sent w - ⟨hev, hsent⟩ w' hg' - i hi
        rcases List.mem_cons.1 hi with rfl | hi
        · exact hg'.published hev
        · exact hg'.published (hsent i hi)

theorem processOutbox_safe (limit : ℕ) (w : OutboxWorld) : PollSafe (fun _ _ _ => True) [] (processOutbox limit) w := by
  intro w₁ hg hI r w₂ he _
  obtain ⟨rfl, hevents⟩ := he.fetched
  refine ⟨hI, Goes.refl _, ?_⟩
  cases r with
  | error err => exact fun _ _ _ => trivial
  | ok events =>
    have hq := queued_fetch hI.relayed limit
    rw [← hevents events rfl] at hq
    change PollSafe _ _ ((publishEach events).bind _) _
    refine Prog.Safe.bind Goes.refl hI ((publishEach_safe events hq).mono fun did sent w hI hsent => ?_)
    by_cases hs : sent = []
    · rw [if_pos hs]
      exact fun _ _ _ => trivial
    · rw [if_neg hs]
      intro w₃ hg₃ hI₃ r w₄ he _
      have hsent : ∀ i ∈ sent, w₃.Published i := fun i hi => hg₃.published (hsent i hi)
      rcases he.marked with rfl | ⟨now, rfl⟩
      · refine ⟨hI₃, Goes.refl _, ?_⟩
        cases r <;> exact fun _ _ _ => trivial
      · obtain ⟨hI₄, hg₄⟩ := hI₃.mark now hsent
        refine ⟨hI₄, hg₄, ?_⟩
        cases r <;> exact fun _ _ _ => trivial

end Safe

/-! ## Runs -/

theorem OutboxWorld.empty_good : OutboxWorld.empty.Good := by
  refine ⟨⟨?_, ?_, ?_, ?_⟩, ?_, ?_, ?_⟩ <;> simp [OutboxWorld.empty]

/-- **Whatever the polls have done and however they have failed**, only published events are marked, and the events of a
booking are first published in their order, none left out. -/
theorem relayed_in_order {c : Config OutboxWorld ℕ OutboxOp OutboxOp.Res (ℕ × Option Err)}
    (h : outboxSys.Reach anyStep .empty c) : c.world.Relayed :=
  (h.safe (fun _ _ _ _ => True) (fun _ _ _ _ _ => trivial) OutboxWorld.Goes.refl (fun _ _ _ => OutboxWorld.Goes.trans)
    OutboxWorld.empty_good (fun limit w _ _ _ => processOutbox_safe limit w) fun _ _ hI he => hI.writes he).1.relayed

def sampleSent (id : ℤ) (subject : BookingSubject) : BookingEvent where
  id := id
  subject := subject
  payload := ⟨"00000000-0000-0000-0000-00000000000b", "", "", "", 0, "", 0⟩

/-- A booking is created, its event is published but the mark is lost, and the booking is confirmed. -/
theorem relayed_in_order_sample : ∃ c, outboxSys.Reach anyStep .empty c ∧
    c.world = ⟨[sampleSent 1 .created, sampleSent 2 .confirmed], [], 3, [sampleSent 1 .created]⟩ ∧ c.world.Relayed := by
  have hfetch : OutboxOp.Exec (.fetchUnsentOutbox 100) ⟨[sampleSent 1 .created], [], 2, []⟩ (.ok [sampleSent 1 .created])
      ⟨[sampleSent 1 .created], [], 2, []⟩ := ⟨0, .none, by simp [OutboxOp.run, OutboxOp.effect, BookingRepo.fetchUnsentOutbox, sampleSent]⟩
  have hpublish : OutboxOp.Exec (.publishRaw (sampleSent 1 .created)) ⟨[sampleSent 1 .created], [], 2, []⟩ (.ok ())
      ⟨[sampleSent 1 .created], [], 2, [sampleSent 1 .created]⟩ := ⟨0, .none, rfl⟩
  have hmark : OutboxOp.Exec (.markOutboxSent [1]) ⟨[sampleSent 1 .created], [], 2, [sampleSent 1 .created]⟩
      (.error (.plain "conn closed")) ⟨[sampleSent 1 .created], [], 2, [sampleSent 1 .created]⟩ :=
    ⟨0, .before "conn closed", rfl⟩
  have h : outboxSys.Reach anyStep .empty ⟨.empty, []⟩ := .init
  have h := h.step (.env _ _ _ (OutboxWorld.Writes.insert .empty (sampleSent 0 .created) 1 (by decide) (by simp [OutboxWorld.empty])))
  have h := h.step (.env _ _ _ (OutboxWorld.Writes.commit _ [] [] (sampleSent 1 .created) rfl))
  have h := h.step (.start _ _ 100 trivial)
  have h := h.step (.perform _ _ [] [] _ _ _ _ _ hfetch trivial)
  have h := h.step (.perform _ _ [] [] _ _ _ _ _ hpublish trivial)
  have h := h.step (.perform _ _ [] [] _ _ _ _ _ hmark trivial)
  have h := h.step (.env _ _ _ (OutboxWorld.Writes.insert _ (sampleSent 0 .confirmed) 2 (by decide) (by simp)))
  have h := h.step (.env _ _ _ (OutboxWorld.Writes.commit _ [] [] (sampleSent 2 .confirmed) rfl))
  exact ⟨_, h, rfl, relayed_in_order h⟩

end Agregator
