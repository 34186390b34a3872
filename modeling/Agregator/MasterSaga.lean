import Agregator.ConcTrace
import Agregator.MasterUsecase
/-!
# MasterSaga — a master's booking and its payment

Creations of bookings, the payments they ask for, and the deliveries of the events of these payments, in any order and any
number of times.  A delivery that finds its booking where it cannot move it is acknowledged all the same, and a creation may
delete a booking that has been paid; where neither happens, a payment and its booking agree once every event has been
acknowledged (`masterAgrees`).
-/
namespace Agregator

open Rel Conc

/-! ## The services -/

/-- A payment as its service keeps it. -/
structure MasterPayment where
  id : String
  bookingID : String
  status : PaymentStatus
deriving DecidableEq, Repr

/-- A message of the broker. -/
structure PaymentMessage where
  subject : OutboxSubject
  payload : PaymentEventPayload
deriving DecidableEq, Repr

def MasterPayment.completed (p : MasterPayment) : PaymentMessage :=
  ⟨.paymentCompleted, ⟨p.id, p.bookingID, MasterSubscriber.paymentStatusCompleted⟩⟩

def MasterPayment.failed (p : MasterPayment) : PaymentMessage :=
  ⟨.paymentFailed, ⟨p.id, p.bookingID, MasterSubscriber.paymentStatusFailed⟩⟩

/-- The bookings, the keys that were drawn, the payments and what their service has published. -/
structure MasterWorld where
  db : MasterDB
  issued : List String
  payments : List MasterPayment
  events : List PaymentMessage

/-- What the environment has in store for an operation: the time, the key that is drawn, the answers of the other tables,
whether the statement or the request is lost, and the payment that is made. -/
structure MasterEnv where
  now : Time
  newID : String
  getBySlug : Except MasterErr (Option Master)
  hasSlotBlockConflict : Except MasterErr Bool
  payment : CreatedPayment
  fault : Fault Err

/-- A statement on the bookings. -/
def onMasterBookings {α : Type} (f : MasterDB → Except MasterErr α × MasterDB) (w : MasterWorld) :
    Except MasterErr α × MasterWorld :=
  ((f w.db).1, { w with db := (f w.db).2 })

namespace MasterOp

def run (env : MasterEnv) : (o : MasterOp) → MasterWorld → o.Res × MasterWorld
  | now, w => (env.now, w)
  | newUUID, w => (env.newID, { w with issued := env.newID :: w.issued })
  | getBySlug _, w => (env.getBySlug, w)
  | hasSlotBlockConflict _ _ _ _, w => (env.hasSlotBlockConflict, w)
  | createPayment req, w => env.fault.apply .other
      (fun w => (.ok env.payment, { w with payments := w.payments ++ [⟨env.payment.id, req.bookingID, .pending⟩] })) w
  | insertBooking b, w => env.fault.apply .other (onMasterBookings (MasterRepo.insertBooking env.now b)) w
  | deleteBooking i, w => env.fault.apply .other (onMasterBookings (MasterRepo.deleteBooking i)) w
  | setBookingPayment i pid url price st, w =>
      env.fault.apply .other (onMasterBookings (MasterRepo.setBookingPayment i pid url price st)) w
  | getBookingByID i, w => env.fault.apply .other (onMasterBookings fun db => (MasterRepo.getBookingByID i db, db)) w
  | updateByPayment target i pid, w => env.fault.apply .other (onMasterBookings (MasterRepo.updateByPayment target i pid)) w
  | selectPayment i, w => env.fault.apply .other (onMasterBookings fun db => (MasterRepo.selectPayment i db, db)) w

/-- The keys that are drawn are UUIDs not drawn before. -/
def Exec (o : MasterOp) (w : MasterWorld) (r : o.Res) (w' : MasterWorld) : Prop :=
  ∃ env : MasterEnv, isUUID env.newID = true ∧ env.newID ∉ w.issued ∧ isUUID env.payment.id = true ∧
    (∀ p ∈ w.payments, p.id ≠ env.payment.id) ∧ o.run env w = (r, w')

end MasterOp

/-- A payment leaves pending once, with an event, and may be refunded after it has succeeded. -/
inductive MasterWorld.Settles : MasterWorld → MasterWorld → Prop where
  | succeed (w : MasterWorld) (l₁ l₂ : List MasterPayment) (p : MasterPayment) : w.payments = l₁ ++ p :: l₂ →
      p.status = .pending →
      Settles w { w with payments := l₁ ++ { p with status := .succeeded } :: l₂, events := w.events ++ [p.completed] }
  | fail (w : MasterWorld) (l₁ l₂ : List MasterPayment) (p : MasterPayment) : w.payments = l₁ ++ p :: l₂ →
      p.status = .pending →
      Settles w { w with payments := l₁ ++ { p with status := .cancelled } :: l₂, events := w.events ++ [p.failed] }
  | refund (w : MasterWorld) (l₁ l₂ : List MasterPayment) (p : MasterPayment) : w.payments = l₁ ++ p :: l₂ →
      p.status = .succeeded →
      Settles w { w with payments := l₁ ++ { p with status := .refunded } :: l₂ }

inductive MasterCall where
  | createBooking (inp : CreateMasterBookingInput)
  | paymentCompleted (evt : PaymentEventPayload)
  | paymentFailed (evt : PaymentEventPayload)
deriving DecidableEq

def masterSubscriber : MasterSubscriber := ⟨confirmBookingByPayment, cancelBookingByPayment⟩

namespace MasterCall

/-- A delivery returns its answer. -/
def prog (uc : MasterUseCase) : MasterCall → MasterProg (Option Answer)
  | createBooking inp => do let _ ← uc.createBooking inp; return none
  | paymentCompleted evt => return some (← masterSubscriber.handlePaymentCompleted (some evt))
  | paymentFailed evt => return some (← masterSubscriber.handlePaymentFailed (some evt))

/-- What is published is delivered, any number of times. -/
def ready (c : MasterCall) (w : MasterWorld) : Prop :=
  match c with
  | createBooking _ => True
  | paymentCompleted evt => ⟨.paymentCompleted, evt⟩ ∈ w.events
  | paymentFailed evt => ⟨.paymentFailed, evt⟩ ∈ w.events

/-- The status a delivery is to bring about. -/
def target : MasterCall → Option BookingStatus
  | createBooking _ => none
  | paymentCompleted _ => some .confirmed
  | paymentFailed _ => some .cancelled

end MasterCall

def masterSys (uc : MasterUseCase) : Sys MasterWorld MasterCall MasterOp MasterOp.Res (Option Answer) where
  prog := MasterCall.prog uc
  ready := MasterCall.ready
  exec := MasterOp.Exec
  env := MasterWorld.Settles

abbrev MasterThread := Thread MasterCall MasterOp MasterOp.Res (Option Answer)

abbrev MasterConfig := Config MasterWorld MasterCall MasterOp MasterOp.Res (Option Answer)

/-! ## What is to hold, and when -/

/-- Some delivery of every event has been acknowledged. -/
def Acknowledged (c : MasterConfig) : Prop :=
  ∀ ev ∈ c.world.events, ∃ t ∈ c.threads, t.rest = .ret (some .ack) ∧
    ((ev.subject = .paymentCompleted ∧ t.call = .paymentCompleted ev.payload) ∨
      (ev.subject = .paymentFailed ∧ t.call = .paymentFailed ev.payload))

/-- The booking of a payment that has succeeded, and is not refunded, is confirmed, and that of one that has failed is
cancelled. -/
structure MasterWorld.Agrees (w : MasterWorld) : Prop where
  succeeded : ∀ p ∈ w.payments, p.status = .succeeded → w.db.statusOf p.bookingID = some .confirmed
  failed : ∀ p ∈ w.payments, p.status = .cancelled → w.db.statusOf p.bookingID = some .cancelled

/-- A delivery that looks up why it has met no row finds no booking or one it has nothing to do for, and a booking is not
deleted once it is confirmed or cancelled. -/
def SagaStep (c : MasterConfig) (t : MasterThread) : (o : MasterOp) → o.Res → Prop
  | .selectPayment id, .ok _ => ∀ b, c.world.db.find id = some b → t.call.target = some b.status
  | .deleteBooking id, _ => ∀ b, c.world.db.find id = some b → b.status = .pending ∨ b.status = .paymentPending
  | _, _ => True

/-- Before the run there are no payments, and the keys of the bookings have been drawn. -/
structure MasterWorld.Opening (w : MasterWorld) : Prop where
  keys : ∀ i b, w.db.find i = some b → i ∈ w.issued
  payments : w.payments = []
  events : w.events = []

/-! ## One operation -/

theorem MasterDB.find_id {db : MasterDB} {i : String} {b : MasterBooking} (h : db.find i = some b) : b.id = i := by
  simpa using (Table.get_mem h).2

theorem MasterRepo.setBookingPayment_db (j pid url : String) (price : ℤ) (st : BookingStatus) (db : MasterDB) :
    (MasterRepo.setBookingPayment j pid url price st db).2 = (MasterRepo.updateRows (·.id == j) (fun b => { b with
      paymentID := trimSpace pid, paymentURL := trimSpace url, totalPrice := price, status := st }) db).2 := by
  unfold MasterRepo.setBookingPayment
  dsimp only
  split <;> rename_i h <;> rw [h]

/-- An update that keeps the keys changes the row of a key, or not. -/
theorem MasterRepo.updateRows_find {p : MasterBooking → Bool} {f : MasterBooking → MasterBooking} (hf : ∀ b, (f b).id = b.id)
    (db : MasterDB) (i : String) : (MasterRepo.updateRows p f db).2.find i = db.find i ∨
      ∃ b, db.find i = some b ∧ p b = true ∧ (MasterRepo.updateRows p f db).2.find i = some (f b) := by
  unfold MasterRepo.updateRows
  split
  · exact .inl rfl
  · rename_i db' hu
    have hget : MasterDB.find db' i = (db.find i).map fun b => if p b then f b else b :=
      Table.get_update hu fun b => by rw [hf]
    dsimp only
    rw [hget]
    cases hb : db.find i with
    | none => exact .inl rfl
    | some b =>
      by_cases hp : p b = true
      · exact .inr ⟨b, rfl, hp, by rw [Option.map_some, if_pos hp]⟩
      · exact .inl (by rw [Option.map_some, if_neg hp])

/-- What an operation may make of the status of a booking. -/
inductive StatusStep (o : MasterOp) (i : String) : Option BookingStatus → Option BookingStatus → Prop
  | same (x : Option BookingStatus) : StatusStep o i x x
  | insert (b : MasterBooking) : o = .insertBooking b → b.id = i → StatusStep o i none (some b.status)
  | delete (s : BookingStatus) : o = .deleteBooking i → StatusStep o i (some s) none
  | pay (s st : BookingStatus) (pid url : String) (price : ℤ) : o = .setBookingPayment i pid url price st →
      StatusStep o i (some s) (some st)
  | move (target : BookingStatus) (pid : String) : o = .updateByPayment target i pid →
      StatusStep o i (some .paymentPending) (some target)

namespace MasterOp

variable {o : MasterOp} {w w' : MasterWorld} {r : o.Res}

/-- A statement under a fault leaves the bookings as they were, or as it makes them. -/
theorem onMasterBookings_db {α : Type} (fault : Fault Err) (f : MasterDB → Except MasterErr α × MasterDB)
    (w : MasterWorld) : (fault.apply .other (onMasterBookings f) w).2 = w ∨
      (fault.apply .other (onMasterBookings f) w).2 = { w with db := (f w.db).2 } :=
  fault.apply_state .other (onMasterBookings f) w

theorem createPayment_db (env : MasterEnv) (req : CreatePaymentRequest) (w : MasterWorld) :
    ((MasterOp.createPayment req).run env w).2.db = w.db := by
  rcases env.fault.apply_state .other (fun w : MasterWorld => ((.ok env.payment : Except MasterErr CreatedPayment),
    { w with payments := w.payments ++ [⟨env.payment.id, req.bookingID, .pending⟩] })) w with h | h
  · exact congrArg MasterWorld.db h
  · exact (congrArg MasterWorld.db h).trans rfl

/-- **What an operation makes of the status of a booking.** -/
theorem run_status (env : MasterEnv) (o : MasterOp) (w : MasterWorld) (i : String) :
    StatusStep o i (w.db.statusOf i) ((o.run env w).2.db.statusOf i) := by
  have hquiet : ∀ {w' : MasterWorld}, w'.db = w.db → StatusStep o i (w.db.statusOf i) (w'.db.statusOf i) := by
    intro w' h
    rw [h]
    exact .same _
  -- a statement on the bookings: nothing, or what it does
  have hstmt : ∀ {α : Type} (f : MasterDB → Except MasterErr α × MasterDB),
      StatusStep o i (w.db.statusOf i) ((f w.db).2.statusOf i) →
      StatusStep o i (w.db.statusOf i) ((env.fault.apply .other (onMasterBookings f) w).2.db.statusOf i) := by
    intro α f hf
    rcases onMasterBookings_db env.fault f w with h | h <;> rw [h]
    · exact .same _
    · exact hf
  cases o with
  | now | newUUID | getBySlug | hasSlotBlockConflict => exact hquiet rfl
  | createPayment req => exact hquiet (createPayment_db env req w)
  | getBookingByID j => exact hstmt _ (.same _)
  | selectPayment j => exact hstmt _ (.same _)
  | insertBooking b =>
    refine hstmt _ ?_
    unfold MasterRepo.insertBooking
    split
    · rename_i db' hi
      dsimp only
      unfold MasterDB.statusOf MasterDB.find
      rw [Table.get_insert hi]
      cases hb : w.db.get (·.id == i) with
      | some b' => exact .same _
      | none =>
        rw [Option.none_or]
        by_cases hid : b.id = i
        · simp only [hid, beq_self_eq_true, if_true]
          exact .insert b rfl hid
        · simp only [beq_iff_eq, hid, if_false]
          exact .same _
    · exact .same _
    · exact .same _
  | deleteBooking j =>
    refine hstmt _ ?_
    unfold MasterRepo.deleteBooking MasterDB.statusOf MasterDB.find
    dsimp only
    rw [Table.get_delete]
    · cases hb : w.db.get (·.id == i) with
      | none => exact .same _
      | some b =>
        have hid : b.id = i := by simpa using (Table.get_mem hb).2
        rw [Option.bind_some]
        by_cases hj : b.id = j
        · rw [if_pos (by simp [hj])]
          exact .delete b.status (by rw [← hj, hid])
        · rw [if_neg (by simp [hj])]
          exact .same _
    · intro a b ha hb
      have ha : a.id = i := by simpa using ha
      have hb : b.id = i := by simpa using hb
      simp [masterBookingSchema, ha, hb]
  | setBookingPayment j pid url price st =>
    refine hstmt _ ?_
    have hrow := MasterRepo.updateRows_find (p := (·.id == j)) (f := fun b => { b with
      paymentID := trimSpace pid, paymentURL := trimSpace url, totalPrice := price, status := st }) (fun _ => rfl) w.db i
    rw [MasterRepo.setBookingPayment_db]
    unfold MasterDB.statusOf
    rcases hrow with h | ⟨b, hb, hp, h⟩
    · rw [h]
      exact .same _
    · rw [h, hb]
      have hj : i = j := by rw [← MasterDB.find_id hb]; simpa using hp
      exact .pay b.status st pid url price (by rw [hj])
  | updateByPayment target j pid =>
    refine hstmt _ ?_
    unfold MasterRepo.updateByPayment MasterDB.statusOf
    rcases MasterRepo.updateRows_find (p := MasterRepo.awaits j pid)
      (f := fun b => { b with status := target, paymentID := pid }) (fun _ => rfl) w.db i with h | ⟨b, hb, hp, h⟩
    · rw [h]
      exact .same _
    · rw [h, hb]
      simp only [MasterRepo.awaits, Bool.and_eq_true, beq_iff_eq] at hp
      have hj : i = j := by rw [← MasterDB.find_id hb, hp.1.1]
      rw [Option.map_some, Option.map_some, hp.1.2]
      exact .move target pid (by rw [hj])

theorem Exec.status (h : MasterOp.Exec o w r w') (i : String) :
    StatusStep o i (w.db.statusOf i) (w'.db.statusOf i) := by
  obtain ⟨env, -, -, -, -, he⟩ := h
  have := run_status env o w i
  rwa [he] at this

end MasterOp

/-! ## What the programs do -/

section Programs

-- a text that is trimmed is not to be computed when a program is unfolded
attribute [local irreducible] trimSpace

/-- Whether an operation writes the payment of a booking on its row. -/
def MasterOp.pays : MasterOp → Bool
  | .setBookingPayment _ _ _ _ _ => true
  | _ => false

/-- The statuses a payment brings a booking to. -/
def PaidOff (s : BookingStatus) : Prop := s = .confirmed ∨ s = .cancelled

/-- What a call has behind it before an operation. -/
def SagaPrior (h : List (Event MasterOp MasterOp.Res)) : MasterOp → Prop
  | .insertBooking b => b.status = .pending
  | .createPayment req => ⟨.newUUID, req.bookingID⟩ ∈ h
  | .setBookingPayment i _ _ _ _ => ⟨.newUUID, i⟩ ∈ h ∧ ∀ e ∈ h, e.1.pays = false
  | .updateByPayment target _ _ => PaidOff target
  | _ => True

theorem MasterUseCase.storeBooking_prior (uc : MasterUseCase) {b : MasterBooking} (hb : b.status = .pending)
    {h : List (Event MasterOp MasterOp.Res)} (hid : ⟨.newUUID, b.id⟩ ∈ h) (hpays : ∀ e ∈ h, e.1.pays = false) :
    (uc.storeBooking b).After SagaPrior h := by
  simp only [MasterUseCase.storeBooking, Prog.bind_eq, Prog.perform_bind, Prog.pure_eq]
  refine ⟨hb, fun r => ?_⟩
  cases r with
  | error err => cases err <;> trivial
  | ok u =>
    refine ⟨List.mem_append_left _ hid, fun r => ?_⟩
    cases r with
    | error err => exact ⟨trivial, fun _ => trivial⟩
    | ok pay =>
      refine ⟨⟨List.mem_append_left _ (List.mem_append_left _ hid), ?_⟩, fun r => ?_⟩
      · simp only [List.mem_append, List.mem_singleton]
        rintro e ((he | rfl) | rfl)
        · exact hpays e he
        · rfl
        · rfl
      · cases r with
        | error err => exact ⟨trivial, fun _ => trivial⟩
        | ok u =>
          refine ⟨trivial, fun r => ?_⟩
          cases r <;> trivial

theorem MasterUseCase.createBooking_prior (uc : MasterUseCase) (inp : CreateMasterBookingInput) :
    (uc.createBooking inp).After SagaPrior [] := by
  simp only [MasterUseCase.createBooking, Prog.bind_eq, Prog.perform_bind, Prog.pure_eq]
  split
  · trivial
  refine ⟨trivial, fun r => ?_⟩
  cases r with
  | error err => trivial
  | ok m =>
    cases m with
    | none => trivial
    | some m =>
      dsimp only
      split
      · trivial
      split
      · trivial
      refine ⟨trivial, fun now => ?_⟩
      dsimp only
      split
      · trivial
      refine ⟨trivial, fun r => ?_⟩
      cases r with
      | error err => trivial
      | ok conflict =>
        cases conflict with
        | true => trivial
        | false =>
          refine ⟨trivial, fun id => uc.storeBooking_prior rfl ?_ ?_⟩
          · exact List.mem_append_right _ (List.mem_singleton.2 rfl)
          · simp only [List.mem_append, List.mem_singleton, List.not_mem_nil, false_or]
            rintro e (((rfl | rfl) | rfl) | rfl) <;> rfl

theorem handlePayment_prior {move : String → String → MasterProg (Option MasterErr)} {expected : String}
    (hmove : ∀ b p, (move b p).After SagaPrior []) (data : Option PaymentEventPayload) :
    (MasterSubscriber.handlePayment expected move data).After SagaPrior [] := by
  unfold MasterSubscriber.handlePayment
  cases data with
  | none => trivial
  | some evt =>
    dsimp only
    split
    · trivial
    split
    · trivial
    exact Prog.After.bind (fun _ r => by cases r <;> trivial) (hmove _ _)

theorem moveByPayment_prior {target : BookingStatus} (ht : PaidOff target) (bookingID paymentID : String) :
    (moveByPayment target bookingID paymentID).After SagaPrior [] := by
  unfold moveByPayment
  dsimp only
  split
  · trivial
  simp only [Prog.bind_eq, Prog.perform_bind, Prog.pure_eq, classifyBookingPaymentNoOp]
  refine ⟨ht, fun r => ?_⟩
  cases r with
  | error err => trivial
  | ok found =>
    cases found with
    | true => trivial
    | false =>
      refine ⟨trivial, fun r => ?_⟩
      cases r with
      | error err => trivial
      | ok x =>
        cases x with
        | none => trivial
        | some x =>
          dsimp only
          split
          · trivial
          split <;> trivial

theorem MasterCall.prog_prior (uc : MasterUseCase) (c : MasterCall) : (c.prog uc).After SagaPrior [] := by
  cases c with
  | createBooking inp =>
    simp only [MasterCall.prog, Prog.bind_eq]
    exact Prog.After.bind (fun _ _ => by trivial) (uc.createBooking_prior inp)
  | paymentCompleted evt =>
    simp only [MasterCall.prog, Prog.bind_eq]
    exact Prog.After.bind (fun _ _ => by trivial) (handlePayment_prior (moveByPayment_prior (.inl rfl)) (some evt))
  | paymentFailed evt =>
    simp only [MasterCall.prog, Prog.bind_eq]
    exact Prog.After.bind (fun _ _ => by trivial) (handlePayment_prior (moveByPayment_prior (.inr rfl)) (some evt))

/-- An error that has been acknowledged. -/
def Refused : Event MasterOp MasterOp.Res → Prop
  | ⟨.updateByPayment _ _ _, .error err⟩ | ⟨.selectPayment _, .error err⟩ => err.answer = .ack
  | _ => False

/-- What a delivery has done when it acknowledges an event that can be read: it has moved the booking, or has looked it up
and has found it. -/
def Moved (target : BookingStatus) (bookingID : String) (h : List (Event MasterOp MasterOp.Res)) : Prop :=
  (∃ pid, ⟨.updateByPayment target bookingID pid, .ok true⟩ ∈ h) ∨ ∃ x, ⟨.selectPayment bookingID, .ok (some x)⟩ ∈ h

theorem handlePayment_ends (target : BookingStatus) (expected : String) (evt : PaymentEventPayload)
    (hstatus : evt.status = expected) (hb : isUUID evt.bookingID = true) (hp : evt.paymentID ≠ "") :
    (MasterSubscriber.handlePayment expected (moveByPayment target) (some evt)).Ends
      (fun h a => a = .ack → Moved target evt.bookingID h ∨ ∃ e ∈ h, Refused e) [] := by
  unfold MasterSubscriber.handlePayment
  dsimp only
  rw [if_neg (fun h => h hstatus), if_neg (fun h => h.elim (ne_empty_of_isUUID hb) hp)]
  unfold moveByPayment
  dsimp only
  rw [trimSpace_of_isUUID hb, if_neg (by simp [hb])]
  simp only [Prog.bind_eq, Prog.perform_bind, Prog.pure_eq, Prog.bind_call]
  intro r
  cases r with
  | error err => exact fun h => .inr ⟨_, List.mem_singleton.2 rfl, h⟩
  | ok found =>
    cases found with
    | true => exact fun _ => .inl (.inl ⟨_, List.mem_singleton.2 rfl⟩)
    | false =>
      simp only [classifyBookingPaymentNoOp, Prog.bind_eq, Prog.perform_bind, Prog.pure_eq, Prog.bind_call]
      intro r
      cases r with
      | error err => exact fun h => .inr ⟨_, List.mem_append_right _ (List.mem_singleton.2 rfl), h⟩
      | ok x =>
        cases x with
        | none => exact nofun
        | some x =>
          dsimp only
          have hsel : Moved target evt.bookingID ([⟨.updateByPayment target evt.bookingID (trimSpace evt.paymentID), .ok false⟩] ++
              [⟨.selectPayment evt.bookingID, .ok (some x)⟩]) := .inr ⟨x, by simp⟩
          split
          · exact fun _ => .inl hsel
          · split <;> exact fun _ => .inl hsel

theorem MasterCall.prog_ends (uc : MasterUseCase) (c : MasterCall) (expected : String) (target : BookingStatus)
    (evt : PaymentEventPayload) (hc : (c, expected, target) = (.paymentCompleted evt, "completed", .confirmed) ∨
      (c, expected, target) = (.paymentFailed evt, "failed", .cancelled)) (hstatus : evt.status = expected)
    (hb : isUUID evt.bookingID = true) (hp : evt.paymentID ≠ "") :
    (c.prog uc).Ends (fun h a => a = some .ack → Moved target evt.bookingID h ∨ ∃ e ∈ h, Refused e) [] := by
  have hend := handlePayment_ends target expected evt hstatus hb hp
  rcases hc with hc | hc <;> cases hc <;> simp only [MasterCall.prog, Prog.bind_eq]
  all_goals
    refine Prog.Ends.bind (hend.mono fun h a hq => ?_)
    exact fun hack => hq (Option.some.inj hack)

end Programs

/-! ## What has been settled stays -/

/-- What the services keep: a payment that is no longer pending has an event. -/
structure SagaInv (w₀ w : MasterWorld) : Prop where
  issued : ∀ k ∈ w₀.issued, k ∈ w.issued
  keys : ∀ p ∈ w.payments, isUUID p.bookingID = true ∧ isUUID p.id = true
  succeeded : ∀ p ∈ w.payments, p.status = .succeeded → p.completed ∈ w.events
  failed : ∀ p ∈ w.payments, p.status = .cancelled → p.failed ∈ w.events

structure SagaLasts (w w' : MasterWorld) : Prop where
  events : ∀ ev ∈ w.events, ev ∈ w'.events
  settled : ∀ i s, PaidOff s → w.db.statusOf i = some s → w'.db.statusOf i = some s

/-- What an answer tells. -/
def SagaTold (w₀ w : MasterWorld) : Event MasterOp MasterOp.Res → Prop
  | ⟨.newUUID, r⟩ => isUUID r = true ∧ r ∉ w₀.issued
  | ⟨.updateByPayment target i _, .ok true⟩ => PaidOff target → w.db.statusOf i = some target
  | ⟨.selectPayment i, .ok (some x)⟩ => PaidOff x.1 → w.db.statusOf i = some x.1
  | _ => True

theorem SagaTold.lasts {w₀ w w' : MasterWorld} (h : SagaLasts w w') :
    ∀ {e : Event MasterOp MasterOp.Res}, SagaTold w₀ w e → SagaTold w₀ w' e
  | ⟨.newUUID, _⟩, ht => ht
  | ⟨.updateByPayment _ _ _, .ok true⟩, ht => fun hs => h.settled _ _ hs (ht hs)
  | ⟨.selectPayment _, .ok (some _)⟩, ht => fun hs => h.settled _ _ hs (ht hs)
  | ⟨.updateByPayment _ _ _, .ok false⟩, _ | ⟨.updateByPayment _ _ _, .error _⟩, _ | ⟨.selectPayment _, .ok none⟩, _
  | ⟨.selectPayment _, .error _⟩, _ | ⟨.now, _⟩, _ | ⟨.getBySlug _, _⟩, _ | ⟨.hasSlotBlockConflict _ _ _ _, _⟩, _
  | ⟨.createPayment _, _⟩, _ | ⟨.insertBooking _, _⟩, _ | ⟨.deleteBooking _, _⟩, _ | ⟨.setBookingPayment _ _ _ _ _, _⟩, _
  | ⟨.getBookingByID _, _⟩, _ => trivial

namespace MasterOp

variable {o : MasterOp} {w w' : MasterWorld} {r : o.Res}

/-- What an operation makes of the keys, the payments and the events. -/
theorem run_rest (env : MasterEnv) (o : MasterOp) (w : MasterWorld) :
    (o.run env w).2.events = w.events ∧ (∀ k ∈ w.issued, k ∈ (o.run env w).2.issued) ∧
      ((o.run env w).2.payments = w.payments ∨ ∃ req, o = .createPayment req ∧
        (o.run env w).2.payments = w.payments ++ [⟨env.payment.id, req.bookingID, .pending⟩]) := by
  have hstmt : ∀ {α : Type} (f : MasterDB → Except MasterErr α × MasterDB),
      (env.fault.apply .other (onMasterBookings f) w).2.events = w.events ∧
      (∀ k ∈ w.issued, k ∈ (env.fault.apply .other (onMasterBookings f) w).2.issued) ∧
      (env.fault.apply .other (onMasterBookings f) w).2.payments = w.payments := by
    intro α f
    rcases onMasterBookings_db env.fault f w with h | h <;> rw [h] <;> exact ⟨rfl, fun _ hk => hk, rfl⟩
  cases o with
  | now | getBySlug | hasSlotBlockConflict => exact ⟨rfl, fun _ hk => hk, .inl rfl⟩
  | newUUID => exact ⟨rfl, fun _ hk => List.mem_cons_of_mem _ hk, .inl rfl⟩
  | createPayment req =>
    rcases env.fault.apply_state .other (fun w : MasterWorld => ((.ok env.payment : Except MasterErr CreatedPayment),
      { w with payments := w.payments ++ [⟨env.payment.id, req.bookingID, .pending⟩] })) w with h | h
    · have h : (run env (.createPayment req) w).2 = w := h
      rw [h]
      exact ⟨rfl, fun _ hk => hk, .inl rfl⟩
    · have h : (run env (.createPayment req) w).2 =
        { w with payments := w.payments ++ [⟨env.payment.id, req.bookingID, .pending⟩] } := h
      rw [h]
      exact ⟨rfl, fun _ hk => hk, .inr ⟨req, rfl, rfl⟩⟩
  | insertBooking | deleteBooking | setBookingPayment | getBookingByID | updateByPayment | selectPayment =>
    obtain ⟨h1, h2, h3⟩ := hstmt _
    exact ⟨h1, h2, .inl h3⟩

/-- An update that has met a row has moved the booking. -/
theorem Exec.moved {target : BookingStatus} {i pid : String}
    (h : MasterOp.Exec (.updateByPayment target i pid) w (.ok true) w') : w'.db.statusOf i = some target := by
  obtain ⟨env, -, -, -, -, he⟩ := h
  have he : onMasterBookings (MasterRepo.updateByPayment target i pid) w = (.ok true, w') := Fault.of_ok he
  have hok : (MasterRepo.updateByPayment target i pid w.db).1 = .ok true := congrArg Prod.fst he
  have hdb : (MasterRepo.updateByPayment target i pid w.db).2 = w'.db := congrArg (fun x => x.2.db) he
  unfold MasterRepo.updateByPayment MasterRepo.updateRows at hok hdb
  cases hu : w.db.update (MasterRepo.awaits i pid) fun b => { b with status := target, paymentID := pid } with
  | error v =>
    rw [hu] at hok
    cases hok
  | ok db' =>
    rw [hu] at hok hdb
    obtain ⟨b, hb⟩ := Option.isSome_iff_exists.1 (Except.ok.inj hok)
    obtain ⟨hmem, hp⟩ := Table.get_mem hb
    have hid : b.id = i := by
      simp only [MasterRepo.awaits, Bool.and_eq_true, beq_iff_eq] at hp
      exact hp.1.1
    have hfind : w.db.get (·.id == i) = some b :=
      w.db.get_key hmem (by simp [hid]) fun x hx => by simp [masterBookingSchema, hid, beq_iff_eq.1 hx]
    subst hdb
    unfold MasterDB.statusOf MasterDB.find
    rw [Table.get_update hu fun _ => rfl, hfind, Option.map_some, if_pos hp]
    rfl

theorem Exec.selected {i : String} {x : BookingStatus × String}
    (h : MasterOp.Exec (.selectPayment i) w (.ok (some x)) w') :
    w' = w ∧ ∃ b, w.db.find i = some b ∧ b.status = x.1 := by
  obtain ⟨env, -, -, -, -, he⟩ := h
  have he : onMasterBookings (fun db => (MasterRepo.selectPayment i db, db)) w = (.ok (some x), w') := Fault.of_ok he
  have hw : w = w' := congrArg Prod.snd he
  have hok : (w.db.find i).map (fun b => (b.status, b.paymentID)) = some x := Except.ok.inj (congrArg Prod.fst he)
  obtain ⟨b, hb, rfl⟩ := Option.map_eq_some_iff.1 hok
  exact ⟨hw.symm, b, hb, rfl⟩

/-- A statement that fails gives no reason to acknowledge anything. -/
theorem Exec.not_refused (h : MasterOp.Exec o w r w') : ¬ Refused ⟨o, r⟩ := by
  obtain ⟨env, -, -, -, -, he⟩ := h
  intro hr
  cases o with
  | updateByPayment target i pid =>
    cases r with
    | ok found => exact hr
    | error err =>
      have he : env.fault.apply .other (onMasterBookings (MasterRepo.updateByPayment target i pid)) w = (.error err, w') := he
      rcases Fault.of_error he with hown | ⟨d, rfl, -⟩
      · have herr : (MasterRepo.updateByPayment target i pid w.db).1 = .error err := congrArg Prod.fst hown
        unfold MasterRepo.updateByPayment MasterRepo.updateRows at herr
        split at herr
        · rename_i v hv
          cases herr
          cases v <;> cases hr
        · cases herr
      · cases hr
  | selectPayment i =>
    cases r with
    | ok x => exact hr
    | error err =>
      have he : env.fault.apply .other (onMasterBookings fun db => (MasterRepo.selectPayment i db, db)) w = (.error err, w') := he
      rcases Fault.of_error he with hown | ⟨d, rfl, -⟩
      · have herr : (MasterRepo.selectPayment i w.db) = .error err := congrArg Prod.fst hown
        cases herr
      · cases hr
  | _ => exact hr

/-- The operations that bring a booking out of pending. -/
def Unpends (i : String) : MasterOp → Prop
  | .setBookingPayment j _ _ _ _ => j = i
  | .insertBooking b => b.status ≠ .pending
  | _ => False

theorem Exec.unpends (h : MasterOp.Exec o w r w') {i : String} (hs : ∃ s, w'.db.statusOf i = some s ∧ s ≠ .pending) :
    (∃ s, w.db.statusOf i = some s ∧ s ≠ .pending) ∨ Unpends i o := by
  obtain ⟨s, hs, hne⟩ := hs
  have hstep := h.status i
  rw [hs] at hstep
  generalize w.db.statusOf i = x at hstep
  cases hstep with
  | same => exact .inl ⟨s, rfl, hne⟩
  | insert b ho hb =>
    refine .inr ?_
    rw [ho]
    exact hne
  | pay s' _ pid url price ho =>
    refine .inr ?_
    rw [ho]
    rfl
  | move _ pid ho => exact .inl ⟨_, rfl, by decide⟩

end MasterOp

section Runs

variable {uc : MasterUseCase} {w₀ w w' : MasterWorld}

theorem MasterWorld.Settles.db (h : w.Settles w') : w'.db = w.db ∧ w'.issued = w.issued := by
  cases h <;> exact ⟨rfl, rfl⟩

/-- **A booking is pending, or gone, when its payment is written on it.** -/
theorem pending_at_payment {ok : Sys.Cond MasterWorld MasterCall MasterOp MasterOp.Res (Option Answer)}
    {ts₁ ts₂ : List MasterThread} {call : MasterCall} {did : List (Event MasterOp MasterOp.Res)} {i pid url : String}
    {price : ℤ} {st : BookingStatus} {k : Except MasterErr Unit → MasterProg (Option Answer)} (h0 : w₀.Opening)
    (h : (masterSys uc).Reach ok w₀ ⟨w, ts₁ ++ ⟨call, did, .call (.setBookingPayment i pid url price st) k⟩ :: ts₂⟩)
    (hnew : i ∉ w₀.issued) {s : BookingStatus} (hs : w.db.statusOf i = some s) : s = .pending := by
  by_contra hne
  have hprior := h.after (P := fun _ => SagaPrior) (MasterCall.prog_prior uc)
  obtain ⟨hme, hpays⟩ := (hprior ⟨call, did, .call (.setBookingPayment i pid url price st) k⟩ (by simp)).1.1
  -- someone has brought it out of pending, and has drawn its key
  obtain ⟨t, ht, e, he, hE⟩ := h.author (F := fun w => ∃ s, w.db.statusOf i = some s ∧ s ≠ .pending)
    (E := fun e => MasterOp.Unpends i e.1) (fun ⟨s, hs, _⟩ => by
      obtain ⟨b, hb, -⟩ := Option.map_eq_some_iff.1 hs
      exact hnew (h0.keys i b hb))
    (fun o w r w' he hF => MasterOp.Exec.unpends he hF)
    (fun w w' he hF => by rwa [(MasterWorld.Settles.db he).1] at hF) ⟨s, hs, hne⟩
  obtain ⟨h₁, h₂, hsplit⟩ := List.append_of_mem he
  have hauthor := (hprior t ht).2 h₁ e h₂ hsplit
  obtain ⟨o, r⟩ := e
  cases o with
  | setBookingPayment j pid' url' price' st' =>
    obtain rfl : j = i := hE
    -- which only one call has done
    have honce := Sys.Reach.once_others (S := masterSys uc) (E := fun e => e = ⟨.newUUID, j⟩) (F := fun w => j ∈ w.issued)
      (fun o w r w' he hE => by
        cases hE
        obtain ⟨env, -, hfresh, -, -, he⟩ := he
        cases he
        exact ⟨hfresh, List.mem_cons_self⟩)
      (fun o w r w' he hF => by
        obtain ⟨env, -, -, -, -, he⟩ := he
        have := (MasterOp.run_rest env o w).2.1 j hF
        rwa [he] at this)
      (fun w w' he hF => by rwa [(MasterWorld.Settles.db he).2]) h ⟨_, hme, rfl⟩
    rcases List.mem_append.1 ht with ht | ht
    · exact honce t (List.mem_append_left _ ht) _ (hsplit ▸ List.mem_append_left _ hauthor.1) rfl
    rcases List.mem_cons.1 ht with rfl | ht
    · exact absurd (hpays _ he) (by simp [MasterOp.pays])
    · exact honce t (List.mem_append_right _ ht) _ (hsplit ▸ List.mem_append_left _ hauthor.1) rfl
  | insertBooking b => exact hE hauthor
  | _ => exact hE

theorem MasterOp.Exec.lasts {o : MasterOp} {r : o.Res} (he : MasterOp.Exec o w r w')
    (hdelete : ∀ i, o = .deleteBooking i → ∀ s, w.db.statusOf i = some s → ¬ PaidOff s)
    (hpay : ∀ i pid url price st, o = .setBookingPayment i pid url price st → ∀ s, w.db.statusOf i = some s → ¬ PaidOff s) :
    SagaLasts w w' := by
  refine ⟨fun ev hev => ?_, fun i s hset hs => ?_⟩
  · obtain ⟨env, -, -, -, -, he⟩ := he
    have := (run_rest env o w).1
    rw [he] at this
    rwa [this]
  · have hstep := he.status i
    generalize hx : w'.db.statusOf i = x at hstep
    rw [hs] at hstep
    cases hstep with
    | same => rfl
    | delete _ ho => exact absurd hset (hdelete i ho s hs)
    | pay _ st pid url price ho => exact absurd hset (hpay i pid url price st ho s hs)
    | move => exact absurd hset (by rintro (h | h) <;> cases h)

theorem SagaInv.step {o : MasterOp} {r : o.Res} (h : SagaInv w₀ w) (he : MasterOp.Exec o w r w')
    (hreq : ∀ req, o = .createPayment req → isUUID req.bookingID = true) : SagaInv w₀ w' := by
  obtain ⟨env, -, -, hid, -, he⟩ := he
  obtain ⟨hev, hissued, hpay⟩ := MasterOp.run_rest env o w
  rw [he] at hev hissued hpay
  have hkeep : ∀ p ∈ w'.payments, p ∈ w.payments ∨ (p.status = .pending ∧ isUUID p.bookingID = true ∧ isUUID p.id = true) := by
    intro p hp
    rcases hpay with h | ⟨req, ho, h⟩
    · exact .inl (h ▸ hp)
    · rw [h] at hp
      rcases List.mem_append.1 hp with hp | hp
      · exact .inl hp
      · rw [List.mem_singleton.1 hp]
        exact .inr ⟨rfl, hreq req ho, hid⟩
  refine ⟨fun k hk => hissued k (h.issued k hk), fun p hp => ?_, fun p hp hs => ?_, fun p hp hs => ?_⟩
  · exact (hkeep p hp).elim (h.keys p) And.right
  · rw [hev]
    rcases hkeep p hp with hp | ⟨hp, -⟩
    · exact h.succeeded p hp hs
    · exact absurd (hp.symm.trans hs) nofun
  · rw [hev]
    rcases hkeep p hp with hp | ⟨hp, -⟩
    · exact h.failed p hp hs
    · exact absurd (hp.symm.trans hs) nofun

/-- A payment that is settled keeps what it is about. -/
theorem SagaInv.settles (h : SagaInv w₀ w) (hs : w.Settles w') : SagaInv w₀ w' := by
  have hold : ∀ {p q : MasterPayment} {l₁ l₂ : List MasterPayment}, w.payments = l₁ ++ q :: l₂ → p ∈ l₁ ++ l₂ → p ∈ w.payments := by
    intro p q l₁ l₂ hw hp
    rw [hw]
    rcases List.mem_append.1 hp with hp | hp
    · exact List.mem_append_left _ hp
    · exact List.mem_append_right _ (List.mem_cons_of_mem _ hp)
  have hsplit : ∀ {p q : MasterPayment} {l₁ l₂ : List MasterPayment}, p ∈ l₁ ++ q :: l₂ → p = q ∨ p ∈ l₁ ++ l₂ := by
    intro p q l₁ l₂ hp
    rcases List.mem_append.1 hp with hp | hp
    · exact .inr (List.mem_append_left _ hp)
    · exact (List.mem_cons.1 hp).imp id (List.mem_append_right _)
  have hmem : ∀ {q : MasterPayment} {l₁ l₂ : List MasterPayment}, w.payments = l₁ ++ q :: l₂ → q ∈ w.payments := by
    intro q l₁ l₂ hw
    rw [hw]
    simp
  cases hs with
  | succeed l₁ l₂ p hw hp =>
    refine ⟨h.issued, fun q hq => ?_, fun q hq hst => ?_, fun q hq hst => ?_⟩ <;> rcases hsplit hq with rfl | hq
    · exact h.keys p (hmem hw)
    · exact h.keys q (hold hw hq)
    · exact List.mem_append_right _ (List.mem_singleton.2 rfl)
    · exact List.mem_append_left _ (h.succeeded q (hold hw hq) hst)
    · cases hst
    · exact List.mem_append_left _ (h.failed q (hold hw hq) hst)
  | fail l₁ l₂ p hw hp =>
    refine ⟨h.issued, fun q hq => ?_, fun q hq hst => ?_, fun q hq hst => ?_⟩ <;> rcases hsplit hq with rfl | hq
    · exact h.keys p (hmem hw)
    · exact h.keys q (hold hw hq)
    · cases hst
    · exact List.mem_append_left _ (h.succeeded q (hold hw hq) hst)
    · exact List.mem_append_right _ (List.mem_singleton.2 rfl)
    · exact List.mem_append_left _ (h.failed q (hold hw hq) hst)
  | refund l₁ l₂ p hw hp =>
    refine ⟨h.issued, fun q hq => ?_, fun q hq hst => ?_, fun q hq hst => ?_⟩ <;> rcases hsplit hq with rfl | hq
    · exact h.keys p (hmem hw)
    · exact h.keys q (hold hw hq)
    · cases hst
    · exact h.succeeded q (hold hw hq) hst
    · cases hst
    · exact h.failed q (hold hw hq) hst

theorem MasterWorld.Settles.lasts (hs : w.Settles w') : SagaLasts w w' := by
  refine ⟨fun ev hev => ?_, fun i s _ h => by rwa [hs.db.1]⟩
  cases hs with
  | succeed | fail => exact List.mem_append_left _ hev
  | refund => exact hev

theorem MasterCall.ready_lasts {c : MasterCall} (h : SagaLasts w w') (hc : c.ready w) : c.ready w' := by
  cases c with
  | createBooking => trivial
  | paymentCompleted evt => exact h.events _ hc
  | paymentFailed evt => exact h.events _ hc

/-- **What the calls have been told is so**, as long as no call forces a booking. -/
theorem saga_told {c : MasterConfig} (h0 : w₀.Opening) (h : (masterSys uc).Reach SagaStep w₀ c) :
    SagaInv w₀ c.world ∧ ∀ t ∈ c.threads, t.call.ready c.world ∧ ∀ e ∈ t.did, SagaTold w₀ c.world e := by
  refine h.told (I := SagaInv w₀) (R := SagaLasts) (T := SagaTold w₀) (K := MasterCall.ready) (P := fun _ => SagaPrior)
    (fun w w' e hR => SagaTold.lasts hR) (fun w w' c hR => MasterCall.ready_lasts hR) (MasterCall.prog_prior uc) ?_
    (fun c w hr => hr) ?_ ?_
  · refine ⟨fun k hk => hk, ?_, ?_, ?_⟩ <;> rw [h0.payments] <;> simp
  · intro w w' ts₁ ts₂ call did o k r hr hok hI _ hprior htold he
    have he : MasterOp.Exec o w r w' := he
    have hlasts : SagaLasts w w' := by
      refine he.lasts ?_ ?_
      · rintro i rfl s hs
        obtain ⟨b, hb, rfl⟩ := Option.map_eq_some_iff.1 hs
        rcases hok b hb with h | h <;> rw [h] <;> rintro (h | h) <;> cases h
      · rintro i pid url price st rfl s hs
        rw [pending_at_payment h0 hr (htold _ hprior.1).2 hs]
        rintro (h | h) <;> cases h
    refine ⟨hI.step he ?_, hlasts, ?_⟩
    · rintro req rfl
      exact (htold _ hprior).1
    · cases o with
      | newUUID =>
        obtain ⟨env, huuid, hfresh, -, -, he⟩ := he
        cases he
        exact ⟨huuid, fun hk => hfresh (hI.issued _ hk)⟩
      | updateByPayment target i pid =>
        cases r with
        | error err => trivial
        | ok found =>
          cases found with
          | false => trivial
          | true => exact fun _ => he.moved
      | selectPayment i =>
        cases r with
        | error err => trivial
        | ok x =>
          cases x with
          | none => trivial
          | some x =>
            obtain ⟨rfl, b, hb, hx⟩ := he.selected
            intro _
            rw [← hx]
            exact congrArg (Option.map (·.status)) hb
      | _ => trivial
  · exact fun w w' ts _ hI hs => ⟨hI.settles hs, MasterWorld.Settles.lasts hs⟩

/-- A delivery that has looked its booking up has found it where the event is to bring it. -/
theorem saga_selected {c : MasterConfig} (h : (masterSys uc).Reach SagaStep w₀ c) :
    ∀ t ∈ c.threads, ∀ (i : String) (x : BookingStatus × String), ⟨.selectPayment i, .ok (some x)⟩ ∈ t.did →
      t.call.target = some x.1 := by
  refine h.pool_inv (fun _ (ts : List MasterThread) => ∀ t ∈ ts, ∀ (i : String) (x : BookingStatus × String),
    ⟨.selectPayment i, .ok (some x)⟩ ∈ t.did → t.call.target = some x.1) (by simp) ?_ ?_ (fun _ _ _ h _ => h)
  · intro w ts c ih t ht
    rcases List.mem_append.1 ht with ht | ht
    · exact ih t ht
    · rw [List.mem_singleton.1 ht]
      exact fun i x he => absurd he (by simp)
  · intro w w' ts₁ ts₂ call did o k r ih he hok t ht
    rcases List.mem_append.1 ht with ht | ht
    · exact ih t (List.mem_append_left _ ht)
    rcases List.mem_cons.1 ht with rfl | ht
    · intro i x hd
      rcases List.mem_append.1 hd with hd | hd
      · exact ih ⟨call, did, .call o k⟩ (by simp) i x hd
      · cases List.mem_singleton.1 hd
        obtain ⟨-, b, hb, hx⟩ := MasterOp.Exec.selected he
        rw [← hx]
        exact hok b hb
    · exact ih t (by simp [ht])

/-- **A payment and its booking agree once every event has been acknowledged**, in every run in which no delivery looks up
a booking that it cannot move and no creation deletes one that has been settled. -/
theorem masterAgrees {c : MasterConfig} (h0 : w₀.Opening) (h : (masterSys uc).Reach SagaStep w₀ c) (hack : Acknowledged c) :
    c.world.Agrees := by
  obtain ⟨hI, hts⟩ := saga_told h0 h
  -- an acknowledged event has brought its booking to its target
  have hdone : ∀ p ∈ c.world.payments, ∀ t ∈ c.threads, t.rest = .ret (some .ack) → ∀ expected target,
      (t.call, expected, target) = (.paymentCompleted ⟨p.id, p.bookingID, expected⟩, "completed", .confirmed) ∨
      (t.call, expected, target) = (.paymentFailed ⟨p.id, p.bookingID, expected⟩, "failed", BookingStatus.cancelled) →
      c.world.db.statusOf p.bookingID = some target := by
    rintro p hp t ht hrest expected target hcall
    obtain ⟨hb, hid⟩ := hI.keys p hp
    have htarget : t.call.target = some target ∧ PaidOff target := by
      obtain ⟨call, did, rest⟩ := t
      rcases hcall with hcall | hcall <;> cases hcall
      · exact ⟨rfl, .inl rfl⟩
      · exact ⟨rfl, .inr rfl⟩
    have hends := h.ends (Q := fun call did a => call = t.call → a = some .ack →
      Moved target p.bookingID did ∨ ∃ e ∈ did, Refused e) (fun call => by
        by_cases hc : call = t.call
        · subst hc
          exact (MasterCall.prog_ends uc t.call expected target _ hcall rfl hb (ne_empty_of_isUUID hid)).mono
            fun _ _ hq _ => hq
        · exact Prog.Ends.of_forall (fun _ _ h => absurd h hc) _ _) t ht
    rw [hrest] at hends
    rcases hends rfl rfl with (⟨pid, hmoved⟩ | ⟨x, hsel⟩) | ⟨e, he, href⟩
    · exact (hts t ht).2 _ hmoved htarget.2
    · have hx : x.1 = target := Option.some.inj ((saga_selected h t ht _ x hsel).symm.trans htarget.1)
      have := (hts t ht).2 _ hsel
      rw [← hx]
      exact this (hx ▸ htarget.2)
    · exact absurd href (h.events (E := fun e => ¬ Refused e) (fun o w r w' he => MasterOp.Exec.not_refused he) t ht e he)
  refine ⟨fun p hp hs => ?_, fun p hp hs => ?_⟩
  · obtain ⟨t, ht, hrest, ⟨-, hcall⟩ | ⟨hsub, -⟩⟩ := hack _ (hI.succeeded p hp hs)
    · exact hdone p hp t ht hrest "completed" .confirmed (.inl (by rw [hcall]; rfl))
    · cases hsub
  · obtain ⟨t, ht, hrest, ⟨hsub, -⟩ | ⟨-, hcall⟩⟩ := hack _ (hI.failed p hp hs)
    · cases hsub
    · exact hdone p hp t ht hrest "failed" .cancelled (.inr (by rw [hcall]; rfl))

end Runs

/-! ### A booking that is paid -/

def annasUseCase : MasterUseCase := ⟨fun _ => ⟨2026, 1, 1⟩, id⟩

def anna : Master where
  id := "11111111-1111-1111-1111-111111111111"
  status := "active"
  services := []
  hourlyRate := 100000
  priceWeekend := 0
  payoutLegalForm := "self_employed"
  payoutLegalName := "Anna"
  payoutINN := "500100732259"
  payoutKPP := ""
  payoutOGRN := ""
  payoutOGRNIP := ""

def annasInput : CreateMasterBookingInput :=
  ⟨"22222222-2222-2222-2222-222222222222", "anna", none, "2026-01-02", "10:00", "11:00", ""⟩

theorem annas_check : annasUseCase.checkBooking anna annasInput 0 = .ok ((⟨2026, 1, 2⟩, ⟨10, 0⟩, ⟨11, 0⟩), 100000) := by
  decide +kernel

def annasBookingID : String := "33333333-3333-3333-3333-333333333333"

def annasBooking : MasterBooking where
  id := annasBookingID
  masterID := anna.id
  clientUserID := annasInput.clientUserID
  masterServiceID := none
  date := ⟨2026, 1, 2⟩
  timeFrom := ⟨10, 0⟩
  timeTo := ⟨11, 0⟩
  comment := ""
  status := .pending
  totalPrice := 100000

def annasPaymentID : String := "44444444-4444-4444-4444-444444444444"

def annasEnv (newID paymentID : String) : MasterEnv where
  now := 0
  newID := newID
  getBySlug := .ok (some anna)
  hasSlotBlockConflict := .ok false
  payment := ⟨paymentID, "https://pay.test"⟩
  fault := .none

/-- What is drawn after the first key and the first payment. -/
def laterID : String := "55555555-5555-5555-5555-555555555555"

def annasEmpty : MasterWorld := ⟨.empty _, [], [], []⟩

theorem annasEmpty_opening : annasEmpty.Opening := by
  refine ⟨fun i b h => ?_, rfl, rfl⟩
  have h : (none : Option MasterBooking) = some b := h
  cases h

def annasDrawn : MasterWorld := (MasterOp.run (annasEnv annasBookingID annasPaymentID) .newUUID annasEmpty).2

def annasStored : MasterWorld := (MasterOp.run (annasEnv laterID annasPaymentID) (.insertBooking annasBooking) annasDrawn).2

def annasAsked : MasterWorld :=
  { annasStored with payments := [⟨annasPaymentID, annasBookingID, .pending⟩] }

def annasEvent : PaymentMessage := (⟨annasPaymentID, annasBookingID, .succeeded⟩ : MasterPayment).completed

/-- The payment has succeeded. -/
def MasterWorld.paid (w : MasterWorld) : MasterWorld :=
  { w with payments := [⟨annasPaymentID, annasBookingID, .succeeded⟩], events := [annasEvent] }

theorem annas_exec (newID paymentID : String) {o : MasterOp} {w : MasterWorld} (w' : MasterWorld) {r : o.Res}
    (hn : isUUID newID = true ∧ newID ∉ w.issued) (hp : isUUID paymentID = true ∧ ∀ p ∈ w.payments, p.id ≠ paymentID)
    (h : o.run (annasEnv newID paymentID) w = (r, w')) : MasterOp.Exec o w r w' :=
  ⟨annasEnv newID paymentID, hn.1, hn.2, hp.1, hp.2, h⟩

/-- What is performed without a condition. -/
def MasterOp.Calm (o : MasterOp) (w : MasterWorld) (r : o.Res) (w' : MasterWorld) : Prop :=
  MasterOp.Exec o w r w' ∧ ∀ c t, SagaStep c t o r

/-- The creation up to the point where it knows of the payment. -/
theorem annas_asked : (MasterCall.prog annasUseCase (.createBooking annasInput)).Reaches MasterOp.Calm
    (fun q w => w = annasAsked ∧ ∃ k, q = .call (.setBookingPayment annasBookingID annasPaymentID "https://pay.test" 100000
      .paymentPending) k ∧ ∃ k', k (.ok ()) = .call (.getBookingByID annasBookingID) k' ∧ ∀ r, k' r = .ret none) annasEmpty := by
  simp only [MasterCall.prog, MasterUseCase.createBooking, Prog.bind_eq, Prog.perform_bind]
  rw [if_neg (by decide)]
  refine .call ⟨annas_exec annasBookingID annasPaymentID _ (by decide) (by decide) rfl, fun _ _ => trivial⟩ ?_
  dsimp only [annasEnv]
  rw [if_neg (by decide), if_neg (by decide)]
  refine .call ⟨annas_exec annasBookingID annasPaymentID _ (by decide) (by decide) rfl, fun _ _ => trivial⟩ ?_
  dsimp only [annasEnv]
  rw [annas_check]
  refine .call ⟨annas_exec annasBookingID annasPaymentID _ (by decide) (by decide) rfl, fun _ _ => trivial⟩ ?_
  refine .call ⟨annas_exec annasBookingID annasPaymentID annasDrawn (by decide) (by decide) rfl, fun _ _ => trivial⟩ ?_
  refine .call ⟨annas_exec laterID annasPaymentID annasStored (by decide) (by decide) rfl, fun _ _ => trivial⟩ ?_
  refine .call ⟨annas_exec laterID annasPaymentID annasAsked (by decide) (by decide) rfl, fun _ _ => trivial⟩ ?_
  exact .here ⟨rfl, _, rfl, _, rfl, fun r => by cases r <;> rfl⟩

/-- The delivery of the event, up to its update. -/
theorem annas_delivery : ∃ k, MasterCall.prog annasUseCase (.paymentCompleted annasEvent.payload) =
    .call (.updateByPayment .confirmed annasBookingID annasPaymentID) k ∧ k (.ok true) = .ret (some .ack) ∧
      ∃ k', k (.ok false) = .call (.selectPayment annasBookingID) k' ∧ k' (.ok (some (.pending, ""))) = .ret (some .ack) := by
  have hb : trimSpace annasBookingID = annasBookingID := trimSpace_of_isUUID (by decide)
  have hp : trimSpace annasPaymentID = annasPaymentID := trimSpace_of_isUUID (by decide)
  have he : annasEvent.payload = ⟨annasPaymentID, annasBookingID, "completed"⟩ := rfl
  simp only [MasterCall.prog, masterSubscriber, MasterSubscriber.handlePaymentCompleted, MasterSubscriber.handlePayment, he,
    confirmBookingByPayment, moveByPayment, hb, hp]
  rw [if_neg (by decide), if_neg (by decide), if_neg (by decide)]
  exact ⟨_, rfl, rfl, _, rfl, rfl⟩

theorem annasAsked_reach : ∃ did k k', (masterSys annasUseCase).Reach SagaStep annasEmpty ⟨annasAsked,
    [⟨.createBooking annasInput, did, .call (.setBookingPayment annasBookingID annasPaymentID "https://pay.test" 100000
      .paymentPending) k⟩]⟩ ∧ k (.ok ()) = .call (.getBookingByID annasBookingID) k' ∧ ∀ r, k' r = .ret none := by
  have hstart : (masterSys annasUseCase).Reach SagaStep annasEmpty ⟨annasEmpty, [⟨.createBooking annasInput, [],
    MasterCall.prog annasUseCase (.createBooking annasInput)⟩]⟩ := Sys.Reach.init.step (.start _ [] _ trivial)
  obtain ⟨did, q, w, ⟨rfl, k, rfl, k', hk, hret⟩, hr⟩ := hstart.reaches
    (fun o w r w' (he : MasterOp.Calm o w r w') => ⟨he.1, fun _ t _ => he.2 _ t⟩) [] [] annas_asked
  exact ⟨did, k, k', hr, hk, hret⟩

def annasPending : MasterWorld :=
  (MasterOp.run (annasEnv laterID laterID) (.setBookingPayment annasBookingID annasPaymentID "https://pay.test" 100000 .paymentPending)
    annasAsked).2

def annasConfirmed : MasterWorld :=
  (MasterOp.run (annasEnv laterID laterID) (.updateByPayment .confirmed annasBookingID annasPaymentID) annasPending.paid).2

theorem masterAgrees_anna : ∃ c, (masterSys annasUseCase).Reach SagaStep annasEmpty c ∧
    c.world.db.statusOf annasBookingID = some .confirmed ∧ c.world.Agrees := by
  obtain ⟨did, k, k', h, hk, hret⟩ := annasAsked_reach
  have hset : MasterOp.Exec (.setBookingPayment annasBookingID annasPaymentID "https://pay.test" 100000 .paymentPending)
      annasAsked (.ok ()) annasPending := annas_exec laterID laterID _ (by decide) (by decide) rfl
  have hget : MasterOp.Exec (.getBookingByID annasBookingID) annasPending (.ok (annasPending.db.find annasBookingID))
      annasPending := annas_exec laterID laterID _ (by decide) (by decide) rfl
  have hupd : MasterOp.Exec (.updateByPayment .confirmed annasBookingID annasPaymentID) annasPending.paid (.ok true)
      annasConfirmed := annas_exec laterID laterID _ (by decide) (by decide) rfl
  have hpaid : annasPending.Settles annasPending.paid := .succeed annasPending [] [] ⟨annasPaymentID, annasBookingID, .pending⟩ rfl rfl
  obtain ⟨kd, hd, hack, -⟩ := annas_delivery
  have h := h.step (.perform _ _ [] [] _ _ _ _ _ hset trivial)
  rw [hk] at h
  have h := h.step (.perform _ _ [] [] _ _ _ _ _ hget trivial)
  have h := h.step (.env _ _ _ hpaid)
  have h := h.step (.start _ _ (.paymentCompleted annasEvent.payload) (List.mem_singleton.2 rfl))
  have hprog : (masterSys annasUseCase).prog (.paymentCompleted annasEvent.payload) = _ := hd
  rw [hprog] at h
  have h := h.step (.perform _ _ [_] [] _ _ _ _ _ hupd trivial)
  rw [hack] at h
  have hconfirmed : annasConfirmed.db.statusOf annasBookingID = some .confirmed := by decide
  refine ⟨_, h, hconfirmed, masterAgrees annasEmpty_opening h ?_⟩
  intro ev hev
  have hev : ev ∈ [annasEvent] := hev
  rw [List.mem_singleton.1 hev]
  exact ⟨_, List.mem_append_right _ List.mem_cons_self, rfl, .inl ⟨rfl, rfl⟩⟩

/-- The delivery that comes before the creation knows of its payment. -/
def annasEarly : MasterWorld :=
  (MasterOp.run (annasEnv laterID laterID) (.updateByPayment .confirmed annasBookingID annasPaymentID) annasAsked.paid).2

def annasLeft : MasterWorld :=
  (MasterOp.run (annasEnv laterID laterID) (.setBookingPayment annasBookingID annasPaymentID "https://pay.test" 100000 .paymentPending)
    annasEarly).2

theorem master_disagrees : ¬ ∀ (uc : MasterUseCase) (w₀ : MasterWorld) (c : MasterConfig), w₀.Opening →
    (masterSys uc).Reach anyStep w₀ c → Acknowledged c → c.world.Agrees := by
  intro hall
  obtain ⟨did, k, k', h, hk, hret⟩ := annasAsked_reach
  have hpaid : annasAsked.Settles annasAsked.paid := .succeed annasAsked [] [] ⟨annasPaymentID, annasBookingID, .pending⟩ rfl rfl
  have hupd : MasterOp.Exec (.updateByPayment .confirmed annasBookingID annasPaymentID) annasAsked.paid (.ok false)
      annasEarly := annas_exec laterID laterID _ (by decide) (by decide) rfl
  have hsel : MasterOp.Exec (.selectPayment annasBookingID) annasEarly (.ok (some (.pending, ""))) annasEarly :=
    annas_exec laterID laterID _ (by decide) (by decide) rfl
  have hset : MasterOp.Exec (.setBookingPayment annasBookingID annasPaymentID "https://pay.test" 100000 .paymentPending)
      annasEarly (.ok ()) annasLeft := annas_exec laterID laterID _ (by decide) (by decide) rfl
  obtain ⟨kd, hd, -, ks, hs, hack⟩ := annas_delivery
  have h : (masterSys annasUseCase).Reach anyStep annasEmpty _ := h.mono fun _ _ _ _ _ => trivial
  have h := h.step (.env _ _ _ hpaid)
  have h := h.step (.start _ _ (.paymentCompleted annasEvent.payload) (List.mem_singleton.2 rfl))
  have hprog : (masterSys annasUseCase).prog (.paymentCompleted annasEvent.payload) = _ := hd
  rw [hprog] at h
  have h := h.step (.perform _ _ [_] [] _ _ _ _ _ hupd trivial)
  rw [hs] at h
  have h := h.step (.perform _ _ [_] [] _ _ _ _ _ hsel trivial)
  rw [hack] at h
  have h := h.step (.perform _ _ [] [_] _ _ _ _ _ hset trivial)
  have hagrees := hall annasUseCase annasEmpty _ annasEmpty_opening h fun ev hev => by
    have hev : ev ∈ [annasEvent] := hev
    rw [List.mem_singleton.1 hev]
    exact ⟨_, List.mem_append_right _ (List.mem_cons_of_mem _ List.mem_cons_self), rfl, .inl ⟨rfl, rfl⟩⟩
  have hleft : annasLeft.db.statusOf annasBookingID ≠ some .confirmed := by decide
  exact hleft (hagrees.succeeded ⟨annasPaymentID, annasBookingID, .succeeded⟩ (List.mem_singleton.2 rfl) rfl)

end Agregator
