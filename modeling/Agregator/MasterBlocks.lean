import Agregator.ConcLift
import Agregator.ConcPlay
import Agregator.MasterSaga
/-!
# MasterBlocks — the times a master takes no bookings

`master_slot_blocks`, the calls of a master on it, and the bookings beside them: what `HasSlotBlockConflict` answers to a
`CreateBooking` is now told by the table (`ScheduleOp.Exec`).  A block that is placed while a booking is being made may come too
late for it; a booking that is begun later does not get in (`blocked_time`).
-/
namespace Agregator

open Rel Conc

/-! ## The table -/

/-- Without an interval it is the whole day. -/
structure MasterSlotBlock where
  id : String
  masterID : String
  date : Date
  interval : Option (TimeOfDay × TimeOfDay)
  note : String
  createdAt : Time := 0
deriving DecidableEq, Repr

def maxSlotBlockNote : ℕ := 200

/-- `chk_master_slot_block_interval`. -/
def intervalOrdered (i : TimeOfDay × TimeOfDay) : Bool := decide (i.1.minutesSinceStart < i.2.minutesSinceStart)

def masterSlotBlockSchema : Schema MasterSlotBlock where
  check b := isUUID b.id && isUUID b.masterID && b.interval.all intervalOrdered && decide (b.note.length ≤ maxSlotBlockNote)
  clash a b := a.id == b.id
  clash_comm a b := by rw [Bool.beq_comm]

abbrev SlotBlocks := Table masterSlotBlockSchema

/-- The predicate of `HasSlotBlockConflict`; of two ranges of one day. -/
def MasterSlotBlock.conflicts (b : MasterSlotBlock) (date : Date) (timeFrom timeTo : TimeOfDay) : Bool :=
  b.date == date &&
    match b.interval with
    | none => true
    | some (start, stop) =>
      decide (start.minutesSinceStart < timeTo.minutesSinceStart) && decide (timeFrom.minutesSinceStart < stop.minutesSinceStart) &&
        decide (timeFrom.minutesSinceStart < timeTo.minutesSinceStart) && decide (start.minutesSinceStart < stop.minutesSinceStart)

namespace MasterRepo

def hasSlotBlockConflict (masterID : String) (date : Date) (timeFrom timeTo : TimeOfDay) (blocks : SlotBlocks) : Bool :=
  blocks.rows.any fun b => b.masterID == masterID && b.conflicts date timeFrom timeTo

def insertSlotBlock (now : Time) (b : MasterSlotBlock) (blocks : SlotBlocks) : Except MasterErr Unit × SlotBlocks :=
  match blocks.insert { b with createdAt := now } with
  | .error v => (.error (masterViolation v), blocks)
  | .ok blocks => (.ok (), blocks)

/-- A block of another master is not told from one there is not. -/
def deleteSlotBlock (masterID blockID : String) (blocks : SlotBlocks) : Except MasterErr Unit × SlotBlocks :=
  if (blocks.get fun b => b.id == blockID && b.masterID == masterID).isSome then
    (.ok (), blocks.delete fun b => b.id == blockID && b.masterID == masterID)
  else (.error .notFound, blocks)

/-- `ORDER BY date, time_from NULLS FIRST`. -/
def blockBefore (a b : MasterSlotBlock) : Bool :=
  if a.date.dayNumber = b.date.dayNumber then
    match a.interval, b.interval with
    | none, _ => true
    | some _, none => false
    | some i, some j => decide (i.1.minutesSinceStart ≤ j.1.minutesSinceStart)
  else decide (a.date.dayNumber < b.date.dayNumber)

def listSlotBlocksByMaster (today : Date) (masterID : String) (blocks : SlotBlocks) : List MasterSlotBlock :=
  (blocks.select fun b => b.masterID == masterID && decide (today.dayNumber ≤ b.date.dayNumber)).mergeSort blockBefore

end MasterRepo

/-! ## The calls -/

/-- An operation of the bookings, or one of the schedule. -/
inductive ScheduleOp where
  | booking (o : MasterOp)
  | getByUserID (userID : String)
  | insertSlotBlock (b : MasterSlotBlock)
  | deleteSlotBlock (masterID blockID : String)
  | listSlotBlocksByMaster (masterID : String)
deriving DecidableEq

@[reducible] def ScheduleOp.Res : ScheduleOp → Type
  | booking o => o.Res
  | getByUserID _ => Except MasterErr (Option Master)
  | insertSlotBlock _ | deleteSlotBlock _ _ => Except MasterErr Unit
  | listSlotBlocksByMaster _ => Except MasterErr (List MasterSlotBlock)

abbrev ScheduleProg := Prog ScheduleOp ScheduleOp.Res

abbrev ScheduleOp.call (o : ScheduleOp) : ScheduleProg o.Res := Prog.perform o

inductive ScheduleReply where
  | booking (answer : Option Answer)
  | block (r : Except MasterErr MasterSlotBlock)
  | deleted (r : Except MasterErr Unit)
  | blocks (r : Except MasterErr (List MasterSlotBlock))

def slotBlockMaxAdvanceDays : ℕ := 365

/-- The date, if it is from today to a year ahead. -/
def validateSlotBlockDate (today : Date) (date : String) : Except Err Date :=
  match Date.parse date with
  | none => .error (.status .invalidArgument "invalid date: expected YYYY-MM-DD")
  | some parsed =>
    if parsed.dayNumber < today.dayNumber then .error (.status .invalidArgument "date must not be in the past")
    else if today.dayNumber + slotBlockMaxAdvanceDays < parsed.dayNumber then
      .error (.status .invalidArgument ("date must be within " ++ toString slotBlockMaxAdvanceDays ++ " days from today"))
    else .ok parsed

/-- The interval; none, for the whole day. -/
def validateSlotBlockInterval (timeFrom timeTo : String) : Except Err (Option (TimeOfDay × TimeOfDay)) :=
  if timeFrom = "" ∧ timeTo = "" then .ok none
  else if timeFrom = "" ∨ timeTo = "" then
    .error (.status .invalidArgument "both time_from and time_to are required, or leave both empty for a whole-day block")
  else
    match TimeOfDay.parse timeFrom with
    | none => .error (.status .invalidArgument "invalid time_from: expected HH:MM")
    | some start =>
      match TimeOfDay.parse timeTo with
      | none => .error (.status .invalidArgument "invalid time_to: expected HH:MM")
      | some stop =>
        if stop.minutesSinceStart ≤ start.minutesSinceStart then
          .error (.status .invalidArgument "time_to must be later than time_from")
        else .ok (some (start, stop))

namespace MasterUseCase

variable (uc : MasterUseCase)

/-- The checks of a request, in their order. -/
def checkSlotBlock (now : Time) (date timeFrom timeTo note : String) : Except Err (Date × Option (TimeOfDay × TimeOfDay)) :=
  if maxSlotBlockNote < (trimSpace note).length then
    .error (.status .invalidArgument ("note must not exceed " ++ toString maxSlotBlockNote ++ " characters"))
  else
    match validateSlotBlockDate (uc.moscowDate now) (trimSpace date) with
    | .error err => .error err
    | .ok date =>
      match validateSlotBlockInterval (trimSpace timeFrom) (trimSpace timeTo) with
      | .error err => .error err
      | .ok interval => .ok (date, interval)

/-- The profile of who calls. -/
def ownProfile {α : Type} (userID : String) (next : Master → ScheduleProg (Except MasterErr α)) :
    ScheduleProg (Except MasterErr α) := do
  match ← (ScheduleOp.getByUserID userID).call with
  | .error err => return .error err
  | .ok none => return .error (.other (.status .notFound "master profile not found"))
  | .ok (some m) => next m

def createSlotBlock (userID date timeFrom timeTo note : String) : ScheduleProg (Except MasterErr MasterSlotBlock) := do
  let now ← (ScheduleOp.booking .now).call
  match uc.checkSlotBlock now date timeFrom timeTo note with
  | .error err => return .error (.other err)
  | .ok (date, interval) =>
    ownProfile userID fun m => do
      let id ← (ScheduleOp.booking .newUUID).call
      let b : MasterSlotBlock := ⟨id, m.id, date, interval, trimSpace note, 0⟩
      match ← (ScheduleOp.insertSlotBlock b).call with
      | .error err => return .error err
      | .ok () => return .ok b

def listSlotBlocks (userID : String) : ScheduleProg (Except MasterErr (List MasterSlotBlock)) :=
  ownProfile userID fun m => do
    return ← (ScheduleOp.listSlotBlocksByMaster m.id).call

def deleteSlotBlock (userID blockID : String) : ScheduleProg (Except MasterErr Unit) :=
  ownProfile userID fun m => do
    match ← (ScheduleOp.deleteSlotBlock m.id blockID).call with
    | .error .notFound => return .error (.other (.status .notFound "block not found"))
    | .error err => return .error err
    | .ok () => return .ok ()

end MasterUseCase

inductive ScheduleCall where
  | booking (c : MasterCall)
  | createSlotBlock (userID date timeFrom timeTo note : String)
  | listSlotBlocks (userID : String)
  | deleteSlotBlock (userID blockID : String)
deriving DecidableEq

def ScheduleCall.prog (uc : MasterUseCase) : ScheduleCall → ScheduleProg ScheduleReply
  | booking c => do return .booking (← (c.prog uc).lift ScheduleOp.booking fun _ r => r)
  | createSlotBlock userID date timeFrom timeTo note => do return .block (← uc.createSlotBlock userID date timeFrom timeTo note)
  | listSlotBlocks userID => do return .blocks (← MasterUseCase.listSlotBlocks userID)
  | deleteSlotBlock userID blockID => do return .deleted (← MasterUseCase.deleteSlotBlock userID blockID)

/-! ## The system -/

structure ScheduleWorld where
  saga : MasterWorld
  blocks : SlotBlocks

/-- A statement on the blocks. -/
def onSlotBlocks {α : Type} (f : SlotBlocks → Except MasterErr α × SlotBlocks) (w : ScheduleWorld) :
    Except MasterErr α × ScheduleWorld :=
  ((f w.blocks).1, { w with blocks := (f w.blocks).2 })

namespace ScheduleOp

/-- A statement on the blocks; it may fail before it takes effect, or after. -/
def Stmt {α : Type} (f : SlotBlocks → Except MasterErr α × SlotBlocks) (w : ScheduleWorld) (r : Except MasterErr α)
    (w' : ScheduleWorld) : Prop :=
  ∃ fault : Fault Err, fault.apply .other (onSlotBlocks f) w = (r, w')

/-- The bookings are told of the blocks by the table; the profiles are another table. -/
def Exec : (o : ScheduleOp) → ScheduleWorld → o.Res → ScheduleWorld → Prop
  | booking (.hasSlotBlockConflict masterID date timeFrom timeTo), w, r, w' =>
    Stmt (fun blocks => (.ok (MasterRepo.hasSlotBlockConflict masterID date timeFrom timeTo blocks), blocks)) w r w'
  | booking o, w, r, w' => o.Exec w.saga r w'.saga ∧ w'.blocks = w.blocks
  | getByUserID _, w, _, w' => w' = w
  | insertSlotBlock b, w, r, w' => ∃ now, Stmt (MasterRepo.insertSlotBlock now b) w r w'
  | deleteSlotBlock masterID blockID, w, r, w' => Stmt (MasterRepo.deleteSlotBlock masterID blockID) w r w'
  | listSlotBlocksByMaster masterID, w, r, w' =>
    ∃ today, Stmt (fun blocks => (.ok (MasterRepo.listSlotBlocksByMaster today masterID blocks), blocks)) w r w'

end ScheduleOp

def scheduleSys (uc : MasterUseCase) : Sys ScheduleWorld ScheduleCall ScheduleOp ScheduleOp.Res ScheduleReply where
  prog := ScheduleCall.prog uc
  ready c w :=
    match c with
    | .booking c => c.ready w.saga
    | _ => True
  exec := ScheduleOp.Exec
  env w w' := w.saga.Settles w'.saga ∧ w'.blocks = w.blocks

abbrev ScheduleMoment := Moment ScheduleWorld ScheduleCall ScheduleOp ScheduleOp.Res ScheduleReply

/-! ## What a block keeps free -/

/-- A minute of a day that is blocked. -/
def MasterSlotBlock.covers (b : MasterSlotBlock) (date : Date) (minute : ℤ) : Prop :=
  b.date = date ∧ ∀ i ∈ b.interval, i.1.minutesSinceStart ≤ minute ∧ minute < i.2.minutesSinceStart

/-- A minute of a day that is booked. -/
def MasterBooking.takes (b : MasterBooking) (date : Date) (minute : ℤ) : Prop :=
  b.date = date ∧ b.timeFrom.minutesSinceStart ≤ minute ∧ minute < b.timeTo.minutesSinceStart

/-- **Where a block and a booking meet, there is a conflict.** -/
theorem MasterSlotBlock.conflicts_of_meet {b : MasterSlotBlock} {bk : MasterBooking} {date : Date} {minute : ℤ}
    (hb : b.covers date minute) (hk : bk.takes date minute) : b.conflicts bk.date bk.timeFrom bk.timeTo = true := by
  obtain ⟨hdate, hin⟩ := hb
  obtain ⟨hdate', hfrom, hto⟩ := hk
  unfold MasterSlotBlock.conflicts
  rw [hdate, hdate', beq_self_eq_true, Bool.true_and]
  cases hi : b.interval with
  | none => rfl
  | some i =>
    obtain ⟨h1, h2⟩ := hin i hi
    simp only [Bool.and_eq_true, decide_eq_true_eq]
    omega

/-- **A conflict with a booking of some length is a minute of both.** -/
theorem MasterSlotBlock.meet_of_conflicts {b : MasterSlotBlock} {bk : MasterBooking}
    (hk : bk.timeFrom.minutesSinceStart < bk.timeTo.minutesSinceStart) (h : b.conflicts bk.date bk.timeFrom bk.timeTo = true) :
    ∃ minute, b.covers bk.date minute ∧ bk.takes bk.date minute := by
  unfold MasterSlotBlock.conflicts at h
  obtain ⟨hdate, hmeet⟩ := Bool.and_eq_true_iff.1 h
  cases hi : b.interval with
  | none =>
    refine ⟨bk.timeFrom.minutesSinceStart, ⟨beq_iff_eq.1 hdate, fun i hmem => ?_⟩, rfl, Int.le_refl _, hk⟩
    rw [hi] at hmem
    cases hmem
  | some i =>
    rw [hi] at hmeet
    simp only [Bool.and_eq_true, decide_eq_true_eq] at hmeet
    refine ⟨max bk.timeFrom.minutesSinceStart i.1.minutesSinceStart, ⟨beq_iff_eq.1 hdate, fun j hmem => ?_⟩, rfl, ?_, ?_⟩
    · rw [hi] at hmem
      cases hmem
      omega
    · omega
    · omega

/-- **A booking of some length is refused where a block takes one of its minutes, and only there.** -/
theorem MasterRepo.hasSlotBlockConflict_iff {blocks : SlotBlocks} {bk : MasterBooking}
    (hk : bk.timeFrom.minutesSinceStart < bk.timeTo.minutesSinceStart) :
    MasterRepo.hasSlotBlockConflict bk.masterID bk.date bk.timeFrom bk.timeTo blocks = true ↔
      ∃ b ∈ blocks.rows, b.masterID = bk.masterID ∧ ∃ date minute, b.covers date minute ∧ bk.takes date minute := by
  unfold MasterRepo.hasSlotBlockConflict
  rw [List.any_eq_true]
  constructor
  · rintro ⟨b, hb, hp⟩
    obtain ⟨hm, hc⟩ := Bool.and_eq_true_iff.1 hp
    obtain ⟨minute, hmeet⟩ := MasterSlotBlock.meet_of_conflicts hk hc
    exact ⟨b, hb, beq_iff_eq.1 hm, bk.date, minute, hmeet⟩
  · rintro ⟨b, hb, hm, date, minute, hcov, htakes⟩
    exact ⟨b, hb, Bool.and_eq_true_iff.2 ⟨beq_iff_eq.2 hm, MasterSlotBlock.conflicts_of_meet hcov htakes⟩⟩

/-! ## What a call has behind it -/

section Programs

-- a text that is trimmed is not to be computed when a program is unfolded
attribute [local irreducible] trimSpace

abbrev ScheduleHistory := List (Event ScheduleOp ScheduleOp.Res)

/-- A booking that is stored has been asked for among the blocks. -/
def BlocksAsked (h : List (Event MasterOp MasterOp.Res)) : MasterOp → Prop
  | .insertBooking b => ⟨.hasSlotBlockConflict b.masterID b.date b.timeFrom b.timeTo, .ok false⟩ ∈ h
  | _ => True

/-- What a statement on the blocks, and the row of a booking, have behind them. -/
def ScheduleCall.Prior (uc : MasterUseCase) (call : ScheduleCall) (h : ScheduleHistory) : ScheduleOp → Prop
  | .booking (.insertBooking b) => ⟨.booking (.hasSlotBlockConflict b.masterID b.date b.timeFrom b.timeTo), .ok false⟩ ∈ h
  | .insertSlotBlock b => ∃ userID date timeFrom timeTo note now m, call = .createSlotBlock userID date timeFrom timeTo note ∧
      ⟨.booking .now, now⟩ ∈ h ∧ uc.checkSlotBlock now date timeFrom timeTo note = .ok (b.date, b.interval) ∧
      b.note = trimSpace note ∧ ⟨.getByUserID userID, .ok (some m)⟩ ∈ h ∧ m.id = b.masterID
  | .deleteSlotBlock masterID blockID => ∃ userID m, call = .deleteSlotBlock userID blockID ∧
      ⟨.getByUserID userID, .ok (some m)⟩ ∈ h ∧ m.id = masterID
  | _ => True

theorem MasterUseCase.storeBooking_asked (uc : MasterUseCase) {b : MasterBooking} {h : List (Event MasterOp MasterOp.Res)}
    (hb : ⟨.hasSlotBlockConflict b.masterID b.date b.timeFrom b.timeTo, .ok false⟩ ∈ h) : (uc.storeBooking b).After BlocksAsked h := by
  simp only [MasterUseCase.storeBooking, Prog.bind_eq, Prog.perform_bind, Prog.pure_eq]
  refine ⟨hb, fun r => ?_⟩
  cases r with
  | error err => cases err <;> trivial
  | ok u =>
    refine ⟨trivial, fun r => ?_⟩
    cases r with
    | error err => exact ⟨trivial, fun _ => trivial⟩
    | ok pay =>
      refine ⟨trivial, fun r => ?_⟩
      cases r with
      | error err => exact ⟨trivial, fun _ => trivial⟩
      | ok u =>
        refine ⟨trivial, fun r => ?_⟩
        cases r <;> trivial

theorem MasterUseCase.createBooking_asked (uc : MasterUseCase) (inp : CreateMasterBookingInput) :
    (uc.createBooking inp).After BlocksAsked [] := by
  simp only [MasterUseCase.createBooking, Prog.bind_eq, Prog.perform_bind, Prog.pure_eq]
  split
  · trivial
  refine ⟨trivial, fun r => ?_⟩
  cases r with
  | error err => trivial
  | ok m =>
    cases m with
    | none => trivial
    | some m =>
      dsimp only
      split
      · trivial
      split
      · trivial
      refine ⟨trivial, fun now => ?_⟩
      dsimp only
      split
      · trivial
      refine ⟨trivial, fun r => ?_⟩
      cases r with
      | error err => trivial
      | ok conflict =>
        cases conflict with
        | true => trivial
        | false => exact ⟨trivial, fun id => uc.storeBooking_asked (by simp)⟩

theorem moveByPayment_asked (target : BookingStatus) (bookingID paymentID : String) :
    (moveByPayment target bookingID paymentID).After BlocksAsked [] := by
  unfold moveByPayment
  dsimp only
  split
  · trivial
  simp only [Prog.bind_eq, Prog.perform_bind, Prog.pure_eq, classifyBookingPaymentNoOp]
  refine ⟨trivial, fun r => ?_⟩
  cases r with
  | error err => trivial
  | ok found =>
    cases found with
    | true => trivial
    | false =>
      refine ⟨trivial, fun r => ?_⟩
      cases r with
      | error err => trivial
      | ok x =>
        cases x with
        | none => trivial
        | some x =>
          dsimp only
          split
          · trivial
          split <;> trivial

theorem handlePayment_asked (target : BookingStatus) (expected : String) (data : Option PaymentEventPayload) :
    (MasterSubscriber.handlePayment expected (moveByPayment target) data).After BlocksAsked [] := by
  unfold MasterSubscriber.handlePayment
  cases data with
  | none => trivial
  | some evt =>
    dsimp only
    split
    · trivial
    split
    · trivial
    exact Prog.After.bind (fun _ r => by cases r <;> trivial) (moveByPayment_asked target _ _)

theorem MasterCall.prog_asked (uc : MasterUseCase) (c : MasterCall) : (c.prog uc).After BlocksAsked [] := by
  cases c with
  | createBooking inp =>
    simp only [MasterCall.prog, Prog.bind_eq]
    exact Prog.After.bind (fun _ _ => by trivial) (uc.createBooking_asked inp)
  | paymentCompleted evt =>
    simp only [MasterCall.prog, Prog.bind_eq]
    exact Prog.After.bind (fun _ _ => by trivial) (handlePayment_asked .confirmed _ (some evt))
  | paymentFailed evt =>
    simp only [MasterCall.prog, Prog.bind_eq]
    exact Prog.After.bind (fun _ _ => by trivial) (handlePayment_asked .cancelled _ (some evt))

namespace MasterUseCase

/-- What is done with the profile of the caller has it behind it. -/
theorem ownProfile_after {α : Type} {P : ScheduleHistory → ScheduleOp → Prop} {userID : String}
    {next : Master → ScheduleProg (Except MasterErr α)} {h : ScheduleHistory} (hP : P h (.getByUserID userID))
    (hnext : ∀ m, (next m).After P (h ++ [⟨.getByUserID userID, .ok (some m)⟩])) : (ownProfile userID next).After P h := by
  simp only [ownProfile, Prog.bind_eq, Prog.perform_bind, Prog.pure_eq]
  refine ⟨hP, fun r => ?_⟩
  cases r with
  | error err => trivial
  | ok m =>
    cases m with
    | none => trivial
    | some m => exact hnext m

end MasterUseCase

theorem ScheduleCall.prog_prior (uc : MasterUseCase) (call : ScheduleCall) : (call.prog uc).After (call.Prior uc) [] := by
  cases call with
  | booking c =>
    simp only [ScheduleCall.prog, Prog.bind_eq, Prog.pure_eq]
    refine Prog.After.bind (fun _ _ => by trivial) (Prog.After.lift (Lifts.nil _ _) ((c.prog_asked uc).mono ?_))
    intro h o hask h' hlifts
    cases o with
    | insertBooking b =>
      obtain ⟨r, hr, rfl⟩ := hlifts _ hask
      exact hr
    | now | newUUID | getBySlug | hasSlotBlockConflict | createPayment | deleteBooking | setBookingPayment | getBookingByID
      | updateByPayment | selectPayment => trivial
  | createSlotBlock userID date timeFrom timeTo note =>
    simp only [ScheduleCall.prog, MasterUseCase.createSlotBlock, Prog.bind_eq, Prog.perform_bind, Prog.bind_call, Prog.pure_eq]
    refine ⟨trivial, fun now => ?_⟩
    dsimp only
    cases hcheck : uc.checkSlotBlock now date timeFrom timeTo note with
    | error err => trivial
    | ok checked =>
      refine Prog.After.bind (fun _ _ => by trivial) (MasterUseCase.ownProfile_after trivial fun m => ?_)
      refine ⟨trivial, fun id => ⟨⟨userID, date, timeFrom, timeTo, note, now, m, rfl, by simp, hcheck, rfl, by simp, rfl⟩, ?_⟩⟩
      intro r
      cases r <;> trivial
  | listSlotBlocks userID =>
    simp only [ScheduleCall.prog, MasterUseCase.listSlotBlocks, Prog.bind_eq, Prog.pure_eq]
    refine Prog.After.bind (fun _ _ => by trivial) (MasterUseCase.ownProfile_after trivial fun m => ?_)
    exact ⟨trivial, fun _ => trivial⟩
  | deleteSlotBlock userID blockID =>
    simp only [ScheduleCall.prog, MasterUseCase.deleteSlotBlock, Prog.bind_eq, Prog.pure_eq]
    refine Prog.After.bind (fun _ _ => by trivial) (MasterUseCase.ownProfile_after trivial fun m => ?_)
    refine ⟨⟨userID, m, rfl, by simp, rfl⟩, fun r => ?_⟩
    cases r with
    | error err => cases err <;> trivial
    | ok u => trivial

end Programs

/-! ## Over a run -/

/-- What a statement can do to the blocks. -/
inductive ScheduleOp.Effect (blocks : SlotBlocks) : ScheduleOp → SlotBlocks → Prop where
  | nothing (o : ScheduleOp) : Effect blocks o blocks
  | placed (b : MasterSlotBlock) (now : Time) (blocks' : SlotBlocks) : blocks.insert { b with createdAt := now } = .ok blocks' →
      Effect blocks (.insertSlotBlock b) blocks'
  | deleted (masterID blockID : String) :
      Effect blocks (.deleteSlotBlock masterID blockID) (blocks.delete fun b => b.id == blockID && b.masterID == masterID)

theorem ScheduleOp.Stmt.blocks {α : Type} {f : SlotBlocks → Except MasterErr α × SlotBlocks} {w w' : ScheduleWorld}
    {r : Except MasterErr α} (h : ScheduleOp.Stmt f w r w') : w'.blocks = w.blocks ∨ w'.blocks = (f w.blocks).2 := by
  obtain ⟨fault, hrun⟩ := h
  rcases fault.apply_state .other (onSlotBlocks f) w with hw | hw
  · exact .inl (by rw [← hw, hrun])
  · rw [hrun] at hw
    exact .inr (congrArg ScheduleWorld.blocks hw)

theorem ScheduleOp.Exec.effect {o : ScheduleOp} {w w' : ScheduleWorld} {r : o.Res} (h : ScheduleOp.Exec o w r w') :
    o.Effect w.blocks w'.blocks := by
  have hsame : w'.blocks = w.blocks → o.Effect w.blocks w'.blocks := fun heq => heq ▸ .nothing o
  cases o with
  | booking o =>
    cases o with
    | hasSlotBlockConflict => exact hsame (h.blocks.elim id id)
    | now | newUUID | getBySlug | createPayment | insertBooking | deleteBooking | setBookingPayment | getBookingByID
      | updateByPayment | selectPayment => exact hsame h.2
  | getByUserID userID => exact hsame (congrArg _ h)
  | insertSlotBlock b =>
    obtain ⟨now, hstmt⟩ := h
    rcases hstmt.blocks with heq | heq
    · exact hsame heq
    · unfold MasterRepo.insertSlotBlock at heq
      split at heq
      · exact hsame heq
      · rename_i blocks' hi
        exact heq ▸ .placed b now blocks' hi
  | deleteSlotBlock masterID blockID =>
    rcases ScheduleOp.Stmt.blocks h with heq | heq
    · exact hsame heq
    · unfold MasterRepo.deleteSlotBlock at heq
      split at heq
      · exact heq ▸ .deleted masterID blockID
      · exact hsame heq
  | listSlotBlocksByMaster masterID =>
    obtain ⟨today, hstmt⟩ := h
    exact hsame (hstmt.blocks.elim id id)

/-- A block that is not deleted stays. -/
theorem ScheduleOp.Effect.keeps {o : ScheduleOp} {blocks blocks' : SlotBlocks} (h : o.Effect blocks blocks') {b : MasterSlotBlock}
    (hb : b ∈ blocks.rows) (ho : o ≠ .deleteSlotBlock b.masterID b.id) : b ∈ blocks'.rows := by
  cases h with
  | nothing => exact hb
  | placed b' now blocks' hi =>
    rw [Table.insert_rows hi]
    exact List.mem_append_left _ hb
  | deleted masterID blockID =>
    refine List.mem_filter.2 ⟨hb, ?_⟩
    by_contra hgone
    simp only [Bool.not_eq_true', Bool.not_eq_false, Bool.and_eq_true, beq_iff_eq] at hgone
    rw [← hgone.1, ← hgone.2] at ho
    exact ho rfl

section Runs

variable {uc : MasterUseCase} {w₀ : ScheduleWorld} {tr tr₁ tr₂ tr₃ : List ScheduleMoment} {d m : ScheduleMoment}
  {c : Config ScheduleWorld ScheduleCall ScheduleOp ScheduleOp.Res ScheduleReply}

/-- An answer that there is no conflict with a block. -/
def Unaware (b : MasterSlotBlock) : Event ScheduleOp ScheduleOp.Res → Prop
  | ⟨.booking (.hasSlotBlockConflict masterID date timeFrom timeTo), .ok false⟩ =>
    masterID = b.masterID ∧ b.conflicts date timeFrom timeTo = true
  | _ => False

/-- Who asks while a block is there is told of it. -/
theorem not_unaware {b : MasterSlotBlock} {o : ScheduleOp} {w w' : ScheduleWorld} {r : o.Res} (h : ScheduleOp.Exec o w r w')
    (hb : b ∈ w.blocks.rows) : ¬ Unaware b ⟨o, r⟩ := by
  intro hu
  unfold Unaware at hu
  split at hu
  · rename_i masterID date timeFrom timeTo heq
    cases heq
    obtain ⟨fault, hrun⟩ := h
    have hfree := Except.ok.inj (Prod.mk.inj (Fault.of_ok hrun)).1
    have hmeets := List.any_eq_false.1 hfree b hb
    rw [hu.1, hu.2, beq_self_eq_true] at hmeets
    exact hmeets rfl
  · exact hu

/-- **No booking that is begun while a block stands takes a minute of it.**  From a moment at which the block is there and up to
the moment at which the row of a booking is written, the block is not deleted, and the call of the booking starts in between. -/
theorem blocked_time (h : (scheduleSys uc).Trace w₀ (tr₁ ++ d :: (tr₂ ++ m :: tr₃)) c) {b : MasterSlotBlock} {bk : MasterBooking}
    (hb : b ∈ d.after.blocks.rows) (hkept : ∀ x ∈ tr₂, x.op ≠ .deleteSlotBlock b.masterID b.id)
    (hm : m.op = .booking (.insertBooking bk)) (hlater : m.thread ∈ m.before.threads.drop d.before.threads.length)
    (hmaster : bk.masterID = b.masterID) : ∀ date minute, ¬ (b.covers date minute ∧ bk.takes date minute) := by
  rintro date minute ⟨hcov, htakes⟩
  have hconf := MasterSlotBlock.conflicts_of_meet hcov htakes
  have hmem : m ∈ tr₁ ++ d :: (tr₂ ++ m :: tr₃) := by simp
  have hprior := h.prior (ScheduleCall.prog_prior uc) m hmem
  rw [hm] at hprior
  have htrace : (scheduleSys uc).Trace w₀ (tr₁ ++ d :: tr₂) m.before := h.before (show tr₁ ++ d :: (tr₂ ++ m :: tr₃) = (tr₁ ++ d :: tr₂) ++ m :: tr₃ by simp)
  obtain ⟨-, hasked⟩ := htrace.since (F := fun w => b ∈ w.blocks.rows) (E := fun e => ¬ Unaware b e) hb
    (fun x hx hstep hbx => ⟨hstep.exec.effect.keeps hbx (hkept x hx), not_unaware hstep.exec hbx⟩)
    (fun w w' he hbw => by rw [he.2]; exact hbw)
  exact hasked m.thread hlater _ hprior ⟨hmaster, hconf⟩

theorem checkSlotBlock_eq_ok {now : Time} {date timeFrom timeTo note : String} {checked : Date × Option (TimeOfDay × TimeOfDay)}
    (h : uc.checkSlotBlock now date timeFrom timeTo note = .ok checked) : (trimSpace note).length ≤ maxSlotBlockNote ∧
      validateSlotBlockDate (uc.moscowDate now) (trimSpace date) = .ok checked.1 ∧
      validateSlotBlockInterval (trimSpace timeFrom) (trimSpace timeTo) = .ok checked.2 := by
  unfold MasterUseCase.checkSlotBlock at h
  by_cases hnote : maxSlotBlockNote < (trimSpace note).length
  · rw [if_pos hnote] at h
    cases h
  rw [if_neg hnote] at h
  cases hdate : validateSlotBlockDate (uc.moscowDate now) (trimSpace date) with
  | error err =>
    rw [hdate] at h
    cases h
  | ok d =>
    rw [hdate] at h
    dsimp only at h
    cases hint : validateSlotBlockInterval (trimSpace timeFrom) (trimSpace timeTo) with
    | error err =>
      rw [hint] at h
      cases h
    | ok i =>
      rw [hint] at h
      obtain rfl := Except.ok.inj h
      exact ⟨Nat.le_of_not_lt hnote, rfl, rfl⟩

theorem validateSlotBlockDate_window {today : Date} {date : String} {parsed : Date} (h : validateSlotBlockDate today date = .ok parsed) :
    today.dayNumber ≤ parsed.dayNumber ∧ parsed.dayNumber ≤ today.dayNumber + slotBlockMaxAdvanceDays := by
  unfold validateSlotBlockDate at h
  cases hp : Date.parse date with
  | none =>
    rw [hp] at h
    cases h
  | some d =>
    rw [hp] at h
    dsimp only at h
    by_cases hpast : d.dayNumber < today.dayNumber
    · rw [if_pos hpast] at h
      cases h
    rw [if_neg hpast] at h
    by_cases hfar : today.dayNumber + slotBlockMaxAdvanceDays < d.dayNumber
    · rw [if_pos hfar] at h
      cases h
    rw [if_neg hfar] at h
    obtain rfl := Except.ok.inj h
    omega

/-- A block as its call may place it: on the schedule of the caller, on a day from today to a year ahead, for the whole day if
and only if the call names no times. -/
structure MasterSlotBlock.PlacedBy (uc : MasterUseCase) (b : MasterSlotBlock) (m : ScheduleMoment) : Prop where
  placed : ∃ b', m.op = .insertSlotBlock b' ∧ ∃ now, b = { b' with createdAt := now }
  call : ∃ userID date timeFrom timeTo note p now, m.thread.call = .createSlotBlock userID date timeFrom timeTo note ∧
    ⟨.getByUserID userID, .ok (some p)⟩ ∈ m.thread.did ∧ p.id = b.masterID ∧ b.note = trimSpace note ∧
    ⟨.booking .now, now⟩ ∈ m.thread.did ∧ (uc.moscowDate now).dayNumber ≤ b.date.dayNumber ∧
    b.date.dayNumber ≤ (uc.moscowDate now).dayNumber + slotBlockMaxAdvanceDays ∧
    (b.interval = none ↔ trimSpace timeFrom = "" ∧ trimSpace timeTo = "")

theorem validateSlotBlockInterval_none {timeFrom timeTo : String} {i : Option (TimeOfDay × TimeOfDay)}
    (h : validateSlotBlockInterval timeFrom timeTo = .ok i) : i = none ↔ timeFrom = "" ∧ timeTo = "" := by
  unfold validateSlotBlockInterval at h
  by_cases hnone : timeFrom = "" ∧ timeTo = ""
  · rw [if_pos hnone] at h
    obtain rfl := Except.ok.inj h
    exact ⟨fun _ => hnone, fun _ => rfl⟩
  · rw [if_neg hnone] at h
    refine ⟨fun hi => ?_, fun hboth => absurd hboth hnone⟩
    subst hi
    split at h
    · cases h
    · split at h
      · cases h
      · split at h
        · cases h
        · split at h <;> cases h

/-- **A block comes and goes by its master.**  Every block has been there from the start or is placed by a call of its master, who
is told of no other profile; and one that goes is deleted by a call of its master that names it. -/
theorem blocks_by_master (h : (scheduleSys uc).Trace w₀ tr c) :
    (∀ b ∈ c.world.blocks.rows, b ∈ w₀.blocks.rows ∨ ∃ m ∈ tr, b.PlacedBy uc m) ∧
      ∀ m ∈ tr, ∀ b ∈ m.before.world.blocks.rows, b ∉ m.after.blocks.rows →
        ∃ userID p, m.thread.call = .deleteSlotBlock userID b.id ∧ ⟨.getByUserID userID, .ok (some p)⟩ ∈ m.thread.did ∧
          p.id = b.masterID := by
  have hprior := h.prior (ScheduleCall.prog_prior uc)
  constructor
  · intro b hb
    by_contra hnone
    obtain ⟨hstart, hplaced⟩ := not_or.1 hnone
    refine absurd hb ?_
    refine h.keeps (P := fun m => m.Step (scheduleSys uc) ∧ m.thread.call.Prior uc m.thread.did m.op ∧ ¬ b.PlacedBy uc m)
      (F := fun w => b ∉ w.blocks.rows) (fun m hm => ⟨h.steps m hm, hprior m hm, fun hp => hplaced ⟨m, hm, hp⟩⟩) ?_ ?_
      (.inr hstart)
    · rintro m ⟨hstep, hpr, hnot⟩ hbefore hafter
      obtain ⟨cfg, t, o, r, w'⟩ := m
      have heff := hstep.exec.effect
      dsimp only at hpr hbefore hafter heff
      generalize hblocks : w'.blocks = blocks' at hafter heff
      cases heff with
      | nothing => exact hbefore hafter
      | placed b' now blocks' hi =>
        rw [Table.insert_rows hi] at hafter
        rcases List.mem_append.1 hafter with hold | hnew
        · exact hbefore hold
        · obtain rfl := List.mem_singleton.1 hnew
          obtain ⟨userID, date, timeFrom, timeTo, note, now', p, hcall, hnow, hcheck, hnote, hp, hid⟩ := hpr
          obtain ⟨-, hdate, hint⟩ := checkSlotBlock_eq_ok hcheck
          obtain ⟨hpast, hfar⟩ := validateSlotBlockDate_window hdate
          exact hnot ⟨⟨b', rfl, now, rfl⟩, userID, date, timeFrom, timeTo, note, p, now', hcall, hp, hid, hnote, hnow, hpast, hfar,
            validateSlotBlockInterval_none hint⟩
      | deleted masterID blockID => exact hbefore (List.mem_filter.1 hafter).1
    · intro w w' he hw
      rw [he.2]
      exact hw
  · intro m hm b hb hgone
    have hpr := hprior m hm
    by_cases ho : m.op = .deleteSlotBlock b.masterID b.id
    · rw [ho] at hpr
      exact hpr
    · exact absurd ((h.steps m hm).exec.effect.keeps hb ho) hgone

end Runs

/-! ## A run -/

/-- An operation that does not fail, as it is computed. -/
def ScheduleOp.turn (env : MasterEnv) : (o : ScheduleOp) → ScheduleWorld → Option (o.Res × ScheduleWorld)
  | booking (.hasSlotBlockConflict masterID date timeFrom timeTo), w =>
    some (.ok (MasterRepo.hasSlotBlockConflict masterID date timeFrom timeTo w.blocks), w)
  | booking o, w =>
    if isUUID env.newID = true ∧ env.newID ∉ w.saga.issued ∧ isUUID env.payment.id = true ∧ ∀ p ∈ w.saga.payments, p.id ≠ env.payment.id
    then some ((o.run env w.saga).1, { w with saga := (o.run env w.saga).2 })
    else none
  | getByUserID _, w => some (env.getBySlug, w)
  | insertSlotBlock b, w => some (onSlotBlocks (MasterRepo.insertSlotBlock env.now b) w)
  | deleteSlotBlock masterID blockID, w => some (onSlotBlocks (MasterRepo.deleteSlotBlock masterID blockID) w)
  | listSlotBlocksByMaster masterID, w =>
    some (onSlotBlocks (fun blocks => (.ok (MasterRepo.listSlotBlocksByMaster ⟨2026, 1, 1⟩ masterID blocks), blocks)) w)

theorem ScheduleOp.exec_of_turn (env : MasterEnv) (o : ScheduleOp) (w : ScheduleWorld) (r : o.Res) (w' : ScheduleWorld)
    (h : o.turn env w = some (r, w')) : ScheduleOp.Exec o w r w' := by
  cases o with
  | booking o =>
    have hother : (if isUUID env.newID = true ∧ env.newID ∉ w.saga.issued ∧ isUUID env.payment.id = true ∧
          ∀ p ∈ w.saga.payments, p.id ≠ env.payment.id
        then some ((o.run env w.saga).1, ({ w with saga := (o.run env w.saga).2 } : ScheduleWorld)) else none) = some (r, w') →
        o.Exec w.saga r w'.saga ∧ w'.blocks = w.blocks := by
      intro h
      split at h
      · rename_i hfresh
        obtain ⟨rfl, rfl⟩ := Prod.mk.inj (Option.some.inj h)
        exact ⟨⟨env, hfresh.1, hfresh.2.1, hfresh.2.2.1, hfresh.2.2.2, rfl⟩, rfl⟩
      · cases h
    cases o with
    | hasSlotBlockConflict masterID date timeFrom timeTo =>
      obtain ⟨rfl, rfl⟩ := Prod.mk.inj (Option.some.inj h)
      exact ⟨.none, rfl⟩
    | now | newUUID | getBySlug | createPayment | insertBooking | deleteBooking | setBookingPayment | getBookingByID
      | updateByPayment | selectPayment => exact hother h
  | getByUserID userID => exact ((Prod.mk.inj (Option.some.inj h)).2).symm
  | insertSlotBlock b => exact ⟨env.now, .none, Option.some.inj h⟩
  | deleteSlotBlock masterID blockID => exact ⟨.none, Option.some.inj h⟩
  | listSlotBlocksByMaster masterID => exact ⟨⟨2026, 1, 1⟩, .none, Option.some.inj h⟩

/-- Anna is away from half past ten to noon, and is booked at noon. -/
def annasNoon : List (Move ScheduleCall MasterEnv) :=
  [.start (.createSlotBlock anna.id "2026-01-02" "10:30" "12:00" "away")] ++
    List.replicate 4 (.step 0 (annasEnv laterID annasPaymentID)) ++
    [.start (.booking (.createBooking { annasInput with timeFrom := "12:00", timeTo := "13:00" }))] ++
    List.replicate 4 (.step 1 (annasEnv annasBookingID annasPaymentID)) ++ [.step 1 (annasEnv anna.id annasPaymentID)]

def annasBlock : MasterSlotBlock := ⟨laterID, anna.id, ⟨2026, 1, 2⟩, some (⟨10, 30⟩, ⟨12, 0⟩), "away", 0⟩

def annasNoonBooking : MasterBooking := { annasBooking with timeFrom := ⟨12, 0⟩, timeTo := ⟨13, 0⟩ }

theorem annasNoon_ready (c : ScheduleCall) (w : ScheduleWorld) (h : .start c ∈ annasNoon) : (scheduleSys annasUseCase).ready c w := by
  simp only [annasNoon, List.mem_append, List.mem_singleton, List.mem_replicate, Move.start.injEq, reduceCtorEq, and_false,
    or_false] at h
  rcases h with rfl | rfl <;> trivial

theorem blocked_time_noon : ∃ tr₁ d tr₂ m tr₃ c, (scheduleSys annasUseCase).Trace ⟨annasEmpty, .empty _⟩
      (tr₁ ++ d :: (tr₂ ++ m :: tr₃)) c ∧ annasBlock ∈ d.after.blocks.rows ∧ m.op = .booking (.insertBooking annasNoonBooking) ∧
    ∀ date minute, ¬ (annasBlock.covers date minute ∧ annasNoonBooking.takes date minute) := by
  have hplay : (play (scheduleSys annasUseCase).prog ScheduleOp.turn annasNoon ⟨⟨annasEmpty, .empty _⟩, []⟩).any
      (fun x => x.1[3]?.any fun d => d.after.blocks.rows.contains annasBlock && d.before.threads.length == 1 &&
        ((x.1.drop 4).take 4).all (fun m => m.op != .deleteSlotBlock annasBlock.masterID annasBlock.id) &&
        (x.1.drop 4)[4]?.any fun m => m.op == .booking (.insertBooking annasNoonBooking) &&
          (m.before.threads.take 1).all fun t => t.call != m.thread.call) = true := by decide +kernel
  obtain ⟨tr₁, d, tr', c, ht, hQ⟩ := Sys.Trace.played_at (Q := fun _ d tr =>
      d.after.blocks.rows.contains annasBlock && d.before.threads.length == 1 &&
        (tr.take 4).all (fun m => m.op != .deleteSlotBlock annasBlock.masterID annasBlock.id) &&
        tr[4]?.any fun m => m.op == .booking (.insertBooking annasNoonBooking) &&
          (m.before.threads.take 1).all fun t => t.call != m.thread.call)
    ScheduleOp.exec_of_turn annasNoon annasNoon_ready 3 hplay
  simp only [Bool.and_eq_true, List.all_eq_true, Option.any_eq_true, bne_iff_ne, beq_iff_eq, List.contains_iff_mem] at hQ
  obtain ⟨⟨⟨hblock, hlen⟩, hkept⟩, m, hm, hop, hother⟩ := hQ
  have htr : tr' = tr'.take 4 ++ m :: tr'.drop 5 := (take_cons_drop hm).1
  rw [htr] at ht
  have hstep := ht.steps m (by simp)
  refine ⟨tr₁, d, _, m, _, c, ht, hblock, hop, blocked_time ht hblock hkept hop ?_ rfl⟩
  obtain ⟨ts₁, ts₂, k, hts, -⟩ := hstep.thread
  have hmem : m.thread ∈ m.before.threads.take 1 ++ m.before.threads.drop 1 := by
    rw [List.take_append_drop, hts]
    exact List.mem_append_right _ List.mem_cons_self
  rw [hlen]
  exact (List.mem_append.1 hmem).resolve_left fun hin => hother _ hin rfl

theorem blocks_by_master_noon : ∃ tr c, (scheduleSys annasUseCase).Trace ⟨annasEmpty, .empty _⟩ tr c ∧ tr ≠ [] ∧
    ∀ b ∈ c.world.blocks.rows, ∃ m ∈ tr, b.PlacedBy annasUseCase m := by
  have hplay : (play (scheduleSys annasUseCase).prog ScheduleOp.turn annasNoon ⟨⟨annasEmpty, .empty _⟩, []⟩).any
      (fun x => x.1[3]?.any fun d => d.after.blocks.rows.contains annasBlock) = true := by decide +kernel
  obtain ⟨tr₁, d, tr₂, c, ht, -⟩ := Sys.Trace.played_at (Q := fun _ d _ => d.after.blocks.rows.contains annasBlock)
    ScheduleOp.exec_of_turn annasNoon annasNoon_ready 3 hplay
  refine ⟨_, c, ht, by simp, fun b hb => ?_⟩
  exact ((blocks_by_master ht).1 b hb).resolve_left List.not_mem_nil

end Agregator
