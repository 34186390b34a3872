import Agregator.BookEvents
import Agregator.BookOutbox
import Agregator.CrmGuests
import Agregator.SlotFacts
/-!
# BookVisits — completed visits on their way to the CRM

`booking.completed` is published from row references that carry the keys of a booking only, so its date, its guests and its
price are those of an empty row.  It tells of its booking what the database does exactly when the booking is an empty one
too; and where it does, and no booking leaves a final status, the profile of a guest counts the visits that are stored.
-/
namespace Agregator

open Rel Conc

/-! ## The service and the broker -/

/-- The database and what the direct publisher has sent to the broker. -/
structure VisitWorld where
  db : BookingDB
  published : List BookingEventPayload

/-- All the events of the bookings: those of the outbox, which the poller relays, and those published directly. -/
def VisitWorld.events (w : VisitWorld) : List BookingEventPayload := w.db.outbox.map (·.payload) ++ w.published

/-- What a call does to the broker; an event whose publication is reported as failed may have been sent. -/
inductive Sent : (o : BookOp) → o.Res → List BookingEventPayload → List BookingEventPayload → Prop
  | publish (p : BookingEventPayload) (r : Except Err Unit) (l : List BookingEventPayload) :
      Sent (.publishBookingCompleted p) r l (l ++ [p])
  | lost (p : BookingEventPayload) (e : Err) (l : List BookingEventPayload) : Sent (.publishBookingCompleted p) (.error e) l l
  | other (o : BookOp) (r : o.Res) (l : List BookingEventPayload) : (∀ p, o ≠ .publishBookingCompleted p) → Sent o r l l

def VisitWorld.Exec (loc : Location) (o : BookOp) (w : VisitWorld) (r : o.Res) (w' : VisitWorld) : Prop :=
  BookOp.Exec loc o w.db r w'.db ∧ Sent o r w.published w'.published

def visitSys (uc : BookingUseCase) : Sys VisitWorld BookCall BookOp BookOp.Res (Option Err) where
  prog := BookCall.prog uc
  ready _ _ := True
  exec := VisitWorld.Exec uc.loc
  env _ _ := False

abbrev VisitMoment := Moment VisitWorld BookCall BookOp BookOp.Res (Option Err)

abbrev VisitConfig := Config VisitWorld BookCall BookOp BookOp.Res (Option Err)

/-! ## What is to hold, and when -/

/-- What `booking.completed` is to tell of a booking. -/
def Booking.visit (b : Booking) : BookingEventPayload := (newBookingEvent .completed { b with status := .completed }).payload

/-- What it does tell. -/
def Booking.refVisit (ref : Booking) : BookingEventPayload where
  bookingID := ref.id
  userID := ref.userID
  venueID := ref.venueID
  status := BookingStatus.completed.string
  totalPrice := 0
  date := "0001-01-01"
  guests := 0

/-- The visits of a guest at a venue that are stored. -/
def BookingDB.visits (db : BookingDB) (venueID userID : String) : List Booking :=
  db.bookings.select fun b => b.venueID == venueID && b.userID == userID && b.status == .completed

/-- The events of a guest at a venue have been applied, those of the completed bookings among them. -/
structure Relayed (w : VisitWorld) (calls : List FactCall) (venueID userID : String) : Prop where
  only : ∀ c ∈ calls, ∃ ev ∈ w.events, bookingEventToFact ev = .ok c.fact
  each : ∀ ev ∈ w.events, ev.venueID = venueID → ev.userID = userID → ∃ f, bookingEventToFact ev = .ok f ∧ Answered calls f
  sent : ∀ b ∈ w.db.visits venueID userID, ∃ ev ∈ w.published, ev.bookingID = b.id

/-- The profile of a guest tells of the visits that are stored. -/
structure GuestTotals (db : BookingDB) (crm : CrmDB) (venueID userID : String) : Prop where
  spent : ((crm.profile venueID userID).map (·.totalSpent)).getD 0 = ((db.visits venueID userID).map (·.totalPrice)).sum
  first : (crm.profile venueID userID).bind (·.firstVisitAt) =
    ((db.visits venueID userID).map fun b => (b.date.dayNumber : ℤ)).min?
  last : (crm.profile venueID userID).bind (·.lastVisitAt) =
    ((db.visits venueID userID).map fun b => (b.date.dayNumber : ℤ)).max?

/-- Completed visits reach the CRM as they are stored. -/
structure VisitsFaithful (w : VisitWorld) : Prop where
  carried : ∀ ev ∈ w.published, ∃ b, w.db.find ev.bookingID = some b ∧ ev = b.visit
  totals : ∀ calls v u, Relayed w calls v u → GuestTotals w.db (CrmDB.empty.after calls) v u

/-- A booking that is announced as completed is one without a price, without guests and of the zero date. -/
def ZeroVisit (m : VisitMoment) : Prop :=
  ∀ p, m.op = .publishBookingCompleted p → ∀ b, m.before.world.db.find p.bookingID = some b →
    b.totalPrice = 0 ∧ b.guests = 0 ∧ b.date = ⟨1, 1, 1⟩

/-- A write by id finds its booking in no final status but the one it writes. -/
def EndKept (m : VisitMoment) : Prop :=
  m.after.db ≠ m.before.world.db → ∀ i s b, m.op.target = some (i, s) → m.before.world.db.find i = some b →
    b.status.isTerminal = true → s = some b.status

/-- Before the run nothing has been announced. -/
structure VisitWorld.Opening (w : VisitWorld) : Prop where
  keys : w.db.Opening
  silent : w.events = []

/-! ## What the calls publish -/

/-- A row reference that the call was given. -/
def Listed (h : BookEventLog) (ref : Booking) : Prop :=
  (∃ refs, ⟨.autoCompleteVisitEnded, .ok refs⟩ ∈ h ∧ ref ∈ refs) ∨
    ∃ n refs, ⟨.findUnpublishedCompleted n, .ok refs⟩ ∈ h ∧ ref ∈ refs

/-- What a call has behind it when it announces something. -/
def VisitPrior (h : BookEventLog) : BookOp → Prop
  | .setPaymentAndStatus id _ _ _ ev => ∃ d b pid url, ⟨.create d, .ok b⟩ ∈ h ∧ id = b.id ∧
      ev = newBookingEvent .created { b with status := .paymentPending, paymentID := pid, paymentURL := url }
  | .publishBookingCompleted p => ∃ ref, Listed h ref ∧ p = ref.refVisit
  | _ => True

section Programs

open BookingUseCase

variable {h : BookEventLog}

theorem Listed.mono {h' : BookEventLog} {ref : Booking} (hl : Listed h ref) (hh : ∀ e ∈ h, e ∈ h') : Listed h' ref := by
  rcases hl with ⟨refs, hm, hr⟩ | ⟨n, refs, hm, hr⟩
  · exact .inl ⟨refs, hh _ hm, hr⟩
  · exact .inr ⟨n, refs, hh _ hm, hr⟩

theorem undoBooking_visit (b : Booking) (err : Err) : (undoBooking b err).After VisitPrior h :=
  ⟨trivial, fun _ => ⟨trivial, fun _ => trivial⟩⟩

theorem storeBooking_visit (uc : BookingUseCase) (draft : Booking) (req : String → ReserveSlotRequest) :
    (uc.storeBooking draft req).After VisitPrior h := by
  refine ⟨trivial, fun r => ?_⟩
  cases r with
  | error err => trivial
  | ok b =>
    refine ⟨trivial, fun r => ?_⟩
    cases r with
    | error err => exact ⟨trivial, fun _ => trivial⟩
    | ok _ =>
      refine ⟨trivial, fun r => ?_⟩
      cases r with
      | error err => exact undoBooking_visit b _
      | ok pay =>
        refine ⟨⟨draft, b, pay.id, pay.paymentURL, by simp, rfl, rfl⟩, fun r => ?_⟩
        cases r with
        | error err => exact undoBooking_visit _ _
        | ok _ => trivial

theorem createBooking_visit (uc : BookingUseCase) (input : CreateBookingInput) :
    (uc.createBooking input).After VisitPrior h := by
  unfold BookingUseCase.createBooking
  split
  · trivial
  · refine ⟨trivial, fun r => ?_⟩
    rcases r with err | _ | v
    · trivial
    · trivial
    · dsimp only [Prog.bind_ret]
      split
      · trivial
      · refine ⟨trivial, fun r => ?_⟩
        rcases r with err | _ | _
        · trivial
        · trivial
        · refine ⟨trivial, fun now => ?_⟩
          dsimp only [Prog.bind_ret]
          split
          · trivial
          · exact storeBooking_visit uc _ _

theorem publishCompleted_visit (refs : List Booking) :
    ∀ {h : BookEventLog}, (∀ ref ∈ refs, Listed h ref) → (publishCompleted refs).After VisitPrior h := by
  induction refs with
  | nil => exact fun _ => trivial
  | cons ref refs ih =>
    intro h hl
    have hmore : ∀ {l : BookEventLog}, ∀ x ∈ refs, Listed (h ++ l) x := fun x hx =>
      (hl x (List.mem_cons_of_mem _ hx)).mono fun e he => List.mem_append_left _ he
    simp only [publishCompleted, Prog.bind_eq, Prog.perform_bind]
    refine ⟨⟨ref, hl ref List.mem_cons_self, rfl⟩, fun r => ?_⟩
    cases r with
    | error _ => exact ih hmore
    | ok _ =>
      refine ⟨trivial, fun r => Prog.After.bind (fun _ _ => by trivial) (ih ?_)⟩
      rw [List.append_assoc]
      exact hmore

theorem autoCompletePastVisits_visit : autoCompletePastVisits.After VisitPrior h := by
  simp only [autoCompletePastVisits, Prog.bind_eq, Prog.perform_bind]
  refine ⟨trivial, fun r => ?_⟩
  cases r with
  | error err => trivial
  | ok refs =>
    refine Prog.After.bind (fun h _ => ?_) (publishCompleted_visit refs fun ref hr => .inl ⟨refs, by simp, hr⟩)
    refine ⟨trivial, fun r => Prog.After.bind (fun h _ => ?_) (publishCompleted_visit _ fun ref hr => ?_)⟩
    · exact ⟨trivial, fun _ => trivial⟩
    · cases r with
      | error _ => cases hr
      | ok more => exact .inr ⟨100, more, by simp, hr⟩

/-- The calls that only confirm and cancel announce nothing of this kind. -/
theorem lifecycle_visit {α : Type} {p : BookProg α} (hp : p.All BookOp.Lifecycle) : p.After VisitPrior h := by
  refine (hp.mono fun o ho => ?_).after
  intro h
  cases o with
  | setPaymentAndStatus | publishBookingCompleted => cases ho
  | getVenue | checkSlotAvailability | reserveSlot | releaseSlot | createPayment | now | getByID |
      findUnpublishedCompleted | findExpiredPaymentPending | create | confirmPayment | autoCompleteVisitEnded |
      markCompletedEventSent | deleteOrphanPending | cancelWithEvent | updateStatus | delete => trivial

theorem completeBooking_visit (id : String) : (completeBooking id).After VisitPrior h := by
  refine ⟨trivial, fun r => ?_⟩
  cases r with
  | error err => trivial
  | ok b =>
    dsimp only [Prog.bind_ret]
    split
    · trivial
    · refine ⟨trivial, fun r => ?_⟩
      cases r <;> trivial

theorem BookCall.prog_visit (uc : BookingUseCase) (c : BookCall) : (c.prog uc).After VisitPrior [] := by
  cases c with
  | createBooking input => exact Prog.After.bind (fun _ _ => by trivial) (createBooking_visit uc input)
  | cancelBooking id userID => exact Prog.After.bind (fun _ _ => by trivial) (lifecycle_visit (cancelBooking_all uc id userID))
  | confirmBooking id paymentID => exact ⟨trivial, fun r => by cases r <;> trivial⟩
  | completeBooking id => exact Prog.After.bind (fun _ _ => by trivial) (completeBooking_visit id)
  | cancelBookingByPayment bookingID => exact lifecycle_visit (cancelBookingByPayment_all bookingID)
  | autoCompletePastVisits => exact Prog.After.bind (fun _ _ => by trivial) autoCompletePastVisits_visit
  | expireUnpaidBookings => exact Prog.After.bind (fun _ _ => by trivial) (lifecycle_visit expireUnpaidBookings_all)

end Programs

/-! ## What the answers and the events have told -/

/-- The booking is still the one that was read, whatever has become of its status and its payment. -/
def Booking.SameVisit (b b' : Booking) : Prop := b'.visit = b.visit ∧ b'.date = b.date

theorem kept_visit (p : BookingEventPayload → Date → Prop) : Kept fun b => p b.visit b.date := by
  intro o j b b' h hb
  cases o with
  | setPaymentAndStatus =>
    obtain ⟨-, -, now, rfl⟩ := h
    exact hb
  | cancelWithEvent | updateStatus | autoCompleteVisitEnded | markCompletedEventSent =>
    obtain ⟨-, now, rfl⟩ := h
    exact hb
  | confirmPayment =>
    obtain ⟨-, -, now, rfl⟩ := h
    exact hb
  | getVenue | checkSlotAvailability | reserveSlot | releaseSlot | createPayment | publishBookingCompleted | now |
      getByID | findUnpublishedCompleted | findExpiredPaymentPending | create | delete | deleteOrphanPending => cases h

/-- A row reference is one of a booking that is completed, and stays so. -/
def BookingDB.Ended (db : BookingDB) (ref : Booking) : Prop :=
  db.status ref.id = some .completed ∧ db.Always ref.id ref.SameVisit

/-- What an answer tells of the bookings. -/
def VisitTold (db : BookingDB) : Event BookOp BookOp.Res → Prop
  | ⟨.create _, .ok b⟩ => db.Always b.id b.SameVisit
  | ⟨.getByID id, .ok b⟩ => b.id = id ∧ db.Always id b.SameVisit
  | ⟨.autoCompleteVisitEnded, .ok refs⟩ => ∀ ref ∈ refs, db.Ended ref
  | ⟨.findUnpublishedCompleted _, .ok refs⟩ => ∀ ref ∈ refs, db.Ended ref
  | _ => True

/-- What an event says is so: its booking is of its guest and its venue, and has its status when that is a final one. -/
structure VisitSaid (db : BookingDB) (ev : BookingEventPayload) : Prop where
  guest : db.Always ev.bookingID fun b => b.visit.venueID = ev.venueID ∧ b.visit.userID = ev.userID
  completed : ev.status = "completed" → db.status ev.bookingID = some .completed ∧
    db.Always ev.bookingID fun b => ev = b.visit ∧ b.date = ⟨1, 1, 1⟩
  cancelled : ev.status = "cancelled" → db.status ev.bookingID = some .cancelled

/-- The database later: what was always so of a booking still is, and a final status has stayed. -/
structure VisitLasts (db db' : BookingDB) : Prop where
  always : Lasts db db'
  final : ∀ id s, s.isTerminal = true → db.status id = some s → db'.status id = some s

section Lasts

variable {db db' : BookingDB}

theorem BookingDB.Ended.lasts {ref : Booking} (hl : VisitLasts db db') (h : db.Ended ref) : db'.Ended ref :=
  ⟨hl.final _ _ rfl h.1, hl.always _ _ (kept_visit fun v d => v = ref.visit ∧ d = ref.date) h.2⟩

theorem VisitSaid.lasts {ev : BookingEventPayload} (hl : VisitLasts db db') (h : VisitSaid db ev) : VisitSaid db' ev := by
  refine ⟨hl.always _ _ (kept_visit fun v _ => v.venueID = ev.venueID ∧ v.userID = ev.userID) h.guest, fun hs => ?_,
    fun hs => hl.final _ _ rfl (h.cancelled hs)⟩
  obtain ⟨hdone, hsame⟩ := h.completed hs
  exact ⟨hl.final _ _ rfl hdone, hl.always _ _ (kept_visit fun v d => ev = v ∧ d = ⟨1, 1, 1⟩) hsame⟩

theorem VisitTold.lasts {e : Event BookOp BookOp.Res} (hl : VisitLasts db db') (h : VisitTold db e) : VisitTold db' e := by
  have hsame : ∀ id (b : Booking), db.Always id b.SameVisit → db'.Always id b.SameVisit := fun id b =>
    hl.always id _ (kept_visit fun v d => v = b.visit ∧ d = b.date)
  obtain ⟨o, r⟩ := e
  cases o with
  | create d =>
    cases r with
    | error err => trivial
    | ok b => exact hsame _ _ h
  | getByID id =>
    cases r with
    | error err => trivial
    | ok b => exact ⟨h.1, hsame _ _ h.2⟩
  | autoCompleteVisitEnded =>
    cases r with
    | error err => trivial
    | ok refs => exact fun ref hr => (h ref hr).lasts hl
  | findUnpublishedCompleted n =>
    cases r with
    | error err => trivial
    | ok refs => exact fun ref hr => (h ref hr).lasts hl
  | getVenue | checkSlotAvailability | reserveSlot | releaseSlot | createPayment | publishBookingCompleted | now |
      findExpiredPaymentPending | delete | deleteOrphanPending | setPaymentAndStatus | cancelWithEvent | updateStatus |
      confirmPayment | markCompletedEventSent => trivial

end Lasts

/-! ## One operation -/

section Step

variable {loc : Location} {o : BookOp} {db db' : BookingDB} {r : o.Res}

/-- The visits that a statement has found over are those of bookings now completed. -/
theorem BookOp.Exec.ended {refs : List Booking} (h : BookOp.Exec loc .autoCompleteVisitEnded db (.ok refs) db')
    (h0 : db.Opening) : ∀ ref ∈ refs, db'.Ended ref := by
  have hissued : ∀ id ∈ db.issued, id ∈ db'.issued := fun id hi => h.issued_mono hi
  obtain ⟨env, -, he⟩ := h
  have he := Fault.of_ok he
  unfold BookingRepo.autoCompleteVisitEnded BookingRepo.updateAll at he
  split at he
  · cases he
  rename_i bookings hu
  cases he
  intro ref href
  obtain ⟨hmem, hended⟩ := List.mem_filter.1 href
  have hfind : db.find ref.id = some ref :=
    db.bookings.get_key hmem (by simp) fun x hx => by simpa [bookingSchema] using hx
  have hrow : BookingDB.find { db with bookings := bookings } ref.id =
      some { ref with status := .completed, updatedAt := env.now } := by
    rw [BookingDB.find_update hu (fun _ => rfl), hfind, Option.map_some, if_pos hended]
  refine ⟨BookingDB.status_of_find hrow, hissued _ (h0 _ _ hfind), fun b hb => ?_⟩
  rw [hrow] at hb
  cases hb
  exact ⟨rfl, rfl⟩

/-- The rows of the catch-up are completed bookings. -/
theorem BookOp.Exec.unpublished {n : ℕ} {refs : List Booking}
    (h : BookOp.Exec loc (.findUnpublishedCompleted n) db (.ok refs) db') (h0 : db.Opening) : ∀ ref ∈ refs, db'.Ended ref := by
  obtain ⟨env, -, he⟩ := h
  have he := Fault.of_ok he
  cases he
  intro ref href
  have hsel := List.mem_mergeSort.1 (List.mem_of_mem_take href)
  obtain ⟨hmem, hst⟩ := List.mem_filter.1 hsel
  simp only [Bool.and_eq_true, beq_iff_eq] at hst
  have hfind : db.find ref.id = some ref :=
    db.bookings.get_key hmem (by simp) fun x hx => by simpa [bookingSchema] using hx
  refine ⟨by rw [BookingDB.status_of_find hfind, hst.1], h0 _ _ hfind, fun b hb => ?_⟩
  rw [hfind] at hb
  cases hb
  exact ⟨rfl, rfl⟩

theorem BookOp.Exec.visit_told (h : BookOp.Exec loc o db r db') (h0 : db.Opening) : VisitTold db' ⟨o, r⟩ := by
  cases o with
  | create d =>
    cases r with
    | error err => trivial
    | ok b =>
      obtain ⟨-, hissued, hrow⟩ := h.created_row h0
      refine ⟨hissued, fun row hr => ?_⟩
      rw [hrow row hr]
      exact ⟨rfl, rfl⟩
  | getByID id =>
    cases r with
    | error err => trivial
    | ok b =>
      obtain ⟨rfl, hb⟩ := h.getByID
      refine ⟨(BookingDB.find_id hb).2, h0 id b hb, fun b' hb' => ?_⟩
      rw [hb] at hb'
      cases hb'
      exact ⟨rfl, rfl⟩
  | autoCompleteVisitEnded =>
    cases r with
    | error err => trivial
    | ok refs => exact h.ended h0
  | findUnpublishedCompleted n =>
    cases r with
    | error err => trivial
    | ok refs => exact h.unpublished h0
  | getVenue | checkSlotAvailability | reserveSlot | releaseSlot | createPayment | publishBookingCompleted | now |
      findExpiredPaymentPending | delete | deleteOrphanPending | setPaymentAndStatus | cancelWithEvent | updateStatus |
      confirmPayment | markCompletedEventSent => trivial

/-- A final status stays where no write by id overwrites one. -/
theorem BookOp.Exec.visit_lasts (h : BookOp.Exec loc o db r db') (hc : ∀ b, o = .create b → b.status = .pending)
    (hend : db' ≠ db → ∀ i s b, o.target = some (i, s) → db.find i = some b → b.status.isTerminal = true →
      s = some b.status) : VisitLasts db db' := by
  refine ⟨fun id p hp ha => h.always hp ha, fun id s hs hst => ?_⟩
  cases ht : o.target with
  | none =>
    have hmove := (h.guarded_moves ht hc id).1
    rw [hst] at hmove
    exact moves_terminal hs hmove
  | some t =>
    obtain ⟨i, s'⟩ := t
    by_cases hdb : db' = db
    · rw [hdb, hst]
    by_cases hid : id = i
    · subst hid
      obtain ⟨b, hb, rfl⟩ := BookingDB.find_of_status hst
      rcases h.target ht with hsame | ⟨-, hs'⟩
      · exact absurd hsame hdb
      · rw [hs', hend hdb id s' b ht hb hs]
    · rw [h.others ht hid, hst]

/-- An event with the keys of a booking, not of its completion. -/
theorem visitSaid_of_keys {ev : BookingEventPayload} {b : Booking} {s : BookingStatus} (ha : db.Always b.id b.SameVisit)
    (hid : ev.bookingID = b.id) (hv : ev.venueID = b.venueID) (hu : ev.userID = b.userID) (hs : ev.status = s.string)
    (hne : s ≠ .completed) (hc : s = .cancelled → db.status b.id = some .cancelled) : VisitSaid db ev := by
  have hstring : ∀ t : BookingStatus, ev.status = t.string → s = t := by
    intro t ht
    rw [hs] at ht
    cases s <;> cases t <;> first | rfl | exact absurd ht (by decide)
  refine ⟨?_, fun h => absurd (hstring .completed h) hne, fun h => by rw [hid]; exact hc (hstring .cancelled h)⟩
  rw [hid]
  refine ⟨ha.1, fun x hx => ?_⟩
  dsimp only
  rw [(ha.2 x hx).1, hv, hu]
  exact ⟨rfl, rfl⟩

/-- The outbox row of a statement says what is so once it is done. -/
theorem BookOp.Exec.row_said (h : BookOp.Exec loc o db r db') (h0 : db.Opening) {did : BookEventLog} {c : BookCall}
    (hprior : VisitPrior did o) (hbefore : c.Preceded did o) (htold : ∀ e ∈ did, VisitTold db e) (hl : VisitLasts db db')
    (hne : db'.outbox ≠ db.outbox) {ev : BookingEvent} (ha : o.Announces db ev) :
    (∃ b, db'.find ev.payload.bookingID = some b) ∧ VisitSaid db' ev.payload := by
  have hdb : db' ≠ db := fun he => hne (by rw [he])
  cases o with
  | setPaymentAndStatus id pid url st e =>
    obtain ⟨rfl, -⟩ := ha
    obtain ⟨d, b, pid', url', hd, rfl, rfl⟩ := hprior
    rcases h.target rfl with hsame | ⟨-, hst⟩
    · exact absurd hsame hdb
    obtain ⟨row, hrow, -⟩ := BookingDB.find_of_status hst
    exact ⟨⟨row, hrow⟩, visitSaid_of_keys ((htold _ hd).lasts hl) rfl rfl rfl rfl (s := .paymentPending) nofun nofun⟩
  | cancelWithEvent id e =>
    obtain ⟨rfl, -⟩ := ha
    obtain ⟨b, hb, rfl, -⟩ := hbefore
    obtain ⟨rfl, halways⟩ := (htold _ hb).lasts hl
    rcases h.target rfl with hsame | ⟨-, hst⟩
    · exact absurd hsame hdb
    obtain ⟨row, hrow, -⟩ := BookingDB.find_of_status hst
    exact ⟨⟨row, hrow⟩, visitSaid_of_keys halways rfl rfl rfl rfl (s := .cancelled) nofun fun _ => hst⟩
  | confirmPayment id pid subject =>
    obtain ⟨b, now, hb, -, rfl⟩ := ha
    have halways : db.Always b.id b.SameVisit := by
      refine ⟨h0 _ _ hb, fun x hx => ?_⟩
      rw [hb] at hx
      cases hx
      exact ⟨rfl, rfl⟩
    have halways := hl.always _ _ (kept_visit fun v d => v = b.visit ∧ d = b.date) halways
    obtain ⟨row, hrow⟩ : ∃ row, db'.find b.id = some row := by
      have hrow := h.row b.id
      rw [hb] at hrow
      generalize db'.find b.id = x at hrow
      cases hrow with
      | same => exact ⟨b, rfl⟩
      | write _ b' _ => exact ⟨b', rfl⟩
      | delete _ hd => cases hd
    exact ⟨⟨row, hrow⟩, visitSaid_of_keys halways rfl rfl rfl rfl (s := .confirmed) nofun nofun⟩
  | getVenue | checkSlotAvailability | reserveSlot | releaseSlot | createPayment | publishBookingCompleted | now | getByID |
      findUnpublishedCompleted | findExpiredPaymentPending | create | delete | updateStatus | autoCompleteVisitEnded |
      markCompletedEventSent | deleteOrphanPending => exact ha.elim

/-- The event of a booking of nothing tells of it what is stored. -/
theorem refVisit_said {ref b : Booking} (hended : db.Ended ref) (hb : db.find ref.id = some b)
    (hzero : b.totalPrice = 0 ∧ b.guests = 0 ∧ b.date = ⟨1, 1, 1⟩) : VisitSaid db ref.refVisit := by
  obtain ⟨hst, hissued, hsame⟩ := hended
  have hvisit : ref.refVisit = b.visit := by
    have hkeys := (hsame b hb).1
    simp only [Booking.visit, newBookingEvent, BookingEventPayload.mk.injEq] at hkeys
    simp only [Booking.refVisit, Booking.visit, newBookingEvent, hzero, hkeys.1, hkeys.2.1, hkeys.2.2.1]
    rfl
  have hown : ∀ x, db.find ref.id = some x → x = b := fun x hx => by
    rw [hb] at hx
    cases hx
    rfl
  refine ⟨⟨hissued, fun x hx => ?_⟩, fun _ => ⟨hst, hissued, fun x hx => ?_⟩, fun hs => ?_⟩
  · rw [hown x hx, hvisit]
    exact ⟨rfl, rfl⟩
  · rw [hown x hx]
    exact ⟨hvisit, hzero.2.2⟩
  · exact absurd (show "completed" = "cancelled" from hs) (by decide)

end Step

/-! ## Runs -/

/-- What the events say is so, the events of one booking are of one guest and one venue, and only completions are published
directly. -/
structure VisitWorld.Holds (w : VisitWorld) : Prop where
  opening : w.db.Opening
  said : ∀ ev ∈ w.events, VisitSaid w.db ev
  same : ∀ a ∈ w.events, ∀ b ∈ w.events, a.bookingID = b.bookingID → a.venueID = b.venueID ∧ a.userID = b.userID
  done : ∀ ev ∈ w.published, ev.status = "completed"

/-- Events of bookings that are stored may be added, if what they say is so. -/
theorem VisitWorld.Holds.add {w w' : VisitWorld} (h : w.Holds) (h0 : w'.db.Opening) (hl : VisitLasts w.db w'.db)
    (hev : ∀ ev ∈ w'.events, ev ∈ w.events ∨ ((∃ b, w'.db.find ev.bookingID = some b) ∧ VisitSaid w'.db ev))
    (hdone : ∀ ev ∈ w'.published, ev.status = "completed") : w'.Holds := by
  have hsaid : ∀ ev ∈ w'.events, VisitSaid w'.db ev := fun ev he => (hev ev he).elim (fun he => (h.said ev he).lasts hl) (·.2)
  -- two events of a booking that is stored are of its guest
  have hrow : ∀ a ∈ w'.events, ∀ b ∈ w'.events, a.bookingID = b.bookingID → (∃ x, w'.db.find a.bookingID = some x) →
      a.venueID = b.venueID ∧ a.userID = b.userID := by
    rintro a ha b hb hid ⟨x, hx⟩
    obtain ⟨hav, hau⟩ := (hsaid a ha).guest.2 x hx
    rw [hid] at hx
    obtain ⟨hbv, hbu⟩ := (hsaid b hb).guest.2 x hx
    exact ⟨hav.symm.trans hbv, hau.symm.trans hbu⟩
  refine ⟨h0, hsaid, fun a ha b hb hid => ?_, hdone⟩
  rcases hev a ha with ha' | ⟨hx, -⟩
  · rcases hev b hb with hb' | ⟨hx, -⟩
    · exact h.same a ha' b hb' hid
    · obtain ⟨hv, hu⟩ := hrow b hb a ha hid.symm hx
      exact ⟨hv.symm, hu.symm⟩
  · exact hrow a ha b hb hid hx

theorem Listed.ended {did : BookEventLog} {ref : Booking} {db : BookingDB} (hl : Listed did ref)
    (ht : ∀ e ∈ did, VisitTold db e) : db.Ended ref := by
  rcases hl with ⟨refs, hm, hr⟩ | ⟨n, refs, hm, hr⟩
  · exact ht _ hm ref hr
  · exact ht _ hm ref hr

section Runs

variable {uc : BookingUseCase} {w w' w₀ : VisitWorld} {o : BookOp} {r : o.Res}

/-- **One operation keeps what the events say.** -/
theorem VisitWorld.Holds.step {did : BookEventLog} {call : BookCall} {ts : List (Thread BookCall BookOp BookOp.Res (Option Err))}
    {t : Thread BookCall BookOp BookOp.Res (Option Err)} (h : w.Holds) (he : VisitWorld.Exec uc.loc o w r w')
    (hbefore : call.Preceded did o) (hprior : VisitPrior did o) (htold : ∀ e ∈ did, VisitTold w.db e)
    (hzero : ZeroVisit ⟨⟨w, ts⟩, t, o, r, w'⟩) (hend : EndKept ⟨⟨w, ts⟩, t, o, r, w'⟩) :
    w'.Holds ∧ VisitLasts w.db w'.db := by
  obtain ⟨hdb, hsent⟩ := he
  have hl : VisitLasts w.db w'.db := by
    refine hdb.visit_lasts (fun b ho => ?_) hend
    subst ho
    exact hbefore
  have hout : ∀ ev ∈ w'.db.outbox, ev ∈ w.db.outbox ∨
      ((∃ b, w'.db.find ev.payload.bookingID = some b) ∧ VisitSaid w'.db ev.payload) := by
    intro ev hev
    rcases hdb.inserts with hsame | ⟨now, ev', hrow, ha⟩
    · rw [hsame] at hev
      exact .inl hev
    · have hne : w'.db.outbox ≠ w.db.outbox := by
        rw [hrow]
        simp [BookingRepo.insertOutbox]
      have hsaid := hdb.row_said h.opening hprior hbefore htold hl hne ha
      rw [hrow] at hev
      rcases List.mem_append.1 hev with hev | hev
      · exact .inl hev
      · rw [List.mem_singleton.1 hev]
        exact .inr hsaid
  have hpub : ∀ ev ∈ w'.published, ev ∈ w.published ∨
      (ev.status = "completed" ∧ (∃ b, w'.db.find ev.bookingID = some b) ∧ VisitSaid w'.db ev) := by
    intro ev hev
    generalize hp : w.published = l at hsent
    generalize hp' : w'.published = l' at hsent
    rw [hp'] at hev
    cases hsent with
    | publish p =>
      rcases List.mem_append.1 hev with hev | hev
      · exact .inl hev
      obtain rfl := List.mem_singleton.1 hev
      obtain ⟨ref, hlist, rfl⟩ := hprior
      have hsame : w'.db = w.db := by
        obtain ⟨env, -, hrun⟩ := hdb
        exact (congrArg Prod.snd hrun).symm
      have hended := hlist.ended htold
      obtain ⟨b, hb, -⟩ := BookingDB.find_of_status hended.1
      rw [hsame]
      exact .inr ⟨rfl, ⟨b, hb⟩, refVisit_said hended hb (hzero _ rfl b hb)⟩
    | lost | other => exact .inl hev
  refine ⟨h.add (hdb.opening h.opening).1 hl (fun ev hev => ?_) fun ev hev => ?_, hl⟩
  · rcases List.mem_append.1 hev with hev | hev
    · obtain ⟨row, hrow, rfl⟩ := List.mem_map.1 hev
      exact (hout row hrow).imp_left fun hrow => List.mem_append_left _ (List.mem_map_of_mem hrow)
    · exact (hpub ev hev).imp (List.mem_append_right _) (·.2)
  · rcases hpub ev hev with hev | ⟨hs, -⟩
    · exact h.done ev hev
    · exact hs

/-- **In a run that announces bookings of nothing only and overwrites no final status, what the events say is so.** -/
theorem visit_holds {tr : List VisitMoment} {c : VisitConfig} (h0 : w₀.Opening) (h : (visitSys uc).Trace w₀ tr c)
    (hall : ∀ m ∈ tr, ZeroVisit m ∧ EndKept m) : c.world.Holds := by
  refine (h.reach_inv (fun w ts => w.Holds ∧ ∀ t ∈ ts, ∀ e ∈ t.did, VisitTold w.db e) ?_ ?_ ?_
    (fun _ _ _ _ hf => False.elim hf) hall).1
  · refine ⟨⟨h0.keys, ?_, ?_, ?_⟩, by simp⟩
    · rw [h0.silent]
      simp
    · rw [h0.silent]
      simp
    · rw [(List.append_eq_nil_iff.1 h0.silent).2]
      simp
  · rintro w ts call ⟨hw, hts⟩ -
    refine ⟨hw, fun t ht => ?_⟩
    rcases List.mem_append.1 ht with ht | ht
    · exact hts t ht
    · rw [List.mem_singleton.1 ht]
      simp
  · rintro w w' ts₁ ts₂ call did o k r hr ⟨hw, hts⟩ he ⟨hzero, hend⟩
    have hmem : (⟨call, did, .call o k⟩ : Thread _ _ _ _) ∈ ts₁ ++ ⟨call, did, .call o k⟩ :: ts₂ := by simp
    have hbefore := (hr.after (BookCall.prog_after uc) _ hmem).1.1
    have hprior := (hr.after (P := fun _ => VisitPrior) (BookCall.prog_visit uc) _ hmem).1.1
    have htold := hts _ hmem
    obtain ⟨hw', hl⟩ := hw.step he hbefore hprior htold hzero hend
    refine ⟨hw', fun t ht e hd => ?_⟩
    rcases List.mem_append.1 ht with ht | ht
    · exact (hts t (List.mem_append_left _ ht) e hd).lasts hl
    rcases List.mem_cons.1 ht with rfl | ht
    · rcases List.mem_append.1 hd with hd | hd
      · exact (htold e hd).lasts hl
      · rw [List.mem_singleton.1 hd]
        exact he.1.visit_told hw.opening
    · exact (hts t (by simp [ht]) e hd).lasts hl

end Runs

/-! ## The profile of a guest -/

/-- The fact a completed booking leaves. -/
def Booking.visitFact (b : Booking) : BookingFact where
  bookingID := b.id
  venueID := b.venueID
  userID := b.userID
  status := "completed"
  statusRank := 3
  totalPrice := b.totalPrice
  visitDate := some b.date.dayNumber
  guests := b.guests

theorem bookingEventToFact_visit {b : Booking} {f : BookingFact} (hd : b.date = ⟨1, 1, 1⟩)
    (h : bookingEventToFact b.visit = .ok f) : f = b.visitFact := by
  have hdate : Date.parse b.date.string = some b.date := by
    rw [hd]
    decide
  unfold bookingEventToFact at h
  split at h
  · rename_i hb hv hu
    cases h
    obtain ⟨rfl, -⟩ := parseUUID_ok hb
    obtain ⟨rfl, -⟩ := parseUUID_ok hv
    obtain ⟨rfl, -⟩ := parseUUID_ok hu
    simp only [Booking.visit, newBookingEvent, hdate, Option.map_some]
    rfl
  all_goals cases h

theorem bookingStatusRank_top {s : String} (h : 3 ≤ bookingStatusRank s) : s = "completed" ∨ s = "cancelled" := by
  unfold bookingStatusRank at h
  split at h
  · assumption
  · split at h <;> omega

section Totals

variable {w : VisitWorld} {calls : List FactCall} {v u : String}

/-- A completion that is applied is the fact of a booking that is stored as completed. -/
theorem VisitWorld.Holds.fact_visit (h : w.Holds) {ev : BookingEventPayload} {f : BookingFact} (hev : ev ∈ w.events)
    (hf : bookingEventToFact ev = .ok f) (hs : f.status = "completed") :
    ∃ b, w.db.find f.bookingID = some b ∧ b.status = .completed ∧ f = b.visitFact := by
  obtain ⟨hid, -, -, hst, -⟩ := bookingEventToFact_ok hf
  obtain ⟨hdone, hsame⟩ := (h.said ev hev).completed (by rw [← hst, hs])
  obtain ⟨b, hb, hbs⟩ := BookingDB.find_of_status hdone
  obtain ⟨rfl, hdate⟩ := hsame.2 b hb
  exact ⟨b, by rw [hid, hb], hbs, bookingEventToFact_visit hdate hf⟩

/-- **The completed facts of a guest are those of the visits that are stored.** -/
theorem VisitWorld.Holds.visits_perm (h : w.Holds) (hr : Relayed w calls v u) {applied : List BookingFact}
    (hfrom : ∀ f ∈ applied, f ∈ calls.map (·.fact)) (hans : ∀ f, Answered calls f → f ∈ applied) :
    ((finalFacts applied v u).filter (·.status == "completed")).Perm ((w.db.visits v u).map (·.visitFact)) := by
  have hsource : ∀ f ∈ applied, ∃ ev ∈ w.events, bookingEventToFact ev = .ok f := by
    intro f hf
    obtain ⟨c, hc, rfl⟩ := List.mem_map.1 (hfrom f hf)
    exact hr.only c hc
  have hkeys : ((w.db.visits v u).map (·.visitFact)).Nodup := by
    refine List.pairwise_map.2 ((w.db.bookings.noClash.filter _).imp fun {a b} hab heq => ?_)
    have hid : a.id = b.id := congrArg BookingFact.bookingID heq
    simp [bookingSchema, hid] at hab
  refine (List.perm_ext_iff_of_nodup ((finalFacts_nodup _ _ _).filter _) hkeys).2 fun f => ?_
  rw [List.mem_filter, mem_finalFacts]
  constructor
  · rintro ⟨⟨hf, hv, hu⟩, hs⟩
    obtain ⟨ev, hev, hfev⟩ := hsource f (finalFact_bookingID hf).2
    obtain ⟨b, hb, hbs, rfl⟩ := h.fact_visit hev hfev (by simpa using hs)
    refine List.mem_map.2 ⟨b, List.mem_filter.2 ⟨(BookingDB.find_id hb).1, ?_⟩, rfl⟩
    simp only [Bool.and_eq_true, beq_iff_eq]
    exact ⟨⟨hv, hu⟩, hbs⟩
  · intro hf
    obtain ⟨b, hb, rfl⟩ := List.mem_map.1 hf
    obtain ⟨hmem, hkey⟩ := List.mem_filter.1 hb
    simp only [Bool.and_eq_true, beq_iff_eq] at hkey
    obtain ⟨⟨hv, hu⟩, hbs⟩ := hkey
    have hfind : w.db.find b.id = some b :=
      w.db.bookings.get_key hmem (by simp) fun x hx => by simpa [bookingSchema] using hx
    -- its completion has been applied
    obtain ⟨ev, hpub, hid⟩ := hr.sent b hb
    have hev : ev ∈ w.events := List.mem_append_right _ hpub
    obtain ⟨hev1, hev2⟩ := (h.said ev hev).guest.2 b (by rw [hid, hfind])
    obtain ⟨f, hf, ha⟩ := hr.each ev hev (by rw [← hev1]; exact hv) (by rw [← hev2]; exact hu)
    obtain ⟨hfid, -, -, hfs, hfr, -⟩ := bookingEventToFact_ok hf
    have hdone := h.done ev hpub
    rcases Rank.latest_cases BookingFact.statusRank (applied.filter (·.bookingID == b.id)) with
      ⟨hnil, -⟩ | ⟨g, hg, hgm, hmax⟩
    · have : f ∈ applied.filter (·.bookingID == b.id) := List.mem_filter.2 ⟨hans f ha, by simp [hfid, hid]⟩
      rw [hnil] at this
      cases this
    have hgm' := (List.mem_filter.1 hgm).1
    have hgid : g.bookingID = b.id := by simpa using (List.mem_filter.1 hgm).2
    have hrank := hmax f (List.mem_filter.2 ⟨hans f ha, by simp [hfid, hid]⟩)
    obtain ⟨ev', hev', hgev⟩ := hsource g hgm'
    obtain ⟨hgid', -, -, hgs, hgr, -⟩ := bookingEventToFact_ok hgev
    -- the fact that is kept is a completion too: the booking is not cancelled
    have hgdone : g.status = "completed" := by
      rw [hfr, hdone, hgr] at hrank
      rcases bookingStatusRank_top hrank with hs | hs
      · rw [hgs, hs]
      · have hcan := (h.said ev' hev').cancelled hs
        rw [← hgid', hgid, BookingDB.status_of_find hfind, hbs] at hcan
        cases hcan
    obtain ⟨b', hb', -, rfl⟩ := h.fact_visit hev' hgev hgdone
    rw [hgid, hfind] at hb'
    cases hb'
    exact ⟨⟨hg, hv, hu⟩, rfl⟩

/-- What a profile that may be missing tells is what its counts tell. -/
theorem profile_tells {x : Option GuestProfile} {k : GuestCounts} {rows : List StoredFact} {final : List BookingFact}
    (hx : x.map (·.toGuestCounts) = if rows = [] then none else some k)
    (hperm : (rows.map (·.toBookingFact)).Perm final) (hk : k = .ofFacts final) :
    (x.map (·.totalSpent)).getD 0 = k.totalSpent ∧ x.bind (·.firstVisitAt) = k.firstVisitAt ∧
      x.bind (·.lastVisitAt) = k.lastVisitAt := by
  by_cases hrows : rows = []
  · rw [if_pos hrows] at hx
    rw [hrows, List.map_nil] at hperm
    rw [hk, hperm.symm.eq_nil, Option.map_eq_none_iff.1 hx]
    exact ⟨rfl, rfl, rfl⟩
  · rw [if_neg hrows] at hx
    obtain ⟨p, rfl, rfl⟩ := Option.map_eq_some_iff.1 hx
    exact ⟨rfl, rfl, rfl⟩

/-- **Where what the events say is so, the profiles count the visits that are stored.** -/
theorem VisitWorld.Holds.totals (h : w.Holds) (hr : Relayed w calls v u) :
    GuestTotals w.db (CrmDB.empty.after calls) v u := by
  have hguest : SameGuest (calls.map (·.fact)) := by
    intro a ha b hb hid
    obtain ⟨c, hc, rfl⟩ := List.mem_map.1 ha
    obtain ⟨c', hc', rfl⟩ := List.mem_map.1 hb
    obtain ⟨ev, hev, hf⟩ := hr.only c hc
    obtain ⟨ev', hev', hf'⟩ := hr.only c' hc'
    obtain ⟨hi, hv, hu, -⟩ := bookingEventToFact_ok hf
    obtain ⟨hi', hv', hu', -⟩ := bookingEventToFact_ok hf'
    rw [hv, hu, hv', hu']
    exact h.same ev hev ev' hev' (by rw [← hi, ← hi', hid])
  obtain ⟨applied, hP, hfrom, hans⟩ := run_projects calls hguest
  have hperm := h.visits_perm hr hfrom hans
  have hguests : (((CrmDB.empty.after calls).guestFacts v u).map (·.toBookingFact)).Perm (finalFacts applied v u) := hP.guest (fun _ => rfl) v u
  have hcounts := GuestCounts.ofFacts_perm hguests
  have hprofile := hP.profile v u
  rw [hcounts] at hprofile
  obtain ⟨hspent, hfirst, hlast⟩ := profile_tells hprofile hguests rfl
  have hdates : ((w.db.visits v u).map (·.visitFact)).filterMap (·.visitDate) =
      (w.db.visits v u).map fun b => (b.date.dayNumber : ℤ) := by
    rw [List.filterMap_map]
    exact congrFun List.filterMap_eq_map' _
  refine ⟨?_, ?_, ?_⟩
  · rw [hspent, GuestCounts.ofFacts, (hperm.map (·.totalPrice)).sum_eq, List.map_map]
    rfl
  · rw [hfirst, GuestCounts.ofFacts, min?_perm (hperm.filterMap (·.visitDate)), hdates]
  · rw [hlast, GuestCounts.ofFacts, max?_perm (hperm.filterMap (·.visitDate)), hdates]

end Totals

/-- **Completed visits reach the CRM as they are stored** in a run that announces bookings of nothing only and overwrites no
final status. -/
theorem visits_faithful {uc : BookingUseCase} {w₀ : VisitWorld} {tr : List VisitMoment} {c : VisitConfig} (h0 : w₀.Opening)
    (h : (visitSys uc).Trace w₀ tr c) (hall : ∀ m ∈ tr, ZeroVisit m ∧ EndKept m) : VisitsFaithful c.world := by
  have hw := visit_holds h0 h hall
  refine ⟨fun ev hev => ?_, fun calls v u hr => hw.totals hr⟩
  obtain ⟨hst, hsame⟩ := (hw.said ev (List.mem_append_right _ hev)).completed (hw.done ev hev)
  obtain ⟨b, hb, -⟩ := BookingDB.find_of_status hst
  exact ⟨b, hb, (hsame.2 b hb).1⟩

/-! ### A visit that is over -/

/-- The booking, confirmed and paid, with another price, guests and date. -/
def endedBooking (price guests : ℤ) (date : Date) : Booking :=
  { sampleBooking with status := .confirmed, totalPrice := price, guests := guests, date := date }

def endedVisits (price guests : ℤ) (date : Date) : VisitWorld where
  db :=
    { bookings := ⟨[endedBooking price guests date],
        fun r hr => by rw [List.mem_singleton.1 hr]; exact (by decide : bookingSchema.check sampleBooking = true), by simp⟩
      outbox := []
      issued := [sampleBooking.id] }
  published := []

theorem endedVisits_opening (price guests : ℤ) (date : Date) : (endedVisits price guests date).Opening := by
  refine ⟨fun j b hb => ?_, rfl⟩
  obtain ⟨hmem, rfl⟩ := BookingDB.find_id hb
  rw [List.mem_singleton.1 hmem]
  exact List.mem_singleton.2 rfl

/-- The ticker completes the booking and announces it. -/
theorem visit_announced {price guests : ℤ} {date : Date} {now : Time}
    (hv : BookingRepo.visitEnded now sampleLocation (endedBooking price guests date) = true) :
    ∃ tr c, (visitSys sampleBookings).Trace (endedVisits price guests date) tr c ∧ tr ≠ [] ∧
      c.world.published = [(endedBooking price guests date).refVisit] ∧
      c.world.db.find sampleBooking.id = some { endedBooking price guests date with status := .completed, updatedAt := now } ∧
      (price = 0 → guests = 0 → date = ⟨1, 1, 1⟩ → ∀ m ∈ tr, ZeroVisit m ∧ EndKept m) := by
  have hfind : (endedVisits price guests date).db.find sampleBooking.id = some (endedBooking price guests date) := by
    simp [endedVisits, BookingDB.find, Table.get, endedBooking]
  have hsel : (endedVisits price guests date).db.bookings.select (BookingRepo.visitEnded now sampleLocation) =
      [endedBooking price guests date] := by
    simp [endedVisits, Table.select, hv]
  obtain ⟨bookings, hup⟩ := BookingRepo.update_bookings (endedVisits price guests date).db
    (BookingRepo.visitEnded now sampleLocation) (f := fun b => { b with status := .completed, updatedAt := now })
    (fun _ => rfl) fun _ h => h
  have hnew : sampleBookEnv.newID ∉ [sampleBooking.id] := by decide
  generalize hdb : ({ (endedVisits price guests date).db with bookings := bookings } : BookingDB) = db
  have hdone : db.find sampleBooking.id = some { endedBooking price guests date with status := .completed, updatedAt := now } := by
    rw [← hdb, BookingDB.find_update hup (fun _ => rfl), hfind, Option.map_some, if_pos hv]
  have hcomplete : VisitWorld.Exec sampleLocation .autoCompleteVisitEnded (endedVisits price guests date)
      (.ok [endedBooking price guests date]) ⟨db, []⟩ := by
    refine ⟨⟨{ sampleBookEnv with now := now }, hnew, ?_⟩, .other _ _ _ (by simp)⟩
    simp only [BookOp.run, sampleBookEnv, Fault.apply_none, BookingRepo.autoCompleteVisitEnded, BookingRepo.updateAll, hup,
      hsel, hdb]
  have hpublish : VisitWorld.Exec sampleLocation (.publishBookingCompleted (endedBooking price guests date).refVisit) ⟨db, []⟩
      (.ok ()) ⟨db, [(endedBooking price guests date).refVisit]⟩ := by
    refine ⟨⟨sampleBookEnv, ?_, rfl⟩, .publish _ _ []⟩
    rw [← hdb]
    exact hnew
  have h : (visitSys sampleBookings).Trace (endedVisits price guests date) [] ⟨endedVisits price guests date, []⟩ := .init
  have h := h.start .autoCompletePastVisits trivial
  have h := h.perform (⟨db, []⟩ : VisitWorld) [] [] _ hcomplete
  have h := h.perform (⟨db, [(endedBooking price guests date).refVisit]⟩ : VisitWorld) [] [] _ hpublish
  refine ⟨_, _, h, by simp, rfl, hdone, fun hp hg hd m hm => ?_⟩
  rcases List.mem_append.1 hm with hm | hm
  · rw [List.mem_singleton.1 hm]
    exact ⟨fun _ ho => (by cases ho), fun _ _ _ _ ht => (by cases ht)⟩
  · rw [List.mem_singleton.1 hm]
    refine ⟨fun p ho b hb => ?_, fun _ _ _ _ ht => (by cases ht)⟩
    cases ho
    have hb : db.find sampleBooking.id = some b := hb
    rw [hdone] at hb
    cases hb
    exact ⟨hp, hg, hd⟩

theorem visits_faithful_sample : ∃ tr c, (visitSys sampleBookings).Trace (endedVisits 0 0 ⟨1, 1, 1⟩) tr c ∧ tr ≠ [] ∧
    c.world.published ≠ [] ∧ VisitsFaithful c.world := by
  obtain ⟨tr, c, h, hne, hpub, -, hall⟩ := visit_announced
    (by decide : BookingRepo.visitEnded 100000000 sampleLocation (endedBooking 0 0 ⟨1, 1, 1⟩) = true)
  exact ⟨tr, c, h, hne, by rw [hpub]; simp, visits_faithful (endedVisits_opening 0 0 ⟨1, 1, 1⟩) h (hall rfl rfl rfl)⟩

theorem visits_not_faithful : ¬ ∀ (uc : BookingUseCase) (w₀ : VisitWorld) (tr : List VisitMoment) (c : VisitConfig),
    w₀.Opening → (visitSys uc).Trace w₀ tr c → VisitsFaithful c.world := by
  intro hall
  obtain ⟨tr, c, h, -, hpub, hfind, -⟩ := visit_announced
    (by decide : BookingRepo.visitEnded 100000000000 sampleLocation (endedBooking 500000 2 ⟨2025, 6, 2⟩) = true)
  obtain ⟨b, hb, hev⟩ := (hall _ _ _ _ (endedVisits_opening 500000 2 ⟨2025, 6, 2⟩) h).carried
    (endedBooking 500000 2 ⟨2025, 6, 2⟩).refVisit (by rw [hpub]; exact List.mem_singleton.2 rfl)
  rw [show (endedBooking 500000 2 ⟨2025, 6, 2⟩).refVisit.bookingID = sampleBooking.id from rfl, hfind] at hb
  cases hb
  exact absurd (congrArg BookingEventPayload.totalPrice hev) (by decide)

end Agregator
