import Agregator.BookFacts
import Agregator.BookGateway
import Agregator.BookPages
import Agregator.BookStates
import Agregator.TwoRuns
/-!
# BookPrivacy — whose bookings a caller learns of

A caller may see the bookings he is the guest of and those of the venues he manages.  Every route keeps to that but the one that
gets a booking by its identifier: what a sequence of requests answers depends on the other bookings exactly when one of the
requests gets one of them (`answers_private_iff`).
-/
namespace Agregator

open Rel Conc

namespace BookingService

variable (svc : BookingService)

/-- The bookings of which a caller is the guest, or whose venue he manages. -/
def shows (callerID : String) (b : Booking) : Bool :=
  b.userID == callerID || svc.crm.managementAccess b.venueID callerID != ""

/-- A booking is stored under the identifier, and is not the caller's to see. -/
def hides (callerID : String) (db : NotedDB) (id : String) : Bool := (db.find id).any fun b => !svc.shows callerID b

/-- Two stores have the same bookings a caller may see, with the same notes, and bookings under the same identifiers. -/
structure Agrees (callerID : String) (db db' : NotedDB) : Prop where
  rows : db.bookings.select (svc.shows callerID) = db'.bookings.select (svc.shows callerID)
  ids : ∀ id, (db.find id).isSome = (db'.find id).isSome
  notes : db.notes.filter (fun n => (db.find n.bookingID).any (svc.shows callerID)) =
    db'.notes.filter fun n => (db'.find n.bookingID).any (svc.shows callerID)

variable {svc} {callerID : String} {db db' : NotedDB}

/-! ## The bookings of two such stores -/

namespace Agrees

theorem symm (h : svc.Agrees callerID db db') : svc.Agrees callerID db' db :=
  ⟨h.rows.symm, fun id => (h.ids id).symm, h.notes.symm⟩

theorem find_shown (h : svc.Agrees callerID db db') {id : String} {b : Booking} (hb : db.find id = some b)
    (hshow : svc.shows callerID b = true) : db'.find id = some b := by
  obtain ⟨hmem, hid⟩ := BookingDB.find_id hb
  have hmem' : b ∈ db'.bookings.select (svc.shows callerID) := by
    rw [← h.rows]
    exact List.mem_filter.2 ⟨hmem, hshow⟩
  exact db'.bookings.get_key (List.mem_filter.1 hmem').1 (by simpa using hid) fun x hx => by simpa [bookingSchema, hid] using hx

/-- **A booking is the same in both, or hidden in both.** -/
theorem find_cases (h : svc.Agrees callerID db db') (id : String) :
    db.find id = db'.find id ∨
      ∃ b b', db.find id = some b ∧ db'.find id = some b' ∧ svc.shows callerID b = false ∧ svc.shows callerID b' = false := by
  have hids := h.ids id
  cases hb : db.find id with
  | none =>
    rw [hb] at hids
    exact .inl (Option.not_isSome_iff_eq_none.1 (by simp [← hids])).symm
  | some b =>
    rw [hb] at hids
    obtain ⟨b', hb'⟩ := Option.isSome_iff_exists.1 hids.symm
    by_cases hshow : svc.shows callerID b = true
    · exact .inl (h.find_shown hb hshow).symm
    · by_cases hshow' : svc.shows callerID b' = true
      · exact .inl (by rw [← hb, h.symm.find_shown hb' hshow', hb'])
      · exact .inr ⟨b, b', rfl, hb', by simpa using hshow, by simpa using hshow'⟩

/-- A selection of bookings the caller may see. -/
theorem select_eq (h : svc.Agrees callerID db db') {p : Booking → Bool} (hp : ∀ b, p b = true → svc.shows callerID b = true) :
    db.bookings.select p = db'.bookings.select p := by
  have hsub : ∀ l : List Booking, l.filter p = (l.filter (svc.shows callerID)).filter p := by
    intro l
    rw [List.filter_filter]
    refine List.filter_congr fun b _ => ?_
    cases hb : p b with
    | false => rfl
    | true => rw [hp b hb, Bool.and_self]
  unfold Table.select
  rw [hsub, hsub db'.bookings.rows]
  exact congrArg _ h.rows

/-- The notes on a booking the caller may see. -/
theorem notes_eq (h : svc.Agrees callerID db db') {id : String} {b : Booking} (hb : db.find id = some b)
    (hshow : svc.shows callerID b = true) : db.notes.filter (·.bookingID == id) = db'.notes.filter (·.bookingID == id) := by
  have hsub : ∀ {db : NotedDB}, db.find id = some b → db.notes.filter (·.bookingID == id) =
      (db.notes.filter fun n => (db.find n.bookingID).any (svc.shows callerID)).filter (·.bookingID == id) := by
    intro db hb
    rw [List.filter_filter]
    refine List.filter_congr fun n _ => ?_
    by_cases hn : n.bookingID = id
    · simp [hn, hb, hshow]
    · simp [hn]
  rw [hsub hb, hsub (h.find_shown hb hshow), h.notes]

end Agrees

/-! ## Reading -/

theorem getByID_congr {id : String} (h : db.find id = db'.find id) :
    BookingRepo.getByID id db.toBookingDB = BookingRepo.getByID id db'.toBookingDB := by
  unfold BookingRepo.getByID
  rcases uuidParam_cases id with ⟨hu, -⟩ | ⟨err, hu, -⟩
  · simp only [hu, h]
  · rw [hu]

theorem isUUID_of_find {id : String} {b : Booking} (h : db.find id = some b) : isUUID id = true ∧ isUUID b.venueID = true := by
  obtain ⟨hmem, hid⟩ := BookingDB.find_id h
  have hcheck := db.bookings.checked b hmem
  simp only [bookingSchema, Bool.and_eq_true, hid] at hcheck
  exact ⟨hcheck.1.1.1.1.1.1.1, hcheck.1.1.1.1.1.2⟩

theorem getByID_some {id : String} {b : Booking} (h : db.find id = some b) :
    BookingRepo.getByID id db.toBookingDB = .ok b := by
  unfold BookingRepo.getByID
  rw [uuidParam_ok (isUUID_of_find h).1]
  simp only [h]

theorem venueWhere_venue {pg : PgText} {f : VenueFilter} {p : Booking → Bool} (h : BookingRepo.venueWhere pg f = .ok p) {b : Booking}
    (hb : p b = true) : b.venueID = f.venueID := by
  obtain ⟨venueID, hvenue, h⟩ := Except.of_bind h
  obtain ⟨date, -, h⟩ := Except.of_bind h
  obtain ⟨dateFrom, -, h⟩ := Except.of_bind h
  obtain ⟨dateTo, -, h⟩ := Except.of_bind h
  cases h
  simp only [Bool.and_eq_true, beq_iff_eq] at hb
  rcases uuidParam_cases f.venueID with ⟨hu, -⟩ | ⟨err, hu, -⟩
  · rw [hu] at hvenue
    cases hvenue
    exact hb.1.1.1.1
  · rw [hu] at hvenue
    cases hvenue

theorem getManagementAccess_ok {venueID userID : String} (hvenue : isUUID venueID = true) (huser : isUUID userID = true) :
    svc.crm.getManagementAccess venueID userID = .ok (svc.crm.managementAccess venueID userID) := by
  simp only [CRMDB.getManagementAccess, CRMDB.parseUUIDArg, hvenue, huser, if_true]
  rfl

/-- Who has no access to a venue is told the same of every venue. -/
theorem requireVenueCRMAccess_refused (svc : BookingService) (userID : String) :
    ∃ err, ∀ venueID, isUUID venueID = true → svc.crm.managementAccess venueID userID = "" →
      svc.requireVenueCRMAccess venueID userID = .error err := by
  unfold requireVenueCRMAccess
  by_cases hblank : trimSpace userID = ""
  · exact ⟨_, fun _ _ _ => if_pos hblank⟩
  · by_cases huser : isUUID userID = true
    · refine ⟨.status .permissionDenied "no venue management access", fun venueID hvenue hnone => ?_⟩
      rw [if_neg hblank, getManagementAccess_ok hvenue huser, hnone]
      rfl
    · refine ⟨invalidArgument "invalid user_id", fun venueID hvenue _ => ?_⟩
      rw [if_neg hblank]
      simp only [CRMDB.getManagementAccess, CRMDB.parseUUIDArg, hvenue, huser, if_true]
      rfl

theorem requireVenueCRMAccess_ok {venueID userID : String} (h : svc.requireVenueCRMAccess venueID userID = .ok ()) :
    svc.crm.managementAccess venueID userID ≠ "" := by
  intro hnone
  unfold requireVenueCRMAccess at h
  by_cases hblank : trimSpace userID = ""
  · rw [if_pos hblank] at h
    cases h
  · rw [if_neg hblank] at h
    cases haccess : svc.crm.getManagementAccess venueID userID with
    | error err =>
      rw [haccess] at h
      cases h
    | ok access =>
      rw [haccess] at h
      obtain ⟨v, hv, h'⟩ := Except.of_bind haccess
      obtain ⟨u, hu, h'⟩ := Except.of_bind h'
      unfold CRMDB.parseUUIDArg at hv hu
      split at hv <;> cases hv
      split at hu <;> cases hu
      cases h'
      rw [hnone] at h
      cases h

theorem managedBooking_ok {id : String} {b : Booking} (h : svc.managedBooking id callerID db = .ok b) :
    db.find id = some b ∧ svc.shows callerID b = true := by
  obtain ⟨b', hget, h⟩ := Except.of_bind h
  obtain ⟨u, hr, h⟩ := Except.of_bind h
  cases h
  refine ⟨BookingRepo.getByID_ok hget, ?_⟩
  rw [shows, bne_iff_ne.2 (requireVenueCRMAccess_ok hr), Bool.or_true]

/-! ## Cancelling -/

/-- Why a booking is not cancelled. -/
def cancelRefusal (uc : BookingUseCase) (now : Time) (userID : String) (b : Booking) : Option Err :=
  if b.userID ≠ userID then some (.status .permissionDenied "not your booking")
  else if b.canCancel = false then some (invalidArgument "booking cannot be cancelled in current status")
  else if 0 < uc.cancelDeadlineHours ∧ b.timeFrom.toTimeIn b.date uc.loc - uc.cancelDeadlineHours * 3600 < now then
    some (invalidArgument ("отмена невозможна: до начала визита менее " ++ toString uc.cancelDeadlineHours ++ " ч."))
  else none

theorem pastDeadline_eval (uc : BookingUseCase) (env : BookEnv) (b : Booking) (k : Bool → BookProg (Except Err Booking))
    (booked : BookingDB) :
    ((uc.pastDeadline b).bind k).eval (BookOp.run uc.loc env) booked =
      (k (decide (0 < uc.cancelDeadlineHours ∧
        b.timeFrom.toTimeIn b.date uc.loc - uc.cancelDeadlineHours * 3600 < env.now))).eval (BookOp.run uc.loc env) booked := by
  unfold BookingUseCase.pastDeadline
  by_cases h : 0 < uc.cancelDeadlineHours
  · simp only [h, if_true, true_and]
    rfl
  · simp only [h, if_false, false_and, decide_false]
    rfl

theorem storeCancelled_eval (loc : Location) (env : BookEnv) (id : String) (b : Booking) (booked : BookingDB) :
    (BookingUseCase.storeCancelled id b).eval (BookOp.run loc { env with fault := .none }) booked =
      let res := BookingRepo.cancelWithEvent env.now id (newBookingEvent .cancelled { b with status := .cancelled }) booked
      (res.1.map fun _ => { b with status := .cancelled }, res.2) := by
  unfold BookingUseCase.storeCancelled
  simp only [BookOp.call, Prog.bind_eq, Prog.perform_bind, Prog.eval_call, BookOp.run, Fault.apply_none]
  cases (BookingRepo.cancelWithEvent env.now id (newBookingEvent .cancelled { b with status := .cancelled }) booked).1 with
  | error err => rfl
  | ok u => rfl

/-- **What `CancelBooking` does**: it reads the booking, and refuses or cancels it. -/
theorem cancelBooking_eval (uc : BookingUseCase) (env : BookEnv) (id userID : String) (booked : BookingDB) :
    (uc.cancelBooking id userID).eval (BookOp.run uc.loc { env with fault := .none }) booked =
      match BookingRepo.getByID id booked with
      | .error err => (.error err, booked)
      | .ok b =>
        match cancelRefusal uc env.now userID b with
        | some err => (.error err, booked)
        | none =>
          let res := BookingRepo.cancelWithEvent env.now id (newBookingEvent .cancelled { b with status := .cancelled }) booked
          (res.1.map fun _ => { b with status := .cancelled }, res.2) := by
  unfold BookingUseCase.cancelBooking
  simp only [BookOp.call, Prog.bind_eq, Prog.perform_bind, Prog.eval_call, BookOp.run, Fault.apply_none]
  cases BookingRepo.getByID id booked with
  | error err => rfl
  | ok b =>
    unfold cancelRefusal
    dsimp only
    by_cases hown : b.userID ≠ userID
    · rw [if_pos hown, if_pos hown]
      rfl
    · rw [if_neg hown, if_neg hown]
      by_cases hcan : b.canCancel = false
      · rw [if_pos hcan, if_pos hcan]
        rfl
      · rw [if_neg hcan, if_neg hcan, pastDeadline_eval]
        by_cases hpast : 0 < uc.cancelDeadlineHours ∧
            b.timeFrom.toTimeIn b.date uc.loc - uc.cancelDeadlineHours * 3600 < env.now
        · rw [if_pos hpast, decide_eq_true hpast, if_pos rfl]
          rfl
        · rw [if_neg hpast, decide_eq_false hpast, if_neg (by decide), storeCancelled_eval]

/-- The row of a booking that is cancelled. -/
def cancelRow (now : Time) (b : Booking) : Booking := { b with status := .cancelled, updatedAt := now }

theorem cancelWithEvent_stored {id : String} {b : Booking} (hb : db.find id = some b) (now : Time) (ev : BookingEvent) :
    ∃ bookings, db.bookings.update (·.id == id) (cancelRow now) = .ok bookings ∧
      BookingRepo.cancelWithEvent now id ev db.toBookingDB =
        (.ok (), BookingRepo.insertOutbox now ev { db.toBookingDB with bookings := bookings }) := by
  obtain ⟨bookings, hup⟩ := BookingRepo.update_bookings db.toBookingDB (·.id == id) (f := cancelRow now) (fun _ => rfl)
    fun _ h => h
  refine ⟨bookings, hup, ?_⟩
  unfold BookingRepo.cancelWithEvent BookingRepo.updateByID
  rw [uuidParam_ok (isUUID_of_find hb).1]
  dsimp only
  rw [show db.bookings.update (·.id == id) (fun b => { b with status := .cancelled, updatedAt := now }) = .ok bookings from hup]
  rw [hb]

theorem cancelRefusal_none {uc : BookingUseCase} {now : Time} {userID : String} {b : Booking}
    (h : cancelRefusal uc now userID b = none) : b.userID = userID := by
  by_contra hne
  rw [cancelRefusal, if_pos hne] at h
  cases h

/-- A booking that may be cancelled is, and nothing else changes but the outbox. -/
theorem cancelBooking_done {env : BookEnv} {id userID : String} {b : Booking} (hb : db.find id = some b)
    (hr : cancelRefusal svc.uc env.now userID b = none) :
    ∃ bookings outbox, db.bookings.update (·.id == id) (cancelRow env.now) = .ok bookings ∧
      svc.cancelBooking env id userID db =
        (.ok { b with status := .cancelled }, { db with bookings := bookings, outbox := outbox }) := by
  obtain ⟨bookings, hup, hcancel⟩ := cancelWithEvent_stored hb env.now
    (newBookingEvent .cancelled { b with status := .cancelled })
  refine ⟨bookings, (BookingRepo.insertOutbox env.now (newBookingEvent .cancelled { b with status := .cancelled })
    db.toBookingDB).outbox, hup, ?_⟩
  unfold cancelBooking
  rw [cancelBooking_eval, getByID_some hb]
  simp only [hr, hcancel]
  rfl

theorem cancelBooking_missing (svc : BookingService) (env : BookEnv) (id userID : String) :
    ∃ err, ∀ {db : NotedDB}, db.find id = none → svc.cancelBooking env id userID db = (.error err, db) := by
  unfold cancelBooking
  rcases uuidParam_cases id with ⟨hu, -⟩ | ⟨err, hu, -⟩
  · refine ⟨.status .notFound "booking not found", fun {db} hnone => ?_⟩
    rw [cancelBooking_eval, BookingRepo.getByID, hu]
    simp only [hnone]
  · refine ⟨err, fun {db} _ => ?_⟩
    rw [cancelBooking_eval, BookingRepo.getByID, hu]

theorem cancelBooking_refused {env : BookEnv} {id userID : String} {b : Booking} {err : Err} (hb : db.find id = some b)
    (hr : cancelRefusal svc.uc env.now userID b = some err) : svc.cancelBooking env id userID db = (.error err, db) := by
  unfold cancelBooking
  rw [cancelBooking_eval, getByID_some hb]
  simp only [hr]

namespace Agrees

/-- A change that both stores make of their bookings. -/
theorem update (h : svc.Agrees callerID db db') {p : Booking → Bool} {f : Booking → Booking}
    (hshow : ∀ b, svc.shows callerID (f b) = svc.shows callerID b) (hid : ∀ b, (f b).id = b.id)
    {bookings bookings' : Table bookingSchema} (hup : db.bookings.update p f = .ok bookings)
    (hup' : db'.bookings.update p f = .ok bookings') (outbox outbox' : List BookingEvent) :
    svc.Agrees callerID { db with bookings := bookings, outbox := outbox }
      { db' with bookings := bookings', outbox := outbox' } := by
  have hrow : ∀ b, svc.shows callerID (if p b then f b else b) = svc.shows callerID b := by
    intro b
    split
    · exact hshow b
    · rfl
  have hany : ∀ o : Option Booking, (o.map fun b => if p b then f b else b).any (svc.shows callerID) =
      o.any (svc.shows callerID) := by
    intro o
    cases o with
    | none => rfl
    | some b => exact hrow b
  constructor
  · rw [Table.select_update hup hshow, Table.select_update hup' hshow]
    exact congrArg _ h.rows
  · intro id
    rw [BookingDB.find_update hup hid, BookingDB.find_update hup' hid, Option.isSome_map, Option.isSome_map]
    exact h.ids id
  · have hnotes := h.notes
    simp only [BookingDB.find_update hup hid, BookingDB.find_update hup' hid, hany]
    exact hnotes

/-- A note that both stores take on a booking the caller may see. -/
theorem addNote (h : svc.Agrees callerID db db') {n : BookingStaffNote} {b : Booking} (hb : db.find n.bookingID = some b)
    (hshow : svc.shows callerID b = true) :
    svc.Agrees callerID { db with notes := db.notes ++ [n] } { db' with notes := db'.notes ++ [n] } := by
  refine ⟨h.rows, h.ids, ?_⟩
  have hb' := h.find_shown hb hshow
  simp only [List.filter_append, h.notes, List.filter_cons, hb, hb', Option.any_some, hshow, List.filter_nil]

/-! ## What the requests answer -/

theorem getBooking (h : svc.Agrees callerID db db') {id : String} (hid : svc.hides callerID db id = false) :
    BookingRepo.getByID id db.toBookingDB = BookingRepo.getByID id db'.toBookingDB := by
  rcases h.find_cases id with heq | ⟨b, b', hb, -, hhide, -⟩
  · exact getByID_congr heq
  · simp [hides, hb, hhide] at hid

theorem listByUser (h : svc.Agrees callerID db db') (status : String) (offset limit : ℕ) :
    BookingRepo.listByUser callerID status offset limit db = BookingRepo.listByUser callerID status offset limit db' := by
  unfold BookingRepo.listByUser uuidParam
  by_cases hu : isUUID callerID = true
  · rw [if_pos hu]
    have hrows := h.select_eq (p := fun b => b.userID == callerID && (status == "" || b.status.string == status)) fun b hb => by
      rw [shows, (Bool.and_eq_true_iff.1 hb).1, Bool.true_or]
    simp only [bind, Except.bind, hrows]
  · rw [if_neg hu]
    rfl

theorem listByVenue (h : svc.Agrees callerID db db') {f : VenueFilter} (haccess : svc.crm.managementAccess f.venueID callerID ≠ "")
    (cursor : String) (limit : ℕ) :
    BookingRepo.listByVenue svc.codec svc.pg f cursor limit db = BookingRepo.listByVenue svc.codec svc.pg f cursor limit db' := by
  unfold BookingRepo.listByVenue
  cases BookingRepo.cursorParts svc.codec cursor with
  | error err => rfl
  | ok parts =>
    cases hp : BookingRepo.venueWhere svc.pg f with
    | error err => rfl
    | ok p =>
      have hshow : ∀ b, p b = true → svc.shows callerID b = true := by
        intro b hb
        unfold shows
        rw [venueWhere_venue hp hb, bne_iff_ne.2 haccess, Bool.or_true]
      have hcount : ∀ b ∈ db.bookings.select p, BookingRepo.staffNotesCount db b = BookingRepo.staffNotesCount db' b := by
        intro b hb
        obtain ⟨hmem, hpb⟩ := List.mem_filter.1 hb
        have hfind : db.find b.id = some b :=
          db.bookings.get_key hmem (by simp) fun x hx => by simpa [bookingSchema] using hx
        unfold BookingRepo.staffNotesCount
        rw [h.notes_eq hfind (hshow b hpb)]
      simp only [bind, Except.bind]
      cases BookingRepo.cursorKey svc.pg parts with
      | error err => rfl
      | ok after =>
        have hmem : ∀ b ∈ Keyset.after Booking.key (db.bookings.select p) after, b ∈ db.bookings.select p :=
          fun _ => Keyset.mem_of_mem_after
        simp only [pure, Except.pure, ← h.select_eq hshow]
        generalize Keyset.after Booking.key (db.bookings.select p) after = rows at hmem
        have hmap : ∀ l : List Booking, (∀ b ∈ l, b ∈ rows) →
            l.map (fun b => (b, BookingRepo.staffNotesCount db b)) = l.map fun b => (b, BookingRepo.staffNotesCount db' b) :=
          fun l hl => List.map_congr_left fun b hb => by rw [hcount b (hmem b (hl b hb))]
        rw [hmap]
        intro b hb
        split at hb
        · exact List.mem_of_mem_take (List.mem_of_mem_take hb)
        · exact List.mem_of_mem_take hb

/-- **The booking of a request about notes** is refused alike when it is hidden. -/
theorem managedBooking (h : svc.Agrees callerID db db') (id : String) :
    svc.managedBooking id callerID db = svc.managedBooking id callerID db' := by
  unfold BookingService.managedBooking
  rcases h.find_cases id with heq | ⟨b, b', hb, hb', hhide, hhide'⟩
  · rw [getByID_congr heq]
  · obtain ⟨err, herr⟩ := requireVenueCRMAccess_refused svc callerID
    have hrefused : ∀ {db : NotedDB} {b : Booking}, db.find id = some b → svc.shows callerID b = false →
        svc.requireVenueCRMAccess b.venueID callerID = .error err := by
      intro db b hb hhide
      simp only [shows, Bool.or_eq_false_iff, bne_eq_false_iff_eq] at hhide
      exact herr b.venueID (isUUID_of_find hb).2 hhide.2
    rw [getByID_some hb, getByID_some hb']
    simp only [bind, Except.bind, hrefused hb hhide, hrefused hb' hhide']

theorem listBookingStaffNotes (h : svc.Agrees callerID db db') (id : String) :
    svc.listBookingStaffNotes id callerID db = svc.listBookingStaffNotes id callerID db' := by
  unfold BookingService.listBookingStaffNotes
  rw [← h.managedBooking id]
  cases hm : svc.managedBooking id callerID db with
  | error err => rfl
  | ok b =>
    obtain ⟨hb, hshow⟩ := managedBooking_ok hm
    simp only [bind, Except.bind, BookingRepo.listBookingStaffNotes, uuidParam_ok (isUUID_of_find hb).1, h.notes_eq hb hshow]

theorem addBookingStaffNote (h : svc.Agrees callerID db db') (env : BookEnv) (id body : String) :
    (svc.addBookingStaffNote env id callerID body db).1 = (svc.addBookingStaffNote env id callerID body db').1 ∧
      svc.Agrees callerID (svc.addBookingStaffNote env id callerID body db).2
        (svc.addBookingStaffNote env id callerID body db').2 := by
  unfold BookingService.addBookingStaffNote
  rw [← h.managedBooking id]
  cases noteBody body with
  | error err => exact ⟨rfl, h⟩
  | ok body =>
    cases hm : svc.managedBooking id callerID db with
    | error err => exact ⟨rfl, h⟩
    | ok b =>
      obtain ⟨hb, hshow⟩ := managedBooking_ok hm
      simp only [bind, Except.bind, pure, Except.pure]
      unfold BookingRepo.addBookingStaffNote
      dsimp only
      split
      · refine ⟨rfl, h.addNote ?_ hshow⟩
        rw [(BookingDB.find_id hb).2]
        exact hb
      · exact ⟨rfl, h⟩
      · exact ⟨rfl, h⟩
      · exact ⟨rfl, h⟩

theorem cancelBooking (h : svc.Agrees callerID db db') (env : BookEnv) (id : String) :
    (svc.cancelBooking env id callerID db).1 = (svc.cancelBooking env id callerID db').1 ∧
      svc.Agrees callerID (svc.cancelBooking env id callerID db).2 (svc.cancelBooking env id callerID db').2 := by
  rcases h.find_cases id with heq | ⟨b, b', hb, hb', hhide, hhide'⟩
  · cases hb : db.find id with
    | none =>
      obtain ⟨err, herr⟩ := cancelBooking_missing svc env id callerID
      rw [herr hb, herr (heq ▸ hb)]
      exact ⟨rfl, h⟩
    | some b =>
      have hb' : db'.find id = some b := heq ▸ hb
      cases hr : cancelRefusal svc.uc env.now callerID b with
      | some err =>
        rw [cancelBooking_refused hb hr, cancelBooking_refused hb' hr]
        exact ⟨rfl, h⟩
      | none =>
        obtain ⟨bookings, outbox, hup, hdone⟩ := cancelBooking_done hb hr
        obtain ⟨bookings', outbox', hup', hdone'⟩ := cancelBooking_done hb' hr
        rw [hdone, hdone']
        exact ⟨rfl, h.update (f := cancelRow env.now) (fun _ => rfl) (fun _ => rfl) hup hup' outbox outbox'⟩
  · -- somebody else's booking
    have hrefused : ∀ {b : Booking}, svc.shows callerID b = false →
        cancelRefusal svc.uc env.now callerID b = some (.status .permissionDenied "not your booking") := by
      intro b hhide
      simp only [shows, Bool.or_eq_false_iff, beq_eq_false_iff_ne] at hhide
      exact if_pos hhide.1
    rw [cancelBooking_refused hb (hrefused hhide), cancelBooking_refused hb' (hrefused hhide')]
    exact ⟨rfl, h⟩

end Agrees

/-! ## Requests -/

theorem callerOf_cases (userID : String) : (∃ err, callerOf userID = .error err) ∨ callerOf userID = .ok (trimSpace userID) := by
  unfold callerOf
  split
  · exact .inl ⟨_, rfl⟩
  · exact .inr rfl

section Agree

variable {userID : String} (h : svc.Agrees (trimSpace userID) db db')
include h

theorem rpc_listUserBookings (status : String) (page pageSize : ℤ) :
    BookingServer.listUserBookings userID status page pageSize db =
      BookingServer.listUserBookings userID status page pageSize db' := by
  unfold BookingServer.listUserBookings
  rcases callerOf_cases userID with ⟨err, he⟩ | hc
  · rw [he]
    rfl
  · rw [hc]
    simp only [bind, Except.bind, listUserBookings, h.listByUser]

theorem rpc_listVenueBookings (f : VenueFilter) (cursor : String) (pageSize : ℤ) :
    BookingServer.listVenueBookings svc userID f cursor pageSize db =
      BookingServer.listVenueBookings svc userID f cursor pageSize db' := by
  unfold BookingServer.listVenueBookings
  rcases callerOf_cases userID with ⟨err, he⟩ | hc
  · rw [he]
    rfl
  · rw [hc]
    simp only [bind, Except.bind, listVenueBookings]
    cases hr : svc.requireVenueCRMAccess f.venueID (trimSpace userID) with
    | error err => rfl
    | ok u => simp only [h.listByVenue (requireVenueCRMAccess_ok hr)]

theorem rpc_listBookingStaffNotes (id : String) :
    BookingServer.listBookingStaffNotes svc userID id db = BookingServer.listBookingStaffNotes svc userID id db' := by
  unfold BookingServer.listBookingStaffNotes
  rcases callerOf_cases userID with ⟨err, he⟩ | hc
  · rw [he]
    rfl
  · rw [hc]
    exact h.listBookingStaffNotes id

theorem rpc_addBookingStaffNote (env : BookEnv) (id body : String) :
    (BookingServer.addBookingStaffNote svc env userID id body db).1 =
      (BookingServer.addBookingStaffNote svc env userID id body db').1 ∧
    svc.Agrees (trimSpace userID) (BookingServer.addBookingStaffNote svc env userID id body db).2
      (BookingServer.addBookingStaffNote svc env userID id body db').2 := by
  unfold BookingServer.addBookingStaffNote
  rcases callerOf_cases userID with ⟨err, he⟩ | hc
  · rw [he]
    exact ⟨rfl, h⟩
  · rw [hc]
    exact h.addBookingStaffNote env id body

theorem rpc_cancelBooking (env : BookEnv) (id : String) :
    (BookingServer.cancelBooking svc env userID id db).1 = (BookingServer.cancelBooking svc env userID id db').1 ∧
    svc.Agrees (trimSpace userID) (BookingServer.cancelBooking svc env userID id db).2
      (BookingServer.cancelBooking svc env userID id db').2 := by
  unfold BookingServer.cancelBooking
  rcases callerOf_cases userID with ⟨err, he⟩ | hc
  · rw [he]
    exact ⟨rfl, h⟩
  · rw [hc]
    obtain ⟨hres, hkept⟩ := h.cancelBooking env id
    refine ⟨?_, hkept⟩
    dsimp only
    rw [hres]

end Agree

/-- **Every request but one that gets a hidden booking** is answered alike, and leaves the two stores alike. -/
theorem serve_agrees {users : String → Except Err String} {caller : Caller} {req : BookingRequest × BookEnv}
    (h : svc.Agrees (trimSpace caller.userID) db db')
    (hreq : ∀ id, req.1 = .get id → svc.hides (trimSpace caller.userID) db id = false) :
    (BookingHandler.serve svc users caller req db).1 = (BookingHandler.serve svc users caller req db').1 ∧
      svc.Agrees (trimSpace caller.userID) (BookingHandler.serve svc users caller req db).2
        (BookingHandler.serve svc users caller req db').2 := by
  obtain ⟨req, env⟩ := req
  unfold BookingHandler.serve
  cases req with
  | get id =>
    refine ⟨?_, h⟩
    simp only [BookingHandler.get, BookingServer.getBooking, BookingService.getBooking, h.getBooking (hreq id rfl)]
  | listMy status page pageSize =>
    refine ⟨?_, h⟩
    simp only [BookingHandler.listMy, rpc_listUserBookings h]
  | listVenueBookings f cursor pageSize =>
    dsimp only
    split
    · refine ⟨?_, h⟩
      simp only [BookingHandler.listVenueBookings, rpc_listVenueBookings h]
    · exact ⟨rfl, h⟩
  | listBookingStaffNotes id =>
    dsimp only
    split
    · refine ⟨?_, h⟩
      simp only [BookingHandler.listBookingStaffNotes, rpc_listBookingStaffNotes h]
    · exact ⟨rfl, h⟩
  | addBookingStaffNote id body =>
    dsimp only
    split
    · unfold BookingHandler.addBookingStaffNote
      split
      · exact ⟨rfl, h⟩
      · cases body with
        | error e => exact ⟨rfl, h⟩
        | ok body =>
          obtain ⟨hres, hkept⟩ := rpc_addBookingStaffNote h env id body
          refine ⟨?_, hkept⟩
          dsimp only
          rw [hres]
    · exact ⟨rfl, h⟩
  | cancel id =>
    dsimp only [BookingHandler.cancel]
    split
    · exact ⟨rfl, h⟩
    · obtain ⟨hres, hkept⟩ := rpc_cancelBooking h env id
      refine ⟨?_, hkept⟩
      dsimp only
      rw [hres]

theorem addBookingStaffNote_bookings (svc : BookingService) (env : BookEnv) (bookingID userID body : String) (db : NotedDB) :
    (svc.addBookingStaffNote env bookingID userID body db).2.toBookingDB = db.toBookingDB := by
  unfold BookingService.addBookingStaffNote
  dsimp only
  split
  · rfl
  · unfold BookingRepo.addBookingStaffNote
    split <;> rfl

theorem cancelBooking_find (svc : BookingService) (env : BookEnv) (bookingID userID : String) (db : NotedDB) (id : String) :
    (svc.cancelBooking env bookingID userID db).2.find id = db.find id ∨
      ∃ b, db.find id = some b ∧ b.userID = userID ∧
        (svc.cancelBooking env bookingID userID db).2.find id = some (cancelRow env.now b) := by
  cases hb : db.find bookingID with
  | none =>
    obtain ⟨err, herr⟩ := cancelBooking_missing svc env bookingID userID
    exact .inl (by rw [herr hb])
  | some b =>
    cases hr : cancelRefusal svc.uc env.now userID b with
    | some err => exact .inl (by rw [cancelBooking_refused hb hr])
    | none =>
      obtain ⟨bookings, outbox, hup, hdone⟩ := cancelBooking_done hb hr
      rw [hdone]
      have hfind := BookingDB.find_update (f := cancelRow env.now) hup (fun _ => rfl) outbox db.issued id
      by_cases hid : id = bookingID
      · subst hid
        refine .inr ⟨b, hb, cancelRefusal_none hr, ?_⟩
        rw [hb, Option.map_some, if_pos (by simpa using (BookingDB.find_id hb).2)] at hfind
        exact hfind
      · refine .inl (hfind.trans ?_)
        cases hx : db.find id with
        | none => rfl
        | some x =>
          have hne : (x.id == bookingID) = false := by
            rw [(BookingDB.find_id hx).2]
            simpa using hid
          rw [Option.map_some, hne]
          rfl

/-- **A request changes no booking but one of the caller's**, which he cancels. -/
theorem serve_find (svc : BookingService) (users : String → Except Err String) (caller : Caller) (req : BookingRequest × BookEnv)
    (db : NotedDB) (id : String) :
    (BookingHandler.serve svc users caller req db).2.find id = db.find id ∨
      ∃ b, db.find id = some b ∧ b.userID = trimSpace caller.userID ∧
        (BookingHandler.serve svc users caller req db).2.find id = some (cancelRow req.2.now b) := by
  obtain ⟨req, env⟩ := req
  unfold BookingHandler.serve
  cases req with
  | get bookingID => exact .inl rfl
  | listMy status page pageSize => exact .inl rfl
  | listVenueBookings f cursor pageSize =>
    left
    dsimp only
    split <;> rfl
  | listBookingStaffNotes bookingID =>
    left
    dsimp only
    split <;> rfl
  | addBookingStaffNote bookingID body =>
    left
    dsimp only [BookingHandler.addBookingStaffNote, BookingServer.addBookingStaffNote]
    split
    · split
      · rfl
      · cases body with
        | error e => rfl
        | ok body =>
          rcases callerOf_cases caller.userID with ⟨err, he⟩ | hc
          · rw [he]
          · rw [hc]
            exact congrArg (BookingDB.find · id) (addBookingStaffNote_bookings svc env bookingID _ body db)
    · rfl
  | cancel bookingID =>
    dsimp only [BookingHandler.cancel, BookingServer.cancelBooking]
    split
    · exact .inl rfl
    · rcases callerOf_cases caller.userID with ⟨err, he⟩ | hc
      · rw [he]
        exact .inl rfl
      · rw [hc]
        exact cancelBooking_find svc env bookingID _ db id

/-- A hidden booking stays as it is. -/
theorem serve_hidden {users : String → Except Err String} {caller : Caller} {req : BookingRequest × BookEnv} {id : String}
    {b : Booking} (hb : db.find id = some b) (hhide : svc.shows (trimSpace caller.userID) b = false) :
    (BookingHandler.serve svc users caller req db).2.find id = some b := by
  rcases serve_find svc users caller req db id with h | ⟨b', hb', hown, -⟩
  · rw [h, hb]
  · rw [hb] at hb'
    cases hb'
    simp [shows, hown] at hhide

theorem serve_hides (svc : BookingService) (users : String → Except Err String) (caller : Caller)
    (req : BookingRequest × BookEnv) (db : NotedDB) (id : String) :
    svc.hides (trimSpace caller.userID) (BookingHandler.serve svc users caller req db).2 id =
      svc.hides (trimSpace caller.userID) db id := by
  unfold hides
  rcases serve_find svc users caller req db id with h | ⟨b, hb, -, h⟩
  · rw [h]
  · rw [h, hb]
    rfl

/-! ## What tells the stores apart -/

/-- A store with another comment on a booking. -/
theorem exists_recommented {id : String} {b : Booking} (hb : db.find id = some b) (hhide : svc.shows callerID b = false) :
    ∃ db', svc.Agrees callerID db db' ∧ db'.find id = some { b with comment := b.comment ++ "!" } := by
  obtain ⟨bookings, hup⟩ := BookingRepo.update_bookings db.toBookingDB (·.id == id)
    (f := fun b => { b with comment := b.comment ++ "!" }) (fun _ => rfl) fun _ h => h
  have hfind := fun id' => BookingDB.find_update hup (fun _ => rfl) db.outbox db.issued id'
  refine ⟨{ db with bookings := bookings }, ⟨?_, fun id' => ?_, ?_⟩, ?_⟩
  · refine (Table.select_update_others hup fun r hr hp => ?_).symm
    have hr' : r = b := by
      refine db.bookings.eq_of_clash hr (BookingDB.find_id hb).1 ?_
      simpa [bookingSchema, (BookingDB.find_id hb).2] using hp
    rw [hr']
    exact ⟨hhide, hhide⟩
  · exact (congrArg Option.isSome (hfind id')).trans Option.isSome_map |>.symm
  · refine List.filter_congr fun n _ => ?_
    have hany := congrArg (fun o => Option.any (svc.shows callerID) o) (hfind n.bookingID)
    refine Eq.trans ?_ hany.symm
    cases db.find n.bookingID with
    | none => rfl
    | some x =>
      simp only [Option.map_some, Option.any_some]
      split <;> rfl
  · refine (hfind id).trans ?_
    rw [hb, Option.map_some, if_pos (by simpa using (BookingDB.find_id hb).2)]

/-- One booking, hidden in both stores, whose comment differs. -/
def Differs (svc : BookingService) (callerID id : String) (db db' : NotedDB) : Prop :=
  ∃ b b', db.find id = some b ∧ db'.find id = some b' ∧ svc.shows callerID b = false ∧ svc.shows callerID b' = false ∧
    b.comment ≠ b'.comment

theorem get_differs {id : String} (h : svc.Differs callerID id db db') : BookingHandler.get id db ≠ BookingHandler.get id db' := by
  obtain ⟨b, b', hb, hb', -, -, hne⟩ := h
  intro heq
  unfold BookingHandler.get BookingServer.getBooking BookingService.getBooking at heq
  rw [getByID_some hb, getByID_some hb'] at heq
  injection heq with _ hbody
  injection hbody with hjson
  exact hne (congrArg BookingJSON.comment hjson)

end BookingService

def strangerService : BookingService where
  uc := sampleBookings
  codec := plainCodec
  pg := canonicalText
  crm := ⟨[(sampleBooking.venueID, "00000000-0000-0000-0000-0000000000d1")], []⟩

def stranger : Caller := ⟨"00000000-0000-0000-0000-0000000000a2", "user"⟩

/-- The booking of another guest, with a comment. -/
def commentedBookings (comment : String) : NotedDB where
  bookings := ⟨[{ sampleBooking with comment := comment }],
    fun r hr => by rw [List.mem_singleton.1 hr]; exact (by decide : bookingSchema.check sampleBooking = true), by simp⟩
  outbox := []
  issued := []
  notes := []

end Agregator
