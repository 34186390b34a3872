import Agregator.BookUsecase
/-!
# BookFacts — what the calls of the booking service do to a booking

Five statements of the repository write a booking whatever its status is.  For those, `exec_target`: the status they leave,
and that they touch no other booking.  For all others, `exec_guarded`: the move they make.
-/
namespace Agregator

open Rel Conc

namespace BookingDB

variable {db : BookingDB} {id : String} {b : Booking}

theorem find_id (h : db.find id = some b) : b ∈ db.bookings.rows ∧ b.id = id := by
  obtain ⟨hb, hid⟩ := Table.get_mem h
  exact ⟨hb, by simpa using hid⟩

theorem status_of_find (h : db.find id = some b) : db.status id = some b.status := by
  rw [status, h]
  rfl

theorem find_of_status {s : BookingStatus} (h : db.status id = some s) : ∃ b, db.find id = some b ∧ b.status = s := by
  unfold status at h
  cases hf : db.find id with
  | none =>
    rw [hf] at h
    cases h
  | some b =>
    rw [hf] at h
    exact ⟨b, rfl, by simpa using h⟩

/-- What an update that keeps the keys makes of the booking with a key. -/
theorem find_update {p : Booking → Bool} {f : Booking → Booking} {bookings : Table bookingSchema}
    (h : db.bookings.update p f = .ok bookings) (hf : ∀ b, (f b).id = b.id) (outbox : List BookingEvent)
    (issued : List String) (id : String) :
    BookingDB.find ⟨bookings, outbox, issued⟩ id = (db.find id).map fun b => if p b then f b else b :=
  Table.get_update h fun b => by rw [hf]

theorem find_delete (p : Booking → Bool) (id : String) :
    BookingDB.find { db with bookings := db.bookings.delete p } id = (db.find id).bind fun b => if p b then none else some b :=
  db.bookings.get_delete fun a b ha hb => by
    have ha : a.id = id := by simpa using ha
    have hb : b.id = id := by simpa using hb
    simp [bookingSchema, ha, hb]

end BookingDB

/-! ## One statement -/

namespace BookingRepo

theorem getByID_ok {db : BookingDB} {id : String} {b : Booking} (h : getByID id db = .ok b) : db.find id = some b := by
  unfold getByID at h
  rcases uuidParam_cases id with ⟨hu, -⟩ | ⟨e, hu, -⟩
  · rw [hu] at h
    dsimp only at h
    split at h
    · rename_i b' hb
      cases h
      exact hb
    · cases h
  · rw [hu] at h
    cases h

/-- A write by id fails and changes nothing, or finds its booking. -/
theorem updateByID_cases (id : String) (f : Booking → Booking) (andThen : BookingDB → BookingDB) (db : BookingDB) :
    (∃ e, updateByID id f andThen db = (.error e, db)) ∨
    ∃ b bookings, db.find id = some b ∧ db.bookings.update (·.id == id) f = .ok bookings ∧
      updateByID id f andThen db = (.ok (), andThen { db with bookings := bookings }) := by
  unfold updateByID
  rcases uuidParam_cases id with ⟨hu, -⟩ | ⟨e, hu, -⟩
  · rw [hu]
    dsimp only
    cases ht : db.bookings.update (·.id == id) f with
    | error v => exact .inl ⟨_, rfl⟩
    | ok bookings =>
      cases hf : db.find id with
      | none => exact .inl ⟨_, rfl⟩
      | some b => exact .inr ⟨b, bookings, rfl, rfl, rfl⟩
  · rw [hu]
    exact .inl ⟨e, rfl⟩

/-- An update that keeps the keys and the domains of the columns succeeds. -/
theorem update_bookings (db : BookingDB) (p : Booking → Bool) {f : Booking → Booking} (hf : ∀ b, (f b).id = b.id)
    (hc : ∀ b, bookingSchema.check b = true → bookingSchema.check (f b) = true) :
    ∃ bookings, db.bookings.update p f = .ok bookings := by
  refine db.bookings.update_ok (fun b hb _ => hc b (db.bookings.checked b hb)) fun a _ b _ hab => ?_
  have hid : ∀ b, (if p b then f b else b).id = b.id := fun b => by split <;> simp [hf]
  simpa only [bookingSchema, hid] using hab

/-- A write by id of a booking that is there succeeds. -/
theorem updateByID_ok {db : BookingDB} {id : String} {b : Booking} (hu : isUUID id = true) (hb : db.find id = some b)
    {f : Booking → Booking} (hf : ∀ b, (f b).id = b.id)
    (hc : ∀ b, bookingSchema.check b = true → bookingSchema.check (f b) = true) {andThen : BookingDB → BookingDB}
    (ha : ∀ db id, (andThen db).find id = db.find id) :
    (updateByID id f andThen db).1 = .ok () ∧ (updateByID id f andThen db).2.find id = some (f b) := by
  obtain ⟨bookings, hup⟩ := update_bookings db (·.id == id) hf hc
  have he : updateByID id f andThen db = (.ok (), andThen { db with bookings := bookings }) := by
    unfold updateByID
    rw [uuidParam_ok hu]
    dsimp only
    rw [hup, hb]
  rw [he, ha, BookingDB.find_update hup hf, hb]
  simp [(BookingDB.find_id hb).2]

/-- A write by id that changes anything finds its booking and leaves it rewritten. -/
theorem updateByID_find (id : String) {f : Booking → Booking} {andThen : BookingDB → BookingDB} (hf : ∀ b, (f b).id = b.id)
    (ha : ∀ db id, (andThen db).find id = db.find id) (db : BookingDB) :
    (updateByID id f andThen db).2 = db ∨
      ∃ b, db.find id = some b ∧ (updateByID id f andThen db).2.find id = some (f b) := by
  rcases updateByID_cases id f andThen db with ⟨e, he⟩ | ⟨b, bookings, hb, hu, he⟩
  · exact .inl (by rw [he])
  · refine .inr ⟨b, hb, ?_⟩
    rw [he, ha, BookingDB.find_update hu hf, hb]
    simp [(BookingDB.find_id hb).2]

/-- A write by id that is reported done has found its booking, and left it rewritten. -/
theorem updateByID_done {id : String} {f : Booking → Booking} {andThen : BookingDB → BookingDB} {db db' : BookingDB}
    (h : updateByID id f andThen db = (.ok (), db')) (hf : ∀ b, (f b).id = b.id)
    (ha : ∀ db id, (andThen db).find id = db.find id) : ∃ b, db.find id = some b ∧ db'.find id = some (f b) := by
  rcases updateByID_cases id f andThen db with ⟨e, he⟩ | ⟨b, bookings, hb, hu, he⟩
  · rw [he] at h
    cases h
  · rw [he] at h
    cases h
    refine ⟨b, hb, ?_⟩
    rw [ha, BookingDB.find_update hu hf, hb]
    simp [(BookingDB.find_id hb).2]

theorem updateByID_shape (id : String) (f : Booking → Booking) {andThen : BookingDB → BookingDB}
    (ha : ∀ db, ∃ l, andThen db = { db with outbox := db.outbox ++ l }) (db : BookingDB) :
    ∃ t l, (updateByID id f andThen db).2 = ⟨t, db.outbox ++ l, db.issued⟩ := by
  rcases updateByID_cases id f andThen db with ⟨e, he⟩ | ⟨b, bookings, -, -, he⟩
  · exact ⟨db.bookings, [], by rw [he, List.append_nil]⟩
  · obtain ⟨l, hl⟩ := ha { db with bookings := bookings }
    exact ⟨bookings, l, by rw [he]; exact hl⟩

/-- The statement of `ConfirmPayment` meets the booking and confirms it, or changes nothing. -/
theorem confirmPayment_cases (now : Time) (bookingID paymentID : String) (subject : BookingSubject) (db : BookingDB) :
    (confirmPayment now bookingID paymentID subject db).2 = db ∨
    ∃ bookings b, db.bookings.update (confirmable bookingID paymentID) (confirmRow now paymentID) = .ok bookings ∧
      db.bookings.get (confirmable bookingID paymentID) = some b ∧ isUUID paymentID = true ∧
      confirmPayment now bookingID paymentID subject db = (.ok (confirmRow now paymentID b, true),
        insertOutbox now (newBookingEvent subject (confirmRow now paymentID b)) { db with bookings := bookings }) := by
  unfold confirmPayment
  rcases uuidParam_cases bookingID with ⟨hb, -⟩ | ⟨e, hb, -⟩
  · rcases uuidParam_cases paymentID with ⟨hp, hu⟩ | ⟨e, hp, -⟩
    · rw [hb, hp]
      dsimp only
      split
      · exact .inl rfl
      · rename_i bookings hup
        split
        · rename_i b hg
          exact .inr ⟨bookings, b, hup, hg, hu, rfl⟩
        · split
          · exact .inl rfl
          · split <;> exact .inl rfl
    · rw [hb, hp]
      exact .inl rfl
  · rw [hb]
    exact .inl rfl

theorem cancelWithEvent_ok {db : BookingDB} {id : String} {b : Booking} (hu : isUUID id = true) (hb : db.find id = some b)
    (now : Time) (ev : BookingEvent) :
    (cancelWithEvent now id ev db).1 = .ok () ∧
      (cancelWithEvent now id ev db).2.find id = some { b with status := .cancelled, updatedAt := now } := by
  unfold cancelWithEvent
  refine updateByID_ok hu hb ?_ ?_ ?_
  · exact fun _ => rfl
  · exact fun _ h => h
  · exact fun _ _ => rfl

/-- A confirmation that finds its booking unpaid, and without another payment, confirms it. -/
theorem confirmPayment_ok {db : BookingDB} {id pid : String} {b : Booking} (hu : isUUID id = true) (hp : isUUID pid = true)
    (hb : db.find id = some b) (hc : confirmable id pid b = true) (now : Time) (subject : BookingSubject) :
    (confirmPayment now id pid subject db).2.find id = some (confirmRow now pid b) := by
  obtain ⟨bookings, hup⟩ := update_bookings db (confirmable id pid) (f := confirmRow now pid) (fun _ => rfl) fun b h => by
    simp only [bookingSchema, Bool.and_eq_true] at h ⊢
    refine ⟨⟨⟨⟨h.1.1.1.1, ?_⟩, h.1.1.2⟩, h.1.2⟩, h.2⟩
    unfold confirmRow
    dsimp only
    split
    · simp [hp]
    · exact h.1.1.1.2
  have hget : db.bookings.get (confirmable id pid) = some b := by
    obtain ⟨hmem, hid⟩ := BookingDB.find_id hb
    refine db.bookings.get_key hmem hc fun x hx => ?_
    simp only [confirmable, Bool.and_eq_true, beq_iff_eq] at hx
    simp [bookingSchema, hx.1.1, hid]
  unfold confirmPayment
  rw [uuidParam_ok hu, uuidParam_ok hp]
  dsimp only
  rw [hup, hget]
  dsimp only [insertOutbox]
  rw [BookingDB.find_update hup (fun _ => rfl), hb, Option.map_some, if_pos hc]

end BookingRepo

/-! ## One call -/

namespace BookOp

/-- The booking a statement writes whatever its status is, and the status it leaves. -/
def target : BookOp → Option (String × Option BookingStatus)
  | setPaymentAndStatus id _ _ st _ => some (id, some st)
  | cancelWithEvent id _ => some (id, some .cancelled)
  | updateStatus id st => some (id, some st)
  | delete id => some (id, none)
  | _ => none

/-- How a call may rewrite the row `b` of the booking `j`. -/
def Writes (j : String) (b b' : Booking) : BookOp → Prop
  | setPaymentAndStatus i pid url st _ => j = i ∧ isUUID pid = true ∧
      ∃ now, b' = { b with paymentID := pid, paymentURL := url, status := st, updatedAt := now }
  | cancelWithEvent i _ => j = i ∧ ∃ now, b' = { b with status := .cancelled, updatedAt := now }
  | updateStatus i st => j = i ∧ ∃ now, b' = { b with status := st, updatedAt := now }
  | confirmPayment i pid _ => BookingRepo.confirmable i pid b = true ∧ isUUID pid = true ∧
      ∃ now, b' = BookingRepo.confirmRow now pid b
  | autoCompleteVisitEnded => b.status = .confirmed ∧ ∃ now, b' = { b with status := .completed, updatedAt := now }
  | markCompletedEventSent i => j = i ∧ ∃ now, b' = { b with completedEventSentAt := some now }
  | _ => False

/-- Which rows a call may delete. -/
def Deletes (j : String) (b : Booking) : BookOp → Prop
  | delete i => j = i
  | deleteOrphanPending _ => b.status = .pending
  | _ => False

/-- What becomes of the row of a booking. -/
inductive RowStep (o : BookOp) (db : BookingDB) (j : String) : Option Booking → Option Booking → Prop
  | same (x : Option Booking) : RowStep o db j x x
  | write (b b' : Booking) : o.Writes j b b' → RowStep o db j (some b) (some b')
  | delete (b : Booking) : o.Deletes j b → RowStep o db j (some b) none
  | create (b b' : Booking) : o = .create b → b'.status = b.status → j ∉ db.issued → RowStep o db j none (some b')

end BookOp

/-- The keys of the bookings have been given out. -/
def BookingDB.Opening (db : BookingDB) : Prop := ∀ j b, db.find j = some b → j ∈ db.issued

/-! ### What each statement makes of the rows -/

section Rows

variable {o : BookOp} {db : BookingDB} {j : String}

theorem rowStep_update {p : Booking → Bool} {f : Booking → Booking} {bookings : Table bookingSchema}
    (h : db.bookings.update p f = .ok bookings) (hf : ∀ b, (f b).id = b.id) (hw : ∀ b, b.id = j → p b = true → o.Writes j b (f b))
    (outbox : List BookingEvent) (issued : List String) :
    o.RowStep db j (db.find j) (BookingDB.find ⟨bookings, outbox, issued⟩ j) := by
  rw [BookingDB.find_update h hf]
  cases hj : db.find j with
  | none => exact .same none
  | some b =>
    rw [Option.map_some]
    split
    · rename_i hp
      exact .write b (f b) (hw b (BookingDB.find_id hj).2 hp)
    · exact .same _

theorem rowStep_delete {p : Booking → Bool} (hd : ∀ b, b.id = j → p b = true → o.Deletes j b) :
    o.RowStep db j (db.find j) (BookingDB.find { db with bookings := db.bookings.delete p } j) := by
  rw [BookingDB.find_delete]
  cases hj : db.find j with
  | none => exact .same none
  | some b =>
    rw [Option.bind_some]
    split
    · rename_i hp
      exact .delete b (hd b (BookingDB.find_id hj).2 hp)
    · exact .same _

theorem rowStep_byID {id : String} {f : Booking → Booking} {andThen : BookingDB → BookingDB} (hf : ∀ b, (f b).id = b.id)
    (ha : ∀ db id, (andThen db).find id = db.find id) (hw : ∀ b, o.Writes id b (f b)) :
    o.RowStep db j (db.find j) ((BookingRepo.updateByID id f andThen db).2.find j) := by
  rcases BookingRepo.updateByID_cases id f andThen db with ⟨e, he⟩ | ⟨b, bookings, -, hu, he⟩
  · rw [he]
    exact .same _
  · rw [he, ha]
    refine rowStep_update hu hf (fun b hid hp => ?_) _ _
    obtain rfl : j = id := by rw [← hid]; simpa using hp
    exact hw b

end Rows

namespace BookOp

/-- **What becomes of a row in a call**, under any environment. -/
theorem run_row (loc : Location) (env : BookEnv) (hnew : env.newID ∉ db.issued) (hf : env.fault = .none) (o : BookOp) (j : String) :
    o.RowStep db j (db.find j) ((o.run loc env db).2.find j) := by
  cases o with
  | getVenue | checkSlotAvailability | reserveSlot | releaseSlot | createPayment | publishBookingCompleted | now =>
    exact .same _
  | getByID | findUnpublishedCompleted | findExpiredPaymentPending =>
    simp only [run, hf, Fault.apply_none]
    exact .same _
  | create b =>
    simp only [run, hf, Fault.apply_none]
    unfold BookingRepo.create
    dsimp only
    split
    · exact .same _
    · rename_i bookings hi
      have hg := Table.get_insert hi (·.id == j)
      simp only [BookingDB.find]
      rw [hg]
      cases hj : db.bookings.get (·.id == j) with
      | some b' => exact .same _
      | none =>
        rw [Option.none_or]
        split
        · rename_i hid
          refine .create b _ rfl rfl ?_
          rwa [← (by simpa using hid : env.newID = j)]
        · exact .same _
  | delete i =>
    simp only [run, hf, Fault.apply_none, BookingRepo.delete]
    split
    · exact .same _
    · rename_i id hu
      refine rowStep_delete fun b hid hp => ?_
      have : i = id := by
        rcases uuidParam_cases i with ⟨h, -⟩ | ⟨e, h, -⟩
        · rw [h] at hu; simpa using hu
        · rw [h] at hu; cases hu
      rw [Deletes, this, ← hid]
      simpa using hp
  | setPaymentAndStatus i pid url st ev =>
    simp only [run, hf, Fault.apply_none, BookingRepo.setPaymentAndStatus]
    rcases uuidParam_cases pid with ⟨hu, hp⟩ | ⟨e, hu, -⟩
    · rw [hu]
      exact rowStep_byID (fun _ => rfl) (fun _ _ => rfl) fun b => ⟨rfl, hp, env.now, rfl⟩
    · rw [hu]
      exact .same _
  | cancelWithEvent i ev =>
    simp only [run, hf, Fault.apply_none, BookingRepo.cancelWithEvent]
    exact rowStep_byID (fun _ => rfl) (fun _ _ => rfl) fun b => ⟨rfl, env.now, rfl⟩
  | updateStatus i st =>
    simp only [run, hf, Fault.apply_none, BookingRepo.updateStatus]
    exact rowStep_byID (fun _ => rfl) (fun _ _ => rfl) fun b => ⟨rfl, env.now, rfl⟩
  | confirmPayment i pid subject =>
    simp only [run, hf, Fault.apply_none]
    rcases BookingRepo.confirmPayment_cases env.now i pid subject db with he | ⟨bookings, b, hu, -, hp, he⟩
    · rw [he]
      exact .same _
    · rw [he]
      exact rowStep_update (o := .confirmPayment i pid subject) hu (fun _ => rfl) (fun b _ hb => ⟨hb, hp, env.now, rfl⟩) _ _
  | autoCompleteVisitEnded =>
    simp only [run, hf, Fault.apply_none, BookingRepo.autoCompleteVisitEnded, BookingRepo.updateAll]
    split
    · exact .same _
    · rename_i bookings hu
      refine rowStep_update (o := .autoCompleteVisitEnded) hu (fun _ => rfl) (fun b _ hb => ⟨?_, env.now, rfl⟩) _ _
      simp only [BookingRepo.visitEnded, Bool.and_eq_true, beq_iff_eq] at hb
      exact hb.1.1
  | markCompletedEventSent i =>
    simp only [run, hf, Fault.apply_none, BookingRepo.markCompletedEventSent, BookingRepo.updateAll]
    rcases uuidParam_cases i with ⟨hu, -⟩ | ⟨e, hu, -⟩
    · rw [hu]
      dsimp only
      cases hup : db.bookings.update (·.id == i) (fun b => { b with completedEventSentAt := some env.now }) with
      | error v => exact .same _
      | ok bookings =>
        refine rowStep_update (o := .markCompletedEventSent i) hup (fun _ => rfl) (fun b hid hb => ⟨?_, env.now, rfl⟩) _ _
        rw [← hid]
        simpa using hb
    · rw [hu]
      exact .same _
  | deleteOrphanPending age =>
    simp only [run, hf, Fault.apply_none, BookingRepo.deleteOrphanPending]
    refine rowStep_delete fun b _ hp => ?_
    simp only [BookingRepo.orphan, Bool.and_eq_true, beq_iff_eq] at hp
    exact hp.1.1

/-- **What a call makes of the outbox and of the keys**: rows are appended to the one, and one key is added to the others when
it creates a booking. -/
theorem run_shape (loc : Location) (env : BookEnv) (hf : env.fault = .none) (o : BookOp) (db : BookingDB) :
    (∃ t l, (o.run loc env db).2 = ⟨t, db.outbox ++ l, db.issued⟩) ∨
      ∃ b t, o = .create b ∧ (o.run loc env db).2 = ⟨t, db.outbox, env.newID :: db.issued⟩ := by
  have hsame : ∃ t l, db = ⟨t, db.outbox ++ l, db.issued⟩ := ⟨db.bookings, [], by rw [List.append_nil]⟩
  have hrows : ∀ t, ∃ t' l, ({ db with bookings := t } : BookingDB) = ⟨t', db.outbox ++ l, db.issued⟩ :=
    fun t => ⟨t, [], by rw [List.append_nil]⟩
  cases o with
  | getVenue | checkSlotAvailability | reserveSlot | releaseSlot | createPayment | publishBookingCompleted | now =>
    exact .inl hsame
  | getByID | findUnpublishedCompleted | findExpiredPaymentPending =>
    left
    simp only [run, hf, Fault.apply_none]
    exact hsame
  | deleteOrphanPending age =>
    left
    simp only [run, hf, Fault.apply_none, BookingRepo.deleteOrphanPending]
    exact hrows _
  | create b =>
    right
    simp only [run, hf, Fault.apply_none]
    unfold BookingRepo.create
    dsimp only
    split
    · exact ⟨b, db.bookings, rfl, rfl⟩
    · exact ⟨b, _, rfl, rfl⟩
  | delete i =>
    left
    simp only [run, hf, Fault.apply_none, BookingRepo.delete]
    split
    · exact hsame
    · exact hrows _
  | setPaymentAndStatus i pid url st ev =>
    left
    simp only [run, hf, Fault.apply_none, BookingRepo.setPaymentAndStatus]
    split
    · exact hsame
    · refine BookingRepo.updateByID_shape _ _ ?_ db
      exact fun _ => ⟨_, rfl⟩
  | cancelWithEvent i ev =>
    left
    simp only [run, hf, Fault.apply_none, BookingRepo.cancelWithEvent]
    refine BookingRepo.updateByID_shape _ _ ?_ db
    exact fun _ => ⟨_, rfl⟩
  | updateStatus i st =>
    left
    simp only [run, hf, Fault.apply_none, BookingRepo.updateStatus]
    refine BookingRepo.updateByID_shape _ _ ?_ db
    exact fun _ => ⟨[], by rw [List.append_nil]⟩
  | confirmPayment i pid subject =>
    left
    simp only [run, hf, Fault.apply_none]
    rcases BookingRepo.confirmPayment_cases env.now i pid subject db with he | ⟨bookings, b, -, -, -, he⟩
    · rw [he]
      exact hsame
    · rw [he]
      exact ⟨bookings, _, rfl⟩
  | autoCompleteVisitEnded =>
    left
    simp only [run, hf, Fault.apply_none, BookingRepo.autoCompleteVisitEnded, BookingRepo.updateAll]
    split
    · exact hsame
    · exact hrows _
  | markCompletedEventSent i =>
    left
    simp only [run, hf, Fault.apply_none, BookingRepo.markCompletedEventSent, BookingRepo.updateAll]
    split
    · exact hsame
    · cases db.bookings.update _ _ with
      | error v => exact hsame
      | ok t => exact hrows t

/-- The keys given out after a call: the same ones, or one more when it creates a booking. -/
theorem run_issued (loc : Location) (env : BookEnv) (hf : env.fault = .none) (o : BookOp) (db : BookingDB) :
    (o.run loc env db).2.issued = db.issued ∨
      ∃ b, o = .create b ∧ (o.run loc env db).2.issued = env.newID :: db.issued := by
  rcases run_shape loc env hf o db with ⟨t, l, h⟩ | ⟨b, t, ho, h⟩
  · exact .inl (by rw [h])
  · exact .inr ⟨b, ho, by rw [h]⟩

/-- A booking that was not there is there under the new key. -/
theorem run_created {loc : Location} (env : BookEnv) (hf : env.fault = .none) (b : Booking) (h : db.find j = none)
    (h' : ((BookOp.create b).run loc env db).2.find j ≠ none) : j = env.newID := by
  simp only [run, hf, Fault.apply_none] at h'
  unfold BookingRepo.create at h'
  dsimp only at h'
  split at h'
  · exact absurd h h'
  · rename_i bookings hi
    simp only [BookingDB.find] at h h'
    rw [Table.get_insert hi, h, Option.none_or] at h'
    split at h'
    · rename_i hid
      exact (by simpa using hid : env.newID = j).symm
    · exact absurd rfl h'

end BookOp

namespace BookOp.Exec

variable {loc : Location} {o : BookOp} {db db' : BookingDB} {r : o.Res}

/-- The state after a call is the state before it, or what its statement makes of that. -/
theorem state (h : BookOp.Exec loc o db r db') :
    db' = db ∨ ∃ env : BookEnv, env.newID ∉ db.issued ∧ env.fault = .none ∧ db' = (o.run loc env db).2 := by
  obtain ⟨env, hnew, he⟩ := h
  have hdb : db' = (o.run loc env db).2 := by rw [he]
  have hfault : ∀ {α : Type} (f : BookingDB → Except Err α × BookingDB),
      (env.fault.apply Err.plain f db).2 = db ∨ (env.fault.apply Err.plain f db).2 = (f db).2 :=
    fun f => env.fault.apply_state _ f db
  cases o with
  | getVenue | checkSlotAvailability | reserveSlot | releaseSlot | createPayment | publishBookingCompleted | now =>
    exact .inl hdb
  | create | delete | setPaymentAndStatus | cancelWithEvent | updateStatus | getByID | confirmPayment |
      autoCompleteVisitEnded | markCompletedEventSent | findUnpublishedCompleted | deleteOrphanPending |
      findExpiredPaymentPending =>
    refine (hfault _).imp (fun hf => hdb.trans hf) fun hf => ⟨{ env with fault := .none }, hnew, rfl, hdb.trans hf⟩

/-- **What becomes of a row in a call.** -/
theorem row (h : BookOp.Exec loc o db r db') (j : String) : o.RowStep db j (db.find j) (db'.find j) := by
  rcases h.state with rfl | ⟨env, hnew, hf, rfl⟩
  · exact .same _
  · exact run_row loc env hnew hf o j

/-- **An unguarded write that changes anything** finds its booking and leaves the status it is after. -/
theorem target (h : BookOp.Exec loc o db r db') {i : String} {s : Option BookingStatus} (ht : o.target = some (i, s)) :
    db' = db ∨ (∃ b, db.find i = some b) ∧ db'.status i = s := by
  rcases h.state with rfl | ⟨env, -, hf, rfl⟩
  · exact .inl rfl
  have hstatus : ∀ {x : BookingDB} {f : Booking → Booking} {st : BookingStatus}, (∀ b, (f b).status = st) →
      x = db ∨ (∃ b, db.find i = some b ∧ x.find i = some (f b)) →
      x = db ∨ (∃ b, db.find i = some b) ∧ x.status i = some st := by
    rintro x f st hst (h | ⟨b, hb, hx⟩)
    · exact .inl h
    · exact .inr ⟨⟨b, hb⟩, by rw [BookingDB.status_of_find hx, hst]⟩
  cases o with
  | getVenue | checkSlotAvailability | reserveSlot | releaseSlot | createPayment | publishBookingCompleted | now |
      getByID | findUnpublishedCompleted | findExpiredPaymentPending | create | confirmPayment | autoCompleteVisitEnded |
      markCompletedEventSent | deleteOrphanPending => cases ht
  | setPaymentAndStatus id pid url st ev =>
    cases ht
    simp only [run, hf, Fault.apply_none, BookingRepo.setPaymentAndStatus]
    split
    · exact .inl rfl
    · refine hstatus ?_ (BookingRepo.updateByID_find i ?_ ?_ db) <;> intros <;> rfl
  | cancelWithEvent id ev =>
    cases ht
    simp only [run, hf, Fault.apply_none, BookingRepo.cancelWithEvent]
    refine hstatus ?_ (BookingRepo.updateByID_find i ?_ ?_ db) <;> intros <;> rfl
  | updateStatus id st =>
    cases ht
    simp only [run, hf, Fault.apply_none, BookingRepo.updateStatus]
    refine hstatus ?_ (BookingRepo.updateByID_find i ?_ ?_ db) <;> intros <;> rfl
  | delete id =>
    cases ht
    simp only [run, hf, Fault.apply_none, BookingRepo.delete]
    rcases uuidParam_cases i with ⟨hu, -⟩ | ⟨e, hu, -⟩
    · rw [hu]
      dsimp only
      cases hi : db.find i with
      | none =>
        left
        have hnone : ∀ b ∈ db.bookings.rows, (b.id == i) = false := Table.get_eq_none.1 hi
        rw [Table.delete_none _ hnone]
      | some b =>
        refine .inr ⟨⟨b, rfl⟩, ?_⟩
        rw [BookingDB.status, BookingDB.find_delete, hi]
        simp [(BookingDB.find_id hi).2]
    · rw [hu]
      exact .inl rfl

theorem opening (h : BookOp.Exec loc o db r db') (h0 : db.Opening) :
    db'.Opening ∧ ∀ i ∈ db.issued, i ∈ db'.issued := by
  rcases h.state with rfl | ⟨env, hnew, hf, rfl⟩
  · exact ⟨h0, fun i hi => hi⟩
  have hmore : ∀ i ∈ db.issued, i ∈ (o.run loc env db).2.issued := by
    intro i hi
    rcases run_issued loc env hf o db with he | ⟨b, -, he⟩
    · rwa [he]
    · rw [he]
      exact List.mem_cons_of_mem _ hi
  refine ⟨fun j b hb => ?_, hmore⟩
  have hrow := run_row loc env hnew hf o j
  rw [hb] at hrow
  generalize hx : db.find j = x at hrow
  cases hrow with
  | same => exact hmore j (h0 j b hx)
  | write b₀ _ _ => exact hmore j (h0 j b₀ hx)
  | create b₀ _ ho _ _ =>
    subst ho
    rw [run_created env hf b₀ hx (by rw [hb]; nofun)]
    rcases run_issued loc env hf (.create b₀) db with he | ⟨_, -, he⟩
    · simp only [run, hf, Fault.apply_none] at he
      unfold BookingRepo.create at he
      dsimp only at he
      split at he <;> exact absurd he (by simp)
    · rw [he]
      exact List.mem_cons_self

theorem getByID {id : String} {b : Booking} (h : BookOp.Exec loc (.getByID id) db (.ok b) db') :
    db' = db ∧ db.find id = some b := by
  obtain ⟨env, -, he⟩ := h
  have he := Fault.of_ok he
  simp only [Prod.mk.injEq] at he
  exact ⟨he.2.symm, BookingRepo.getByID_ok he.1⟩

/-- The outbox only grows. -/
theorem outbox (h : BookOp.Exec loc o db r db') : ∀ ev ∈ db.outbox, ev ∈ db'.outbox := by
  rcases h.state with rfl | ⟨env, -, hf, rfl⟩
  · exact fun _ h => h
  · rcases run_shape loc env hf o db with ⟨t, l, h⟩ | ⟨b, t, -, h⟩
    · rw [h]
      exact fun _ h => List.mem_append_left _ h
    · rw [h]
      exact fun _ h => h

/-- The key of a booking just created is new. -/
theorem created {d b : Booking} (h : BookOp.Exec loc (.create d) db (.ok b) db') : b.id ∉ db.issued := by
  obtain ⟨env, hnew, he⟩ := h
  have he := Fault.of_ok he
  unfold BookingRepo.create at he
  dsimp only at he
  split at he
  · cases he
  · cases he
    exact hnew

/-- **A cancellation that changes anything emits its event**, under a new number. -/
theorem cancelled {id : String} {ev : BookingEvent} {r : Except Err Unit}
    (h : BookOp.Exec loc (.cancelWithEvent id ev) db r db') :
    db' = db ∨ ∃ row : BookingEvent, row ∈ db'.outbox ∧ row ∉ db.outbox ∧ row.subject = ev.subject ∧ row.payload = ev.payload := by
  rcases h.state with h | ⟨env, -, hf, rfl⟩
  · exact .inl h
  simp only [run, hf, Fault.apply_none, BookingRepo.cancelWithEvent]
  rcases BookingRepo.updateByID_cases id (fun b => { b with status := .cancelled, updatedAt := env.now })
    (BookingRepo.insertOutbox env.now ev) db with ⟨e, he⟩ | ⟨b, bookings, -, -, he⟩
  · exact .inl (by rw [he])
  · refine .inr ⟨{ ev with id := nextSerial (db.outbox.map (·.id)), createdAt := env.now, sentAt := none }, ?_, fun hold => ?_, rfl, rfl⟩
    · rw [he]
      exact List.mem_append_right _ (List.mem_singleton.2 rfl)
    · have hid := lt_nextSerial (List.mem_map.2 ⟨_, hold, (rfl : BookingEvent.id _ = _)⟩)
      exact absurd hid (Int.lt_irrefl _)

end BookOp.Exec

end Agregator
