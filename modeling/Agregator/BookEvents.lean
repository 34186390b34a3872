import Agregator.BookStates
/-!
# BookEvents — the events of a booking while it is confirmed and cancelled

A confirmation checks the status in the statement that writes it; a cancellation checks it on the booking it has loaded, in
a transaction before.  So the outbox has one confirmation of a booking and none after a cancellation, but one cancellation
only in the runs in which no cancellation finds the booking cancelled by another (`single_events_iff`).
-/
namespace Agregator

open Rel Conc

/-! ## What is to be kept -/

namespace BookingDB

/-- The events of a booking under a subject, in the order of the outbox. -/
def announced (db : BookingDB) (subject : BookingSubject) (id : String) : List BookingEvent :=
  db.outbox.filter fun ev => ev.subject == subject && ev.payload.bookingID == id

theorem announced_append (bookings : Table bookingSchema) (l : List BookingEvent) (ev : BookingEvent) (issued : List String)
    (subject : BookingSubject) (id : String) :
    announced ⟨bookings, l ++ [ev], issued⟩ subject id =
      announced ⟨bookings, l, issued⟩ subject id ++
        if ev.subject = subject ∧ ev.payload.bookingID = id then [ev] else [] := by
  unfold announced
  rw [List.filter_append]
  congr 1
  by_cases hs : ev.subject = subject <;> by_cases hi : ev.payload.bookingID = id <;> simp [hs, hi]

/-- One cancellation, one confirmation, and none after a cancellation. -/
structure SingleEvents (db : BookingDB) (id : String) : Prop where
  cancelled : (db.announced .cancelled id).length ≤ 1
  confirmed : (db.announced .confirmed id).length ≤ 1
  ordered : ∀ x ∈ db.announced .confirmed id, ∀ y ∈ db.announced .cancelled id, x.id < y.id

/-- The events of a booking are those of its status. -/
structure Announced (db : BookingDB) (id : String) : Prop where
  single : db.SingleEvents id
  cancelled : db.status id = some .cancelled ↔ db.announced .cancelled id ≠ []
  unpaid : db.status id = some .paymentPending → db.announced .confirmed id = []

theorem Announced.none_cancelled {db : BookingDB} {id : String} (h : db.Announced id) (hs : db.status id ≠ some .cancelled) :
    db.announced .cancelled id = [] := by
  by_contra hne
  exact hs (h.cancelled.2 hne)

end BookingDB

/-- A cancellation of the booking that takes effect finds it not cancelled yet. -/
def FirstCancelled (id : String) (m : BookMoment) : Prop :=
  ∀ ev, m.op = .cancelWithEvent id ev → m.after ≠ m.before.world → m.before.world.status id ≠ some .cancelled

/-! ## The operations of the four calls -/

/-- The calls that confirm and cancel a booking. -/
def BookCall.lifecycle : BookCall → Bool
  | cancelBooking _ _ | cancelBookingByPayment _ | expireUnpaidBookings | confirmBooking _ _ => true
  | _ => false

/-- The booking service, running these calls only. -/
def lifecycleSys (uc : BookingUseCase) : Sys BookingDB BookCall BookOp BookOp.Res (Option Err) :=
  { bookSys uc with ready := fun c _ => c.lifecycle = true }

/-- What they do to the database. -/
def BookOp.Lifecycle : BookOp → Prop
  | releaseSlot _ _ | now | getByID _ | findExpiredPaymentPending _ _ | cancelWithEvent _ _ => True
  | confirmPayment _ _ subject => subject = .confirmed
  | _ => False

section Programs

open BookingUseCase

theorem storeCancelled_all (id : String) (b : Booking) : (storeCancelled id b).All BookOp.Lifecycle := by
  refine ⟨trivial, fun r => ?_⟩
  cases r with
  | error err => trivial
  | ok _ => exact ⟨trivial, fun _ => trivial⟩

theorem cancelBooking_all (uc : BookingUseCase) (id userID : String) : (uc.cancelBooking id userID).All BookOp.Lifecycle := by
  refine ⟨trivial, fun r => ?_⟩
  cases r with
  | error err => trivial
  | ok b =>
    dsimp only [Prog.bind_ret]
    split
    · trivial
    · split
      · trivial
      · refine Prog.All.bind (fun late => ?_) ?_
        · split
          · trivial
          · exact storeCancelled_all id b
        · unfold BookingUseCase.pastDeadline
          split
          · exact ⟨trivial, fun _ => trivial⟩
          · trivial

theorem cancelBookingByPayment_all (bookingID : String) : (cancelBookingByPayment bookingID).All BookOp.Lifecycle := by
  refine ⟨trivial, fun r => ?_⟩
  cases r with
  | error err =>
    dsimp only [Prog.bind_ret]
    split <;> trivial
  | ok b =>
    dsimp only [Prog.bind_ret]
    split
    · trivial
    · exact Prog.All.bind (fun a => by cases a <;> trivial) (storeCancelled_all bookingID b)

theorem expireEach_all (ids : List String) : (expireEach ids).All BookOp.Lifecycle := by
  induction ids with
  | nil => trivial
  | cons id ids ih =>
    refine Prog.All.bind (fun a => ?_) (cancelBookingByPayment_all id)
    cases a with
    | some _ => exact ih
    | none => exact Prog.All.bind (fun _ => by trivial) ih

theorem expireUnpaidBookings_all : expireUnpaidBookings.All BookOp.Lifecycle := by
  simp only [expireUnpaidBookings, Prog.bind_eq, Prog.perform_bind]
  refine ⟨trivial, fun r => ?_⟩
  cases r with
  | error err => trivial
  | ok ids => exact Prog.All.bind (fun _ => by trivial) (expireEach_all ids)

theorem BookCall.lifecycle_all (uc : BookingUseCase) (c : BookCall) :
    (c.prog uc).All fun o => c.lifecycle = true → o.Lifecycle := by
  cases c with
  | createBooking | completeBooking | autoCompletePastVisits => exact Prog.All.of_forall (fun _ h => by cases h) _
  | cancelBooking id userID =>
    exact (Prog.All.bind (fun _ => by trivial) (cancelBooking_all uc id userID)).mono fun _ h _ => h
  | confirmBooking id paymentID => exact ⟨fun _ => rfl, fun r => by cases r <;> trivial⟩
  | cancelBookingByPayment bookingID => exact (cancelBookingByPayment_all bookingID).mono fun _ h _ => h
  | expireUnpaidBookings => exact (Prog.All.bind (fun _ => by trivial) expireUnpaidBookings_all).mono fun _ h _ => h

end Programs

/-! ## One operation -/

/-- What an operation makes of the status of a booking and of its events. -/
inductive EventStep (o : BookOp) (db db' : BookingDB) (id : String) : Prop
  | quiet : db'.status id = db.status id → db'.announced .cancelled id = db.announced .cancelled id →
      db'.announced .confirmed id = db.announced .confirmed id → (∀ ev, o = .cancelWithEvent id ev → db' = db) →
      EventStep o db db' id
  | confirm (ev : BookingEvent) : db.status id = some .paymentPending → db'.status id = some .confirmed →
      db'.announced .cancelled id = db.announced .cancelled id →
      db'.announced .confirmed id = db.announced .confirmed id ++ [ev] → (∀ ev, o ≠ .cancelWithEvent id ev) →
      EventStep o db db' id
  | cancel (ev : BookingEvent) : db'.status id = some .cancelled →
      db'.announced .cancelled id = db.announced .cancelled id ++ [ev] →
      db'.announced .confirmed id = db.announced .confirmed id → (∀ x ∈ db.announced .confirmed id, x.id < ev.id) →
      (∃ e, o = .cancelWithEvent id e) → db' ≠ db → EventStep o db db' id

section Step

variable {loc : Location} {db db' : BookingDB}

theorem EventStep.same (o : BookOp) (db : BookingDB) (id : String) : EventStep o db db id :=
  .quiet rfl rfl rfl fun _ _ => rfl

/-- A cancellation, whose event is of the booking it writes. -/
theorem cancelWithEvent_step {i : String} {ev : BookingEvent} (hs : ev.subject = .cancelled) (hi : ev.payload.bookingID = i)
    (now : Time) (id : String) :
    EventStep (.cancelWithEvent i ev) db (BookingRepo.cancelWithEvent now i ev db).2 id := by
  unfold BookingRepo.cancelWithEvent
  rcases BookingRepo.updateByID_cases i (fun b => { b with status := .cancelled, updatedAt := now })
    (BookingRepo.insertOutbox now ev) db with ⟨e, he⟩ | ⟨b, bookings, hb, hu, he⟩
  · rw [he]
    exact .same _ _ _
  rw [he]
  unfold BookingRepo.insertOutbox
  dsimp only
  have hfind := fun outbox issued => BookingDB.find_update hu (fun _ => rfl) outbox issued id
  by_cases hid : i = id
  · -- the booking itself
    subst hid
    refine .cancel { ev with id := nextSerial (db.outbox.map (·.id)), createdAt := now, sentAt := none } ?_ ?_ ?_ ?_ ⟨ev, rfl⟩ ?_
    · rw [BookingDB.status, hfind, hb]
      simp [(BookingDB.find_id hb).2]
    · rw [BookingDB.announced_append, if_pos ⟨hs, hi⟩]
      rfl
    · rw [BookingDB.announced_append, if_neg (by simp [hs]), List.append_nil]
      rfl
    · exact fun x hx => lt_nextSerial (List.mem_map_of_mem (List.mem_of_mem_filter hx))
    · intro h
      have := congrArg (fun db => db.outbox.length) h
      simp at this
  · -- another one
    refine .quiet ?_ ?_ ?_ fun e he => ?_
    · rw [BookingDB.status, BookingDB.status, hfind]
      cases hj : db.find id with
      | none => rfl
      | some b' => simp [(BookingDB.find_id hj).2, Ne.symm hid]
    · rw [BookingDB.announced_append, if_neg (by simp [hi, hid]), List.append_nil]
      rfl
    · rw [BookingDB.announced_append, if_neg (by simp [hi, hid]), List.append_nil]
      rfl
    · cases he
      exact absurd rfl hid

theorem confirmPayment_step (now : Time) (i pid id : String) :
    EventStep (.confirmPayment i pid .confirmed) db (BookingRepo.confirmPayment now i pid .confirmed db).2 id := by
  rcases BookingRepo.confirmPayment_cases now i pid .confirmed db with he | ⟨bookings, b, hu, hb, -, he⟩
  · rw [he]
    exact .same _ _ _
  rw [he]
  obtain ⟨-, hconf⟩ := Table.get_mem hb
  have hconf : b.id = i ∧ b.status = .paymentPending ∧ (b.paymentID = "" ∨ b.paymentID = pid) := by
    simpa [BookingRepo.confirmable, and_assoc] using hconf
  obtain ⟨hbi, hpending, hpid⟩ := hconf
  unfold BookingRepo.insertOutbox
  dsimp only
  have hfind := fun outbox issued => BookingDB.find_update hu (fun _ => rfl) outbox issued id
  by_cases hid : i = id
  · subst hid
    have hstored : db.find i = some b := by
      refine db.bookings.get_key (Table.get_mem hb).1 (by simp [hbi]) fun x hx => ?_
      have hx : x.id = i := by simpa using hx
      simp [bookingSchema, hx, hbi]
    refine .confirm { newBookingEvent .confirmed (BookingRepo.confirmRow now pid b) with
        id := nextSerial (db.outbox.map (·.id)), createdAt := now, sentAt := none } ?_ ?_ ?_ ?_ (by simp)
    · rw [BookingDB.status_of_find hstored, hpending]
    · rw [BookingDB.status, hfind, hstored]
      simp [BookingRepo.confirmable, BookingRepo.confirmRow, hbi, hpending, hpid]
    · rw [BookingDB.announced_append, if_neg (by simp [newBookingEvent]), List.append_nil]
      rfl
    · rw [BookingDB.announced_append, if_pos ⟨rfl, hbi⟩]
      rfl
  · have hother : ¬ (BookingRepo.confirmRow now pid b).id = id := fun h => hid (hbi.symm.trans h)
    refine .quiet ?_ ?_ ?_ fun _ h => by cases h
    · rw [BookingDB.status, BookingDB.status, hfind]
      cases hj : db.find id with
      | none => rfl
      | some b' => simp [BookingRepo.confirmable, (BookingDB.find_id hj).2, Ne.symm hid]
    · rw [BookingDB.announced_append, if_neg (by simp [newBookingEvent]), List.append_nil]
      rfl
    · rw [BookingDB.announced_append, if_neg (by simp [newBookingEvent, hother]), List.append_nil]
      rfl

/-- **What an operation of the four calls makes of a booking and its events.** -/
theorem BookOp.Exec.eventStep {o : BookOp} {r : o.Res} (h : BookOp.Exec loc o db r db') (ho : o.Lifecycle)
    (hev : ∀ i ev, o = .cancelWithEvent i ev → ev.subject = .cancelled ∧ ev.payload.bookingID = i) (id : String) :
    EventStep o db db' id := by
  rcases h.state with rfl | ⟨env, -, hf, rfl⟩
  · exact .same _ _ _
  cases o with
  | releaseSlot | now => exact .same _ _ _
  | getByID | findExpiredPaymentPending =>
    simp only [run, hf, Fault.apply_none]
    exact .same _ _ _
  | cancelWithEvent i ev =>
    simp only [run, hf, Fault.apply_none]
    obtain ⟨hs, hi⟩ := hev i ev rfl
    exact cancelWithEvent_step hs hi env.now id
  | confirmPayment i pid subject =>
    obtain rfl : subject = .confirmed := ho
    simp only [run, hf, Fault.apply_none]
    exact confirmPayment_step env.now i pid id
  | getVenue | checkSlotAvailability | reserveSlot | createPayment | publishBookingCompleted | create | delete |
      setPaymentAndStatus | updateStatus | autoCompleteVisitEnded | markCompletedEventSent | findUnpublishedCompleted |
      deleteOrphanPending => exact ho.elim

end Step

/-! ## Runs -/

section Runs

variable {uc : BookingUseCase} {w₀ : BookingDB} {tr : List BookMoment} {c : BookConfig}

/-- The event of a cancellation is of the booking that the call has loaded. -/
theorem BookCall.Preceded.event {c : BookCall} {h : List (Event BookOp BookOp.Res)} {i : String} {ev : BookingEvent}
    (hp : c.Preceded h (.cancelWithEvent i ev)) (hload : ∀ e ∈ h, ∀ id b, e = ⟨.getByID id, .ok b⟩ → b.id = id) :
    ev.subject = .cancelled ∧ ev.payload.bookingID = i := by
  obtain ⟨b, hb, rfl, -⟩ := hp
  exact ⟨rfl, hload _ hb i b rfl⟩

/-- Every operation of a run is one of the four calls'. -/
theorem lifecycle_step {w w' : BookingDB} {ts₁ ts₂ : List (Thread BookCall BookOp BookOp.Res (Option Err))} {c : BookCall}
    {h : List (Event BookOp BookOp.Res)} {o : BookOp} {k : o.Res → BookProg (Option Err)} {r : o.Res}
    (ht : (lifecycleSys uc).Trace w₀ tr ⟨w, ts₁ ++ ⟨c, h, .call o k⟩ :: ts₂⟩) (he : BookOp.Exec uc.loc o w r w') (id : String) :
    EventStep o w w' id := by
  have hmem : (⟨c, h, .call o k⟩ : Thread _ _ _ _) ∈ ts₁ ++ ⟨c, h, .call o k⟩ :: ts₂ := by simp
  have hcall : ∀ t ∈ ts₁ ++ (⟨c, h, .call o k⟩ : Thread _ _ _ _) :: ts₂, t.call.lifecycle = true := by
    refine ht.pool_inv (P := fun _ => True) (fun _ ts => ∀ t ∈ ts, t.call.lifecycle = true) (by simp) ?_ ?_
      (fun _ _ _ _ hf => False.elim hf) fun _ _ => trivial
    · intro w ts c ih hc t ht
      rcases List.mem_append.1 ht with ht | ht
      · exact ih t ht
      · rw [List.mem_singleton.1 ht]
        exact hc
    · intro w w' ts₁ ts₂ c h o k r ih _ _ t ht
      rcases List.mem_append.1 ht with ht | ht
      · exact ih t (List.mem_append_left _ ht)
      rcases List.mem_cons.1 ht with rfl | ht
      · exact ih ⟨c, h, .call o k⟩ (by simp)
      · exact ih t (by simp [ht])
  have hop := (ht.reach.all (BookCall.lifecycle_all uc) _ hmem).1 (hcall _ hmem)
  have hpre := (ht.reach.after (BookCall.prog_after uc) _ hmem).1.1
  have hload := ht.reach.events (E := fun e => ∀ id b, e = ⟨.getByID id, .ok b⟩ → b.id = id) (fun o w r w' he id b heq => by
    cases heq
    exact (BookingDB.find_id (BookOp.Exec.getByID he).2).2) _ hmem
  refine he.eventStep hop (fun i ev ho => ?_) id
  subst ho
  exact hpre.event hload

/-- **The events of a booking follow its status, until a cancellation finds it cancelled**: from then on there are two. -/
theorem announced_or_twice (id : String) (h0 : w₀.Announced id) (h : (lifecycleSys uc).Trace w₀ tr c) :
    (c.world.Announced id ∧ ∀ m ∈ tr, FirstCancelled id m) ∨
      (2 ≤ (c.world.announced .cancelled id).length ∧ ¬ ∀ m ∈ tr, FirstCancelled id m) := by
  induction h with
  | init => exact .inl ⟨h0, by simp⟩
  | start c _ _ ih => exact ih
  | env _ he => exact he.elim
  | perform w' ts₁ ts₂ r ht he ih =>
    rename_i tr w c h o k
    have hstep := lifecycle_step ht he id
    dsimp only at ih ⊢
    rcases ih with ⟨ha, hall⟩ | ⟨htwo, hnot⟩
    · cases hstep with
      | quiet hs hcan hconf hq =>
        refine .inl ⟨⟨⟨?_, ?_, ?_⟩, ?_, ?_⟩, ?_⟩
        · rw [hcan]
          exact ha.single.cancelled
        · rw [hconf]
          exact ha.single.confirmed
        · rw [hcan, hconf]
          exact ha.single.ordered
        · rw [hs, hcan]
          exact ha.cancelled
        · rw [hs, hconf]
          exact ha.unpaid
        · intro m hm
          rcases List.mem_append.1 hm with hm | hm
          · exact hall m hm
          · rw [List.mem_singleton.1 hm]
            exact fun ev ho hne => absurd (hq ev ho) hne
      | confirm ev hs hs' hcan hconf hno =>
        have hnone := ha.none_cancelled (by rw [hs]; decide)
        refine .inl ⟨⟨⟨?_, ?_, ?_⟩, ?_, ?_⟩, ?_⟩
        · rw [hcan]
          exact ha.single.cancelled
        · rw [hconf, ha.unpaid hs]
          simp
        · rw [hcan, hnone]
          simp
        · rw [hs', hcan, hnone]
          simp
        · rw [hs']
          nofun
        · intro m hm
          rcases List.mem_append.1 hm with hm | hm
          · exact hall m hm
          · rw [List.mem_singleton.1 hm]
            exact fun ev ho => absurd ho (hno ev)
      | cancel ev hs' hcan hconf hlt ho hne =>
        by_cases hs : w.status id = some .cancelled
        · -- it is cancelled already, and announced as such
          right
          have hpos := List.length_pos_iff.2 (ha.cancelled.1 hs)
          refine ⟨?_, fun hfirst => ?_⟩
          · rw [hcan, List.length_append, List.length_singleton]
            omega
          · obtain ⟨e, ho⟩ := ho
            exact hfirst _ (List.mem_append_right _ (List.mem_singleton.2 rfl)) e ho hne hs
        · have hnone := ha.none_cancelled hs
          refine .inl ⟨⟨⟨?_, ?_, ?_⟩, ?_, ?_⟩, ?_⟩
          · rw [hcan, hnone]
            simp
          · rw [hconf]
            exact ha.single.confirmed
          · rw [hcan, hconf, hnone]
            intro x hx y hy
            rw [List.nil_append, List.mem_singleton] at hy
            rw [hy]
            exact hlt x hx
          · rw [hs', hcan]
            simp
          · rw [hs']
            nofun
          · intro m hm
            rcases List.mem_append.1 hm with hm | hm
            · exact hall m hm
            · rw [List.mem_singleton.1 hm]
              exact fun _ _ _ => hs
    · refine .inr ⟨?_, fun hfirst => hnot fun m hm => hfirst m (List.mem_append_left _ hm)⟩
      cases hstep with
      | quiet _ hcan | confirm _ _ _ hcan =>
        rw [hcan]
        exact htwo
      | cancel ev _ hcan =>
        rw [hcan, List.length_append]
        omega

/-- **A booking has one event of its cancellation, one of its confirmation and none of that after the other, in exactly the
runs in which no cancellation that takes effect finds it cancelled.** -/
theorem single_events_iff (id : String) (h0 : w₀.Announced id) (h : (lifecycleSys uc).Trace w₀ tr c) :
    c.world.SingleEvents id ↔ ∀ m ∈ tr, FirstCancelled id m := by
  rcases announced_or_twice id h0 h with ⟨ha, hall⟩ | ⟨htwo, hnot⟩
  · exact ⟨fun _ => hall, fun _ => ha.single⟩
  · refine ⟨fun hs => ?_, fun hall => absurd hall hnot⟩
    have hone := hs.cancelled
    omega

end Runs

/-! ## Two cancellations of one booking -/

theorem unpaidBookings_announced : unpaidBookings.Announced sampleBooking.id := by
  refine ⟨⟨by simp [unpaidBookings, BookingDB.announced], by simp [unpaidBookings, BookingDB.announced],
    by simp [unpaidBookings, BookingDB.announced]⟩, ?_, by simp [unpaidBookings, BookingDB.announced]⟩
  rw [BookingDB.status_of_find unpaidBookings_find]
  simp [unpaidBookings, BookingDB.announced, sampleBooking]

/-- What a cancellation of the booking leaves behind. -/
def cancelSample (db : BookingDB) : BookingDB :=
  (BookingRepo.cancelWithEvent sampleBookEnv.now sampleBooking.id
    (newBookingEvent .cancelled { sampleBooking with status := .cancelled }) db).2

theorem cancelSample_spec {db : BookingDB} {b : Booking} (hb : db.find sampleBooking.id = some b)
    (hi : db.issued = [sampleBooking.id]) :
    BookOp.Exec sampleLocation (.cancelWithEvent sampleBooking.id
        (newBookingEvent .cancelled { sampleBooking with status := .cancelled })) db (.ok ()) (cancelSample db) ∧
      (∃ b', (cancelSample db).find sampleBooking.id = some b') ∧ (cancelSample db).issued = [sampleBooking.id] := by
  obtain ⟨hok, hfind⟩ := BookingRepo.cancelWithEvent_ok (by decide) hb sampleBookEnv.now
    (newBookingEvent .cancelled { sampleBooking with status := .cancelled })
  refine ⟨⟨sampleBookEnv, by rw [hi]; decide, Prod.ext hok rfl⟩, ⟨_, hfind⟩, ?_⟩
  rcases BookOp.run_issued sampleLocation sampleBookEnv rfl (.cancelWithEvent sampleBooking.id
    (newBookingEvent .cancelled { sampleBooking with status := .cancelled })) db with h | ⟨b, h, -⟩
  · exact h.trans hi
  · cases h

/-- Its guest and the payment service cancel the booking at once: both have loaded it unpaid. -/
theorem cancelled_twice : ∃ tr c, (lifecycleSys sampleBookings).Trace unpaidBookings tr c ∧ tr ≠ [] ∧
    c.world = cancelSample (cancelSample unpaidBookings) := by
  obtain ⟨hcancel, ⟨b', hb'⟩, hi⟩ := cancelSample_spec unpaidBookings_find rfl
  obtain ⟨hcancel', -, -⟩ := cancelSample_spec hb' hi
  have hload : BookOp.Exec sampleLocation (.getByID sampleBooking.id) unpaidBookings (.ok sampleBooking) unpaidBookings := by
    refine ⟨sampleBookEnv, by decide, ?_⟩
    simp only [BookOp.run, sampleBookEnv, Fault.apply_none, BookingRepo.getByID,
      uuidParam_ok (by decide : isUUID sampleBooking.id = true), unpaidBookings_find]
  have h : (lifecycleSys sampleBookings).Trace unpaidBookings [] ⟨unpaidBookings, []⟩ := .init
  have h := h.start (BookCall.cancelBookingByPayment sampleBooking.id) rfl
  have h := h.perform unpaidBookings [] [] _ hload
  have h := h.start (BookCall.cancelBookingByPayment sampleBooking.id) rfl
  have h := h.perform unpaidBookings [_] [] _ hload
  have h := h.perform (cancelSample unpaidBookings) [] [_] _ hcancel
  have h := h.perform (cancelSample (cancelSample unpaidBookings)) [_] [] _ hcancel'
  exact ⟨_, _, h, by simp, rfl⟩

theorem single_events_iff_sample : ∃ tr c, (lifecycleSys sampleBookings).Trace unpaidBookings tr c ∧ tr ≠ [] ∧
    (c.world.SingleEvents sampleBooking.id ↔ ∀ m ∈ tr, FirstCancelled sampleBooking.id m) := by
  obtain ⟨tr, c, h, hne, -⟩ := cancelled_twice
  exact ⟨tr, c, h, hne, single_events_iff sampleBooking.id unpaidBookings_announced h⟩

theorem events_not_always_single : ¬ ∀ (uc : BookingUseCase) (w₀ : BookingDB) (tr : List BookMoment) (c : BookConfig)
    (id : String), w₀.Announced id → (lifecycleSys uc).Trace w₀ tr c → c.world.SingleEvents id := by
  intro hall
  obtain ⟨tr, c, h, -, hw⟩ := cancelled_twice
  have hone := (hall _ _ _ _ sampleBooking.id unpaidBookings_announced h).cancelled
  rw [hw] at hone
  revert hone
  decide +kernel

end Agregator
