import Agregator.BookStates
import Agregator.SlotSys
/-!
# SlotCalls — what the calls of the booking service owe to the venue service

A call that cancels a booking releases its slot next, and a call that has reserved a slot releases it or puts the payment on
the booking before it returns.  What must be behind every operation of a call for this, and behind its end.
-/
namespace Agregator

open Conc

abbrev BookEventLog := List (Event BookOp BookOp.Res)

/-- A cancellation that was reported done. -/
def cancels : Event BookOp BookOp.Res → Bool
  | ⟨.cancelWithEvent _ _, .ok _⟩ => true
  | _ => false

/-- A booking that was created, or a slot that was reserved. -/
def begets : Event BookOp BookOp.Res → Bool
  | ⟨.create _, .ok _⟩ => true
  | ⟨.reserveSlot _, .ok _⟩ => true
  | _ => false

/-- An operation that creates a booking. -/
def BookOp.isCreate : BookOp → Bool
  | .create _ => true
  | _ => false

/-- An operation that settles what a reserved slot is for. -/
def BookOp.settles : BookOp → Bool
  | .releaseSlot _ _ | .setPaymentAndStatus _ _ _ _ _ => true
  | _ => false

section Log

variable {h : BookEventLog} {e : Event BookOp BookOp.Res}

/-- The last thing done is no cancellation. -/
def Steady (h : BookEventLog) : Prop := ∀ h' e, h = h' ++ [e] → cancels e = false

theorem Steady.snoc (he : cancels e = false) : Steady (h ++ [e]) := by
  intro h' e' heq
  obtain ⟨-, hlast⟩ := List.append_inj' heq rfl
  rw [← List.singleton_inj.1 hlast]
  exact he

/-- A call that has created and reserved nothing, and owes no release. -/
structure Plain (h : BookEventLog) : Prop where
  settled : Steady h
  none : ∀ e ∈ h, begets e = false

theorem Plain.nil : Plain [] := ⟨fun h' e heq => absurd heq (by simp), by simp⟩

theorem Plain.snoc (hh : Plain h) (h1 : cancels e = false) (h2 : begets e = false) : Plain (h ++ [e]) := by
  refine ⟨Steady.snoc h1, fun e' hm => ?_⟩
  rcases List.mem_append.1 hm with hm | hm
  · exact hh.none e' hm
  · rw [List.mem_singleton.1 hm]
    exact h2

theorem Plain.created (hh : Plain h) (d b : Booking) : ⟨.create d, .ok b⟩ ∉ h := fun hm =>
  absurd (hh.none _ hm) (by simp [begets])

theorem Plain.reserved (hh : Plain h) (req : ReserveSlotRequest) : ⟨.reserveSlot req, .ok ()⟩ ∉ h := fun hm =>
  absurd (hh.none _ hm) (by simp [begets])

/-- The booking a call has created, the only one. -/
structure Born (h : BookEventLog) (d b : Booking) : Prop where
  mem : ⟨.create d, .ok b⟩ ∈ h
  only : ∀ d' b', ⟨.create d', .ok b'⟩ ∈ h → d' = d ∧ b' = b

theorem Born.snoc {d b : Booking} (hb : Born h d b) (he : e.1.isCreate = false) : Born (h ++ [e]) d b := by
  refine ⟨List.mem_append_left _ hb.mem, fun d' b' hm => ?_⟩
  rcases List.mem_append.1 hm with hm | hm
  · exact hb.only d' b' hm
  · rw [← List.mem_singleton.1 hm] at he
    exact absurd he (by simp [BookOp.isCreate])

/-- A slot has been released. -/
def HasReleased (h : BookEventLog) : Prop := ∃ v i r, ⟨.releaseSlot v i, r⟩ ∈ h

/-- The payment has been put on the booking. -/
def HasPaid (h : BookEventLog) : Prop := ∃ i pid url st ev, ⟨.setPaymentAndStatus i pid url st ev, .ok ()⟩ ∈ h

/-- What a call has done before an operation, as far as slots are concerned. -/
def SlotPrior (h : BookEventLog) : BookOp → Prop
  | .create d => d.status = .pending ∧ ¬ HasPaid h
  | .reserveSlot req => (∃ d b, Born h d b ∧ req.bookingID = b.id ∧ req.venueID = d.venueID) ∧ ¬ HasReleased h ∧ ¬ HasPaid h
  | .releaseSlot v i => ∀ d b, ⟨.create d, .ok b⟩ ∈ h → v = b.venueID ∧ i = b.id
  | .delete i => (∃ d b, ⟨.create d, .ok b⟩ ∈ h ∧ b.id = i) ∧ (HasReleased h ∨ ∀ req, ⟨.reserveSlot req, .ok ()⟩ ∉ h)
  | .setPaymentAndStatus i _ _ st _ => st = .paymentPending ∧ ∀ d b, ⟨.create d, .ok b⟩ ∈ h → i = b.id
  | .updateStatus _ st => st = .completed
  | _ => True

/-- After a cancellation comes the release of the booking as it was loaded. -/
structure SlotDuty (h : BookEventLog) (o : BookOp) : Prop where
  cancelled : ∀ h' id ev, h = h' ++ [⟨.cancelWithEvent id ev, .ok ()⟩] →
    ∃ b, ⟨.getByID id, .ok b⟩ ∈ h' ∧ o = .releaseSlot b.venueID b.id
  prior : SlotPrior h o

theorem Steady.duty {o : BookOp} (hh : Steady h) (ho : SlotPrior h o) : SlotDuty h o :=
  ⟨fun h' id ev heq => absurd (hh h' _ heq) (by simp [cancels]), ho⟩

/-- A call that has done what it owes. -/
structure SlotDone (h : BookEventLog) : Prop where
  settled : Steady h
  paid : (∃ req, ⟨.reserveSlot req, .ok ()⟩ ∈ h) → HasReleased h ∨ HasPaid h

theorem Plain.done (hh : Plain h) : SlotDone h :=
  ⟨hh.settled, fun ⟨req, hm⟩ => absurd hm (hh.reserved req)⟩

end Log

/-! ## The calls that create nothing -/

section Plain

open BookingUseCase

variable {h : BookEventLog}

/-- The release that follows a cancellation. -/
theorem storeCancelled_obeys {id : String} {b : Booking} (hb : ⟨.getByID id, .ok b⟩ ∈ h) (hh : Plain h) :
    (storeCancelled id b).Obeys SlotDuty (fun h _ => Plain h) h := by
  refine ⟨hh.settled.duty trivial, fun r => ?_⟩
  cases r with
  | error err => exact hh.snoc rfl rfl
  | ok _ =>
    refine ⟨⟨fun h' id' ev heq => ?_, fun d b' hm => ?_⟩, fun r => ?_⟩
    · obtain ⟨rfl, hlast⟩ := List.append_inj' heq rfl
      cases List.singleton_inj.1 hlast
      exact ⟨b, hb, rfl⟩
    · rcases List.mem_append.1 hm with hm | hm
      · exact absurd hm (hh.created d b')
      · cases List.mem_singleton.1 hm
    · refine ⟨Steady.snoc rfl, fun e hm => ?_⟩
      simp only [List.mem_append, List.mem_singleton] at hm
      rcases hm with (hm | rfl) | rfl
      · exact hh.none e hm
      · rfl
      · rfl

theorem cancelBooking_obeys (uc : BookingUseCase) (id userID : String) (hh : Plain h) :
    (uc.cancelBooking id userID).Obeys SlotDuty (fun h _ => Plain h) h := by
  refine ⟨hh.settled.duty trivial, fun r => ?_⟩
  have hh' : Plain (h ++ [⟨.getByID id, r⟩]) := hh.snoc rfl rfl
  cases r with
  | error err => exact hh'
  | ok b =>
    dsimp only [Prog.bind_ret]
    split
    · exact hh'
    split
    · exact hh'
    unfold BookingUseCase.pastDeadline
    split
    · refine ⟨hh'.settled.duty trivial, fun now => ?_⟩
      have hh'' := hh'.snoc (e := ⟨.now, now⟩) rfl rfl
      dsimp only [Prog.bind_eq, Prog.bind_ret, Prog.pure_eq]
      split
      · exact hh''
      · exact storeCancelled_obeys (by simp) hh''
    · dsimp only [Prog.bind_eq, Prog.bind_ret, Prog.pure_eq]
      exact storeCancelled_obeys (by simp) hh'

theorem confirmBooking_obeys (id paymentID : String) (hh : Plain h) :
    (BookingUseCase.confirmBooking id paymentID).Obeys SlotDuty (fun h _ => Plain h) h := by
  refine ⟨hh.settled.duty trivial, fun r => ?_⟩
  cases r <;> exact hh.snoc rfl rfl

theorem completeBooking_obeys (id : String) (hh : Plain h) :
    (BookingUseCase.completeBooking id).Obeys SlotDuty (fun h _ => Plain h) h := by
  refine ⟨hh.settled.duty trivial, fun r => ?_⟩
  have hh' : Plain (h ++ [⟨.getByID id, r⟩]) := hh.snoc rfl rfl
  cases r with
  | error err => exact hh'
  | ok b =>
    dsimp only [Prog.bind_ret]
    split
    · exact hh'
    · refine ⟨hh'.settled.duty rfl, fun r => ?_⟩
      cases r <;> exact hh'.snoc rfl rfl

theorem cancelBookingByPayment_obeys (bookingID : String) (hh : Plain h) :
    (BookingUseCase.cancelBookingByPayment bookingID).Obeys SlotDuty (fun h _ => Plain h) h := by
  refine ⟨hh.settled.duty trivial, fun r => ?_⟩
  have hh' : Plain (h ++ [⟨.getByID bookingID, r⟩]) := hh.snoc rfl rfl
  cases r with
  | error err =>
    dsimp only [Prog.bind_ret]
    split <;> exact hh'
  | ok b =>
    dsimp only [Prog.bind_ret]
    split
    · exact hh'
    · refine Prog.Obeys.bind ((storeCancelled_obeys (by simp) hh').mono fun h a hh => ?_)
      cases a <;> exact hh

theorem expireEach_obeys (ids : List String) :
    ∀ {h : BookEventLog}, Plain h → (expireEach ids).Obeys SlotDuty (fun h _ => Plain h) h := by
  induction ids with
  | nil => exact fun hh => hh
  | cons id ids ih =>
    intro h hh
    refine Prog.Obeys.bind ((cancelBookingByPayment_obeys id hh).mono fun h a hh => ?_)
    cases a with
    | some _ => exact ih hh
    | none => exact Prog.Obeys.bind ((ih hh).mono fun _ _ hh => hh)

theorem publishCompleted_obeys (refs : List Booking) :
    ∀ {h : BookEventLog}, Plain h → (publishCompleted refs).Obeys SlotDuty (fun h _ => Plain h) h := by
  induction refs with
  | nil => exact fun hh => hh
  | cons ref refs ih =>
    intro h hh
    simp only [publishCompleted, Prog.bind_eq, Prog.perform_bind]
    refine ⟨hh.settled.duty trivial, fun r => ?_⟩
    have hh' := hh.snoc (e := ⟨.publishBookingCompleted _, r⟩) rfl rfl
    cases r with
    | error _ => exact ih hh'
    | ok _ =>
      refine ⟨hh'.settled.duty trivial, fun r => ?_⟩
      exact Prog.Obeys.bind ((ih (hh'.snoc rfl rfl)).mono fun _ _ hh => hh)

theorem autoCompletePastVisits_obeys (hh : Plain h) :
    BookingUseCase.autoCompletePastVisits.Obeys SlotDuty (fun h _ => Plain h) h := by
  simp only [BookingUseCase.autoCompletePastVisits, Prog.bind_eq, Prog.perform_bind]
  refine ⟨hh.settled.duty trivial, fun r => ?_⟩
  have hh' : Plain (h ++ [⟨.autoCompleteVisitEnded, r⟩]) := hh.snoc rfl rfl
  cases r with
  | error err => exact hh'
  | ok refs =>
    refine Prog.Obeys.bind ((publishCompleted_obeys refs hh').mono fun h _ hh => ?_)
    refine ⟨hh.settled.duty trivial, fun r => ?_⟩
    refine Prog.Obeys.bind ((publishCompleted_obeys _ (hh.snoc rfl rfl)).mono fun h _ hh => ?_)
    exact ⟨hh.settled.duty trivial, fun _ => hh.snoc rfl rfl⟩

theorem expireUnpaidBookings_obeys (hh : Plain h) :
    BookingUseCase.expireUnpaidBookings.Obeys SlotDuty (fun h _ => Plain h) h := by
  simp only [BookingUseCase.expireUnpaidBookings, Prog.bind_eq, Prog.perform_bind]
  refine ⟨hh.settled.duty trivial, fun r => ?_⟩
  have hh' : Plain (h ++ [⟨.findExpiredPaymentPending _ _, r⟩]) := hh.snoc rfl rfl
  cases r with
  | error err => exact hh'
  | ok ids => exact Prog.Obeys.bind ((expireEach_obeys ids hh').mono fun _ _ hh => hh)

end Plain

/-! ## The call that creates a booking -/

section Create

open BookingUseCase

variable {h : BookEventLog}

/-- The compensation releases the slot before it deletes the booking. -/
theorem undoBooking_obeys {d b : Booking} (hb : Born h d b) (hh : Steady h) (err : Err) :
    (undoBooking b err).Obeys SlotDuty (fun h _ => SlotDone h) h := by
  refine ⟨hh.duty fun d' b' hm => by rw [(hb.only d' b' hm).2]; exact ⟨rfl, rfl⟩, fun r => ?_⟩
  have hrel : HasReleased (h ++ [⟨.releaseSlot b.venueID b.id, r⟩]) := ⟨_, _, r, by simp⟩
  refine ⟨Steady.duty (Steady.snoc rfl) ⟨⟨d, b, List.mem_append_left _ hb.mem, rfl⟩, .inl hrel⟩, fun r' => ?_⟩
  obtain ⟨v, i, r, hm⟩ := hrel
  exact ⟨Steady.snoc rfl, fun _ => .inl ⟨v, i, r, List.mem_append_left _ hm⟩⟩

/-- What a call that creates a booking has done before the booking is there. -/
structure Unborn (h : BookEventLog) : Prop extends Plain h where
  released : ¬ HasReleased h
  paid : ¬ HasPaid h

theorem Unborn.snoc {e : Event BookOp BookOp.Res} (hh : Unborn h) (h1 : cancels e = false) (h2 : begets e = false)
    (h3 : e.1.settles = false) : Unborn (h ++ [e]) := by
  refine ⟨hh.toPlain.snoc h1 h2, ?_, ?_⟩
  · rintro ⟨v, i, r, hm⟩
    rcases List.mem_append.1 hm with hm | hm
    · exact hh.released ⟨v, i, r, hm⟩
    · rw [← List.mem_singleton.1 hm] at h3
      exact absurd h3 (by simp [BookOp.settles])
  · rintro ⟨i, pid, url, st, ev, hm⟩
    rcases List.mem_append.1 hm with hm | hm
    · exact hh.paid ⟨i, pid, url, st, ev, hm⟩
    · rw [← List.mem_singleton.1 hm] at h3
      exact absurd h3 (by simp [BookOp.settles])

theorem storeBooking_obeys (uc : BookingUseCase) {draft : Booking} (hd : draft.status = .pending)
    {req : String → ReserveSlotRequest} (hreq : ∀ id, (req id).venueID = draft.venueID ∧ (req id).bookingID = id)
    (hh : Unborn h) : (uc.storeBooking draft req).Obeys SlotDuty (fun h _ => SlotDone h) h := by
  refine ⟨hh.settled.duty ⟨hd, hh.paid⟩, fun r => ?_⟩
  cases r with
  | error err => exact (hh.toPlain.snoc rfl rfl).done
  | ok b =>
    have hb : Born (h ++ [⟨.create draft, .ok b⟩]) draft b := by
      refine ⟨by simp, fun d' b' hm => ?_⟩
      rcases List.mem_append.1 hm with hm | hm
      · exact absurd hm (hh.created d' b')
      · cases List.mem_singleton.1 hm
        exact ⟨rfl, rfl⟩
    have hfree : ¬ HasReleased (h ++ [⟨.create draft, .ok b⟩]) ∧ ¬ HasPaid (h ++ [⟨.create draft, .ok b⟩]) := by
      constructor
      · rintro ⟨v, i, r, hm⟩
        exact hh.released ⟨v, i, r, by simpa using hm⟩
      · rintro ⟨i, pid, url, st, ev, hm⟩
        exact hh.paid ⟨i, pid, url, st, ev, by simpa using hm⟩
    refine ⟨Steady.duty (Steady.snoc rfl) ⟨⟨draft, b, hb, (hreq b.id).2, (hreq b.id).1⟩, hfree⟩, fun r => ?_⟩
    have hb' : Born (h ++ [⟨.create draft, .ok b⟩] ++ [⟨.reserveSlot (req b.id), r⟩]) draft b := hb.snoc rfl
    cases r with
    | error err =>
      have hnone : ∀ req', ⟨.reserveSlot req', .ok ()⟩ ∉
          h ++ [⟨.create draft, .ok b⟩] ++ [⟨.reserveSlot (req b.id), .error err⟩] := by
        intro req' hm
        simp only [List.mem_append, List.mem_singleton] at hm
        rcases hm with (hm | hm) | hm
        · exact hh.reserved req' hm
        · cases hm
        · cases hm
      refine ⟨Steady.duty (Steady.snoc rfl) ⟨⟨draft, b, hb'.mem, rfl⟩, .inr hnone⟩, fun r => ?_⟩
      refine ⟨Steady.snoc rfl, fun ⟨req', hm⟩ => ?_⟩
      rcases List.mem_append.1 hm with hm | hm
      · exact absurd hm (hnone req')
      · cases List.mem_singleton.1 hm
    | ok _ =>
      refine ⟨Steady.duty (Steady.snoc rfl) trivial, fun r => ?_⟩
      cases r with
      | error err => exact undoBooking_obeys (hb'.snoc rfl) (Steady.snoc rfl) _
      | ok pay =>
        refine ⟨Steady.duty (Steady.snoc rfl) ⟨rfl, fun d' b' hm => ?_⟩, fun r => ?_⟩
        · rw [((hb'.snoc rfl).only d' b' hm).2]
        cases r with
        | error err => exact undoBooking_obeys ((hb'.snoc rfl).snoc rfl) (Steady.snoc rfl) _
        | ok _ => exact ⟨Steady.snoc rfl, fun _ => .inr ⟨_, _, _, _, _, List.mem_append_right _ (List.mem_singleton.2 rfl)⟩⟩

theorem CreateBookingInput.draft_venueID {input : CreateBookingInput} {v : VenueResponse}
    {slot : TimeOfDay × TimeOfDay × ℤ} {b : Booking} (h : input.draft v slot = .ok b) : b.venueID = input.venueID := by
  unfold CreateBookingInput.draft at h
  dsimp only at h
  split at h
  · cases h
  split at h
  · cases h
  split at h
  · cases h
  · cases h
    rfl

theorem createBooking_obeys (uc : BookingUseCase) (input : CreateBookingInput) (hh : Unborn h) :
    (uc.createBooking input).Obeys SlotDuty (fun h _ => SlotDone h) h := by
  unfold BookingUseCase.createBooking
  split
  · exact hh.done
  · rename_i slot _
    refine ⟨hh.settled.duty trivial, fun r => ?_⟩
    have hven : Unborn (h ++ [⟨.getVenue input.venueID, r⟩]) := hh.snoc rfl rfl rfl
    rcases r with err | _ | v
    · exact hven.done
    · exact hven.done
    · dsimp only [Prog.bind_ret]
      split
      · exact hven.done
      · rename_i draft hd
        refine ⟨hven.settled.duty trivial, fun r => ?_⟩
        have hfree := hven.snoc (e := ⟨.checkSlotAvailability _, r⟩) rfl rfl rfl
        rcases r with err | _ | _
        · exact hfree.done
        · exact hfree.done
        · refine ⟨hfree.settled.duty trivial, fun now => ?_⟩
          have hnow := hfree.snoc (e := ⟨.now, now⟩) rfl rfl rfl
          dsimp only [Prog.bind_ret]
          split
          · exact hnow.done
          · refine storeBooking_obeys uc (CreateBookingInput.draft_status hd) ?_ hnow
            exact fun id => ⟨(CreateBookingInput.draft_venueID hd).symm, rfl⟩

end Create

/-! ## All calls -/

/-- **Every call does what it owes before it returns.** -/
theorem BookCall.prog_obeys (uc : BookingUseCase) (c : BookCall) :
    (c.prog uc).Obeys SlotDuty (fun h _ => SlotDone h) [] := by
  have hplain : ∀ {α β : Type} {p : BookProg α} {f : α → β}, p.Obeys SlotDuty (fun h _ => Plain h) [] →
      (p.bind fun a => .ret (f a)).Obeys SlotDuty (fun h _ => SlotDone h) [] :=
    fun hp => Prog.Obeys.bind (hp.mono fun _ _ hh => hh.done)
  cases c with
  | createBooking input =>
    refine Prog.Obeys.bind ((createBooking_obeys uc input ⟨Plain.nil, ?_, ?_⟩).mono fun _ _ hh => hh)
    · rintro ⟨v, i, r, hm⟩
      cases hm
    · rintro ⟨i, pid, url, st, ev, hm⟩
      cases hm
  | cancelBooking id userID => exact hplain (cancelBooking_obeys uc id userID Plain.nil)
  | confirmBooking id paymentID => exact (confirmBooking_obeys id paymentID Plain.nil).mono fun _ _ hh => hh.done
  | completeBooking id => exact hplain (completeBooking_obeys id Plain.nil)
  | cancelBookingByPayment bookingID => exact (cancelBookingByPayment_obeys bookingID Plain.nil).mono fun _ _ hh => hh.done
  | autoCompletePastVisits => exact hplain (autoCompletePastVisits_obeys Plain.nil)
  | expireUnpaidBookings => exact hplain (expireUnpaidBookings_obeys Plain.nil)

theorem SlotCall.prog_after (uc : BookingUseCase) (c : SlotCall) : (c.prog uc).After SlotDuty [] := by
  have hc := (c.call.prog_obeys uc).after
  unfold SlotCall.prog
  split
  · exact Prog.After.bind (f := fun r => .ret (some r)) (fun _ _ => trivial) hc
  · exact hc.cut _

/-- A call that has returned has done what it owes, or has crashed where it was to. -/
theorem SlotCall.prog_ends (uc : BookingUseCase) (c : SlotCall) :
    (c.prog uc).Ends (fun h _ => SlotDone h ∨ c.crash = some h.length) [] := by
  have hc := (c.call.prog_obeys uc).ends
  unfold SlotCall.prog
  split
  · exact Prog.Ends.bind (f := fun r => .ret (some r)) (hc.mono fun h _ hd => Or.inl hd)
  · rename_i n hn
    refine (hc.cut n).mono fun h a hq => ?_
    rcases hq with ⟨x, -, hd⟩ | ⟨-, hlen⟩
    · exact .inl hd
    · exact .inr (by simp [hn, hlen])

end Agregator
