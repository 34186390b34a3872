import Agregator.SlotLeak
/-!
# BookAtomic — a booking that fails leaves nothing

`CreateBooking` takes back what it has done when a later step fails: the row when the slot is refused, the slot and the row when
the payment or the last update fails.  It takes nothing back when the row is reported as not inserted, and the row alone when
the slot is reported as not reserved.  So something is left exactly when one of these two reports is wrong
(`createBooking_atomic_iff`).
-/
namespace Agregator

open Rel Conc

/-! ## What is left -/

abbrev PerformedCall := Performed SlotWorld BookOp BookOp.Res

/-- Every booking, and every booking with a slot, is one of the keys. -/
def SlotWorld.Within (keys : List String) (w : SlotWorld) : Prop :=
  (∀ id b, w.db.find id = some b → id ∈ keys) ∧ ∀ s ∈ w.venue.reserved.rows, ∀ id, s.bookingID = some id → id ∈ keys

/-- A compensating call that is made succeeds. -/
def Compensated : PerformedCall → Prop
  | ⟨_, .releaseSlot _ _, r, _⟩ => r = .ok ()
  | ⟨_, .delete _, r, _⟩ => r = .ok ()
  | _ => True

/-- The row was inserted, or the slot reserved, and the answer is an error. -/
def AnswerLost : PerformedCall → Prop
  | ⟨w, .create _, .error _, w'⟩ => w'.db.bookings ≠ w.db.bookings
  | ⟨w, .reserveSlot _, .error _, w'⟩ => w'.venue.reserved ≠ w.venue.reserved
  | _ => False

/-- The bookings of the keys, and one more with its slots. -/
structure SlotWorld.During (keys : List String) (b : Booking) (w : SlotWorld) : Prop where
  rows : ∀ id b', w.db.find id = some b' → id ∈ keys ∨ id = b.id
  slots : ∀ s ∈ w.venue.reserved.rows, ∀ id, s.bookingID = some id → id ∈ keys ∨ (id = b.id ∧ s.venueID = b.venueID)

/-! ## One operation -/

section Step

variable {loc : Location} {text : TextRules} {keys : List String} {b : Booking} {w w' : SlotWorld}

/-- A call that reads, or goes to the payment service, changes neither database. -/
theorem SlotWorld.Exec.unchanged {o : BookOp} {r : o.Res} (h : SlotWorld.Exec loc text o w r w')
    (ho : ∀ env db, (o.run loc env db).2 = db) (h1 : ∀ req, o ≠ .reserveSlot req) (h2 : ∀ v i, o ≠ .releaseSlot v i) : w' = w := by
  have hvenue := h.venue h1 h2
  obtain ⟨env, -, hrun⟩ := h.db
  have hdb : w'.db = w.db := by
    rw [← ho env w.db, hrun]
  cases w
  cases w'
  cases hvenue
  cases hdb
  rfl

/-- A row that is reported as not inserted was not, or is there under a new key. -/
theorem SlotWorld.Exec.create_error {d : Booking} {e : Err} (h : SlotWorld.Exec loc text (.create d) w (.error e) w') :
    w'.venue = w.venue ∧ (w'.db.bookings = w.db.bookings ∨
      (w'.db.bookings ≠ w.db.bookings ∧ ∃ id row, w'.db.find id = some row ∧ id ∉ w.db.issued)) := by
  refine ⟨h.venue (fun _ h => by cases h) (fun _ _ h => by cases h), ?_⟩
  obtain ⟨env, hnew, he⟩ := h.db
  have hcreate : (BookingRepo.create env.now env.newID d w.db).2.bookings = w.db.bookings ∨
      ((BookingRepo.create env.now env.newID d w.db).2.bookings ≠ w.db.bookings ∧
        ∃ row, (BookingRepo.create env.now env.newID d w.db).2.find env.newID = some row) := by
    unfold BookingRepo.create
    dsimp only
    split
    · exact .inl rfl
    · rename_i bookings hins
      refine .inr ⟨fun heq => ?_, ?_⟩
      · have hrows := congrArg Table.rows heq
        rw [Table.insert_rows hins] at hrows
        exact absurd hrows (by simp)
      · unfold BookingDB.find
        rw [Table.get_insert hins, if_pos (beq_iff_eq.2 rfl)]
        cases w.db.bookings.get fun x => x.id == env.newID with
        | none => exact ⟨_, rfl⟩
        | some row => exact ⟨row, rfl⟩
  have hfail : BookingRepo.create env.now env.newID d w.db = (.error e, w'.db) → w'.db.bookings = w.db.bookings := by
    unfold BookingRepo.create
    dsimp only
    split
    · intro hown
      rw [← (Prod.mk.inj hown).2]
    · intro hown
      cases hown
  rcases Fault.of_error he with hown | ⟨-, -, hsame | hown⟩
  · exact .inl (hfail hown)
  · exact .inl (by rw [hsame])
  · rw [hown]
    exact hcreate.imp id fun ⟨hne, row, hrow⟩ => ⟨hne, env.newID, row, hrow, hnew⟩

/-- A booking that is inserted is there with the others. -/
theorem SlotWorld.Exec.create_ok {d : Booking} (h : SlotWorld.Exec loc text (.create d) w (.ok b) w') (hw : w.Within w.db.issued) :
    w'.During w.db.issued b ∧ b.id ∉ w.db.issued ∧ b.venueID = d.venueID := by
  have hvenue := h.venue (fun _ h => by cases h) (fun _ _ h => by cases h)
  obtain ⟨env, hnew, he⟩ := h.db
  have he := Fault.of_ok he
  unfold BookingRepo.create at he
  dsimp only at he
  split at he
  · cases he
  rename_i bookings hins
  obtain ⟨hb, hdb⟩ := Prod.mk.inj he
  cases hb
  refine ⟨⟨fun id b' hb' => ?_, fun s hs id hid => ?_⟩, hnew, rfl⟩
  · rw [← hdb] at hb'
    unfold BookingDB.find at hb'
    rw [Table.get_insert hins] at hb'
    cases hold : w.db.bookings.get (fun x => x.id == id) with
    | some x => exact .inl (hw.1 id x hold)
    | none =>
      rw [hold, Option.none_or] at hb'
      split at hb'
      · rename_i hid
        exact .inr (beq_iff_eq.1 hid).symm
      · cases hb'
  · rw [hvenue] at hs
    exact .inl (hw.2 s hs id hid)

/-- What the booking itself does to its row and its slots. -/
theorem SlotWorld.During.step (hd : w.During keys b) {o : BookOp} {r : o.Res} (h : SlotWorld.Exec loc text o w r w')
    (hcreate : ∀ d, o ≠ .create d) (hreserve : ∀ req, o = .reserveSlot req → req.bookingID = b.id ∧ req.venueID = b.venueID) :
    w'.During keys b := by
  constructor
  · intro id b' hb'
    have hrow := h.db.row id
    rw [hb'] at hrow
    generalize hx : w.db.find id = x at hrow
    cases hrow with
    | same => exact hd.rows id b' hx
    | write b₀ _ _ => exact hd.rows id b₀ hx
    | create b₀ _ ho _ _ => exact absurd ho (hcreate b₀)
  · intro s hs id hid
    by_cases hres : ∃ req, o = .reserveSlot req
    · obtain ⟨req, rfl⟩ := hres
      obtain ⟨hb, hv⟩ := hreserve req rfl
      rcases h.reserve.2 s hs with hold | ⟨hvenue, hbooking⟩
      · exact hd.slots s hold id hid
      · rw [hid, hb] at hbooking
        exact .inr ⟨Option.some.inj hbooking, hvenue.trans hv⟩
    by_cases hrel : ∃ v i, o = .releaseSlot v i
    · obtain ⟨v, i, rfl⟩ := hrel
      exact hd.slots s (h.release.2 s hs) id hid
    · rw [h.venue (fun req ho => hres ⟨req, ho⟩) fun v i ho => hrel ⟨v, i, ho⟩] at hs
      exact hd.slots s hs id hid

/-- The row is deleted. -/
theorem SlotWorld.Exec.delete_ok {i : String} (h : SlotWorld.Exec loc text (.delete i) w (.ok ()) w') : w'.db.find i = none := by
  obtain ⟨env, -, he⟩ := h.db
  have he := Fault.of_ok he
  unfold BookingRepo.delete at he
  rcases uuidParam_cases i with ⟨hu, -⟩ | ⟨e, hu, -⟩
  · rw [hu] at he
    rw [← (Prod.mk.inj he).2, BookingDB.find_delete]
    cases hi : w.db.find i with
    | none => rfl
    | some b => simp [(BookingDB.find_id hi).2]
  · rw [hu] at he
    cases he

/-- The slots are released. -/
theorem SlotWorld.Exec.release_ok {v i : String} (h : SlotWorld.Exec loc text (.releaseSlot v i) w (.ok ()) w') :
    ∀ s ∈ w'.venue.reserved.rows, s.venueID = v → s.bookingID ≠ some i := by
  obtain ⟨env, -, he⟩ := h
  simp only [SlotWorld.run, Prod.mk.injEq] at he
  obtain ⟨hr, rfl⟩ := he
  have happly : env.request.apply id (VenueServer.releaseSlot v i) w.venue =
      (.ok (), (env.request.apply id (VenueServer.releaseSlot v i) w.venue).2) := Prod.ext hr rfl
  intro s hs hv hi
  dsimp only at hs
  generalize (env.request.apply id (VenueServer.releaseSlot v i) w.venue).2 = venue at happly hs
  have hown := Fault.of_ok happly
  unfold VenueServer.releaseSlot at hown
  split at hown
  · cases hown
  split at hown
  · cases hown
  · rw [← (Prod.mk.inj hown).2] at hs
    simpa [hv, hi] using (List.mem_filter.1 hs).2

/-- **A reservation that is reported as failed** reserved nothing, or left a slot of the booking. -/
theorem SlotWorld.Exec.reserve_error {req : ReserveSlotRequest} {e : Err}
    (h : SlotWorld.Exec loc text (.reserveSlot req) w (.error e) w') (hne : w'.venue.reserved ≠ w.venue.reserved) :
    ∃ s ∈ w'.venue.reserved.rows, s.bookingID = some req.bookingID := by
  obtain ⟨env, -, he⟩ := h
  simp only [SlotWorld.run, Prod.mk.injEq] at he
  obtain ⟨-, rfl⟩ := he
  rcases env.request.apply_state id (VenueServer.reserveSlot text env.slotID env.halls req) w.venue with hs | hs
  · exact absurd (congrArg VenueDB.reserved hs) hne
  rw [hs] at hne ⊢
  rcases VenueServer.reserveSlot_cases text env.slotID env.halls req w.venue with ⟨e, hfail⟩ | ⟨hallIDs, d, tf, tt, t, hins, hok⟩
  · rw [hfail] at hne
    exact absurd rfl hne
  · rw [hok]
    obtain ⟨s, hmem⟩ := VenueRepo.slotRows_some env.slotID req.venueID (some req.bookingID) hallIDs d tf tt ""
    refine ⟨s, ?_, (VenueRepo.slotRows_row hmem).2.1⟩
    rw [Table.insertAll_rows hins]
    exact List.mem_append_right _ hmem

end Step

/-! ## One request -/

section Request

variable {uc : BookingUseCase} {text : TextRules} {keys : List String} {b draft : Booking} {w w' : SlotWorld} {err : Err}
  {l : List PerformedCall} {req : String → ReserveSlotRequest}

theorem kept_cons {m : PerformedCall} (hm : ¬ AnswerLost m) : (∀ x ∈ m :: l, ¬ AnswerLost x) ↔ ∀ x ∈ l, ¬ AnswerLost x := by
  rw [List.forall_mem_cons, and_iff_right hm]

/-- What the compensation leaves. -/
theorem undoBooking_left {e : Err} (hd : w.During keys b) (hcomp : ∀ m ∈ l, Compensated m)
    (hrun : (BookingUseCase.undoBooking b e).RunsBy (SlotWorld.Exec uc.loc text) w l (.error err) w') :
    w'.Within keys ∧ ∀ m ∈ l, ¬ AnswerLost m := by
  obtain ⟨r₁, w₁, l₁, hrelease, rfl, hrun⟩ := hrun
  obtain ⟨r₂, w₂, l₂, hdelete, rfl, rfl, hret, rfl⟩ := hrun
  cases hret
  obtain rfl : r₁ = .ok () := hcomp _ List.mem_cons_self
  obtain rfl : r₂ = .ok () := hcomp _ (List.mem_cons_of_mem _ List.mem_cons_self)
  have hd₁ := hd.step hrelease (fun _ h => by cases h) fun _ h => by cases h
  have hd₂ := hd₁.step hdelete (fun _ h => by cases h) fun _ h => by cases h
  have hvenue := hdelete.venue (fun _ h => by cases h) fun _ _ h => by cases h
  refine ⟨⟨fun id b' hb' => ?_, fun s hs id hid => ?_⟩, fun m hm => ?_⟩
  · rcases hd₂.rows id b' hb' with hkey | rfl
    · exact hkey
    · rw [hdelete.delete_ok] at hb'
      cases hb'
  · rcases hd₂.slots s hs id hid with hkey | ⟨rfl, hv⟩
    · exact hkey
    · rw [hvenue] at hs
      exact absurd hid (hrelease.release_ok s hs hv)
  · rcases List.mem_cons.1 hm with rfl | hm
    · exact id
    · rw [List.mem_singleton.1 hm]
      exact id

/-- **Steps 1 to 4.** -/
theorem storeBooking_atomic_iff (hreq : ∀ i, (req i).bookingID = i ∧ (req i).venueID = draft.venueID)
    (hw : w.Within w.db.issued) (hcomp : ∀ m ∈ l, Compensated m)
    (hrun : (uc.storeBooking draft req).RunsBy (SlotWorld.Exec uc.loc text) w l (.error err) w') :
    w'.Within w.db.issued ↔ ∀ m ∈ l, ¬ AnswerLost m := by
  obtain ⟨r₁, w₁, l₁, hcreate, rfl, hrun⟩ := hrun
  cases r₁ with
  | error e =>
    obtain ⟨rfl, -, rfl⟩ := hrun
    rw [List.forall_mem_singleton]
    obtain ⟨hvenue, hsame | ⟨hne, id, row, hrow, hnew⟩⟩ := hcreate.create_error
    · have hfind : ∀ id, w'.db.find id = w.db.find id := fun id => congrArg (fun t => t.get (·.id == id)) hsame
      refine iff_of_true ⟨fun id row hrow => ?_, ?_⟩ fun hlost => hlost hsame
      · rw [hfind] at hrow
        exact hw.1 id row hrow
      · rw [hvenue]
        exact hw.2
    · exact iff_of_false (fun hleft => hnew (hleft.1 id row hrow)) fun hkept => hkept hne
  | ok b =>
    obtain ⟨hd, hnew, hv⟩ := hcreate.create_ok hw
    have hfirst : ¬ AnswerLost ⟨w, .create draft, .ok b, w₁⟩ := id
    rw [kept_cons hfirst]
    replace hcomp := (List.forall_mem_cons.1 hcomp).2
    obtain ⟨r₂, w₂, l₂, hreserve, rfl, hrun⟩ := hrun
    have hd₂ : w₂.During w.db.issued b := hd.step hreserve (fun _ h => by cases h) fun req' h => by
      cases h
      rw [hv]
      exact hreq b.id
    replace hcomp := (List.forall_mem_cons.1 hcomp).2
    cases r₂ with
    | error e =>
      rw [List.forall_mem_cons]
      obtain ⟨r₃, w₃, l₃, hdelete, rfl, rfl, -, rfl⟩ := hrun
      obtain rfl : r₃ = .ok () := hcomp _ List.mem_cons_self
      have hvenue := hdelete.venue (fun _ h => by cases h) fun _ _ h => by cases h
      have hlast : ∀ m ∈ [(⟨w₂, .delete b.id, .ok (), w'⟩ : PerformedCall)], ¬ AnswerLost m := by
        rw [List.forall_mem_singleton]
        exact id
      rw [and_iff_left hlast]
      by_cases hlost : w₂.venue.reserved = w₁.venue.reserved
      · refine iff_of_true ⟨fun id b' hb' => ?_, fun s hs id hid => ?_⟩ fun h => h hlost
        · have hd₃ := hd₂.step hdelete (fun _ h => by cases h) fun _ h => by cases h
          rcases hd₃.rows id b' hb' with hkey | rfl
          · exact hkey
          · rw [hdelete.delete_ok] at hb'
            cases hb'
        · have hfirst := hcreate.venue (fun _ h => by cases h) fun _ _ h => by cases h
          rw [hvenue, hlost, hfirst] at hs
          exact hw.2 s hs id hid
      · obtain ⟨s, hs, hid⟩ := hreserve.reserve_error hlost
        refine iff_of_false (fun hleft => ?_) fun h => h hlost
        rw [(hreq b.id).1] at hid
        rw [← hvenue] at hs
        exact hnew (hleft.2 s hs b.id hid)
    | ok _ =>
      have hsecond : ¬ AnswerLost ⟨w₁, .reserveSlot (req b.id), .ok (), w₂⟩ := id
      rw [kept_cons hsecond]
      obtain ⟨r₃, w₃, l₃, hpayment, rfl, hrun⟩ := hrun
      have hthird : ¬ AnswerLost ⟨w₂, .createPayment (uc.paymentRequest b), r₃, w₃⟩ := id
      have hd₃ : w₃.During w.db.issued b := hd₂.step hpayment (fun _ h => by cases h) fun _ h => by cases h
      rw [kept_cons hthird]
      replace hcomp := (List.forall_mem_cons.1 hcomp).2
      cases r₃ with
      | error e =>
        obtain ⟨hleft, hkept⟩ := undoBooking_left hd₃ hcomp hrun
        exact iff_of_true hleft hkept
      | ok pay =>
        obtain ⟨r₄, w₄, l₄, hset, rfl, hrun⟩ := hrun
        have hd₄ : w₄.During w.db.issued b := hd₃.step hset (fun _ h => by cases h) fun _ h => by cases h
        replace hcomp := (List.forall_mem_cons.1 hcomp).2
        cases r₄ with
        | error e =>
          obtain ⟨hleft, hkept⟩ := undoBooking_left ⟨hd₄.rows, hd₄.slots⟩ hcomp hrun
          exact iff_of_true hleft (List.forall_mem_cons.2 ⟨id, hkept⟩)
        | ok _ =>
          obtain ⟨-, herr, -⟩ := hrun
          cases herr

/-- **A booking that fails leaves nothing** exactly when no row and no slot is reported as failed and is there. -/
theorem createBooking_atomic_iff {input : CreateBookingInput} (hw : w.Within w.db.issued)
    (hrun : (uc.createBooking input).RunsBy (SlotWorld.Exec uc.loc text) w l (.error err) w') (hcomp : ∀ m ∈ l, Compensated m) :
    w'.Within w.db.issued ↔ ∀ m ∈ l, ¬ AnswerLost m := by
  -- a request that is turned down before its first step
  have hdown : w.Within w.db.issued ↔ ∀ m ∈ ([] : List PerformedCall), ¬ AnswerLost m :=
    iff_of_true hw fun m hm => absurd hm List.not_mem_nil
  unfold BookingUseCase.createBooking at hrun
  cases hslot : input.slot with
  | error e =>
    rw [hslot] at hrun
    obtain ⟨rfl, -, rfl⟩ := hrun
    exact hdown
  | ok slot =>
    rw [hslot] at hrun
    obtain ⟨r₁, w₁, l₁, hvenue, rfl, hrun⟩ := hrun
    obtain rfl := hvenue.unchanged (fun _ _ => rfl) (fun _ h => by cases h) fun _ _ h => by cases h
    replace hcomp := (List.forall_mem_cons.1 hcomp).2
    have hfirst : ¬ AnswerLost ⟨w₁, .getVenue input.venueID, r₁, w₁⟩ := id
    rw [kept_cons hfirst]
    cases r₁ with
    | error e =>
      obtain ⟨rfl, -, rfl⟩ := hrun
      exact hdown
    | ok found =>
    cases found with
    | none =>
      obtain ⟨rfl, -, rfl⟩ := hrun
      exact hdown
    | some v =>
    simp only [Prog.bind_ret] at hrun
    cases hdraft : input.draft v slot with
    | error e =>
      rw [hdraft] at hrun
      obtain ⟨rfl, -, rfl⟩ := hrun
      exact hdown
    | ok draft =>
      rw [hdraft] at hrun
      obtain ⟨r₂, w₂, l₂, hcheck, rfl, hrun⟩ := hrun
      obtain rfl := hcheck.unchanged (fun _ _ => rfl) (fun _ h => by cases h) fun _ _ h => by cases h
      replace hcomp := (List.forall_mem_cons.1 hcomp).2
      have hsecond : ¬ AnswerLost ⟨w₂, .checkSlotAvailability _, r₂, w₂⟩ := id
      rw [kept_cons hsecond]
      cases r₂ with
      | error e =>
        obtain ⟨rfl, -, rfl⟩ := hrun
        exact hdown
      | ok free =>
      cases free with
      | false =>
        obtain ⟨rfl, -, rfl⟩ := hrun
        exact hdown
      | true =>
        obtain ⟨now, w₃, l₃, hnow, rfl, hrun⟩ := hrun
        obtain rfl := hnow.unchanged (fun _ _ => rfl) (fun _ h => by cases h) fun _ _ h => by cases h
        replace hcomp := (List.forall_mem_cons.1 hcomp).2
        have hthird : ¬ AnswerLost ⟨w₃, .now, now, w₃⟩ := id
        rw [kept_cons hthird]
        simp only [Prog.bind_ret] at hrun
        split at hrun
        · obtain ⟨rfl, -, rfl⟩ := hrun
          exact hdown
        · exact storeBooking_atomic_iff (fun i => ⟨rfl, (CreateBookingInput.draft_venueID hdraft).symm⟩) hw hcomp hrun

end Request

/-- **The bookings of a run, and those with a slot, have keys that were given out**, whatever goes on at once. -/
theorem slots_within {uc : BookingUseCase} {text : TextRules} {w₀ : SlotWorld} {c : SlotConfig} (h0 : w₀.Opening)
    (h : (slotSys uc text).Reach anyStep w₀ c) : c.world.Within c.world.db.issued := by
  have hstart : w₀.Within w₀.db.issued := by
    refine ⟨h0.keys, fun s hs id hid => ?_⟩
    have hbooked : s ∈ SlotWorld.booked w₀.venue := List.mem_filter.2 ⟨hs, by simp [hid]⟩
    rw [h0.free] at hbooked
    cases hbooked
  obtain ⟨hI, -⟩ := h.told (I := fun w => w.Within w.db.issued) (R := fun w w' => Lasts w.db w'.db)
    (T := fun w e => Told w.db e) (K := fun _ _ => True) (P := fun _ => SlotDuty) (fun _ _ _ hl ht => ht.lasts hl)
    (fun _ _ _ _ _ => trivial) (SlotCall.prog_after uc) hstart (fun _ _ _ => trivial)
    (by
      intro w w' ts₁ ts₂ c h o k r _ _ hI _ hduty htold he
      refine ⟨⟨(he.db.opening hI.1).1, fun s hs id hid => ?_⟩, fun _ _ hp ha => he.db.always hp ha, he.db.told hI.1⟩
      have hold : s ∈ w.venue.reserved.rows → id ∈ w'.db.issued := fun hs => he.db.issued_mono (hI.2 s hs id hid)
      by_cases hres : ∃ req, o = .reserveSlot req
      · obtain ⟨req, rfl⟩ := hres
        rcases he.reserve.2 s hs with hs | ⟨-, hbooking⟩
        · exact hold hs
        · obtain ⟨⟨d, b, hborn, hb, -⟩, -⟩ := hduty.prior
          rw [hid, hb] at hbooking
          rw [Option.some.inj hbooking]
          exact he.db.issued_mono (htold _ hborn.mem).2.1
      by_cases hrel : ∃ v i, o = .releaseSlot v i
      · obtain ⟨v, i, rfl⟩ := hrel
        exact hold (he.release.2 s hs)
      · rw [he.venue (fun req ho => hres ⟨req, ho⟩) fun v i ho => hrel ⟨v, i, ho⟩] at hs
        exact hold hs)
    (by
      intro w w' ts _ hI he
      obtain ⟨hdb, hbooked⟩ := he
      refine ⟨⟨fun id b hb => ?_, fun s hs id hid => ?_⟩, ?_⟩
      · rw [hdb] at hb ⊢
        exact hI.1 id b hb
      · have hmem : s ∈ SlotWorld.booked w'.venue := List.mem_filter.2 ⟨hs, by simp [hid]⟩
        rw [hbooked] at hmem
        rw [hdb]
        exact hI.2 s (List.mem_filter.1 hmem).1 id hid
      · rw [hdb]
        exact fun _ _ _ ha => ha)
  exact hI

/-! ## A reservation whose answer is lost -/

def resetByPeer : Err := .status .unavailable "connection reset"

/-- The request at the free slot, up to a reservation that is reported as failed and leaves the slots `venue`. -/
def refusedSteps (venue : VenueDB) : List PerformedCall :=
  [⟨sampleSlots, .getVenue bookedInput.venueID, .ok (some sampleVenueResponse), sampleSlots⟩,
    ⟨sampleSlots, .checkSlotAvailability ⟨bookedInput.venueID, "", bookedInput.date, bookedInput.timeFrom, bookedInput.timeTo, []⟩,
      .ok true, sampleSlots⟩,
    ⟨sampleSlots, .now, (0 : Time), sampleSlots⟩,
    ⟨sampleSlots, .create (sampleDraft ""), .ok (sampleDraft sampleKey), ⟨sampleStored, sampleSlots.venue⟩⟩,
    ⟨⟨sampleStored, sampleSlots.venue⟩,
      .reserveSlot ⟨bookedInput.venueID, sampleKey, bookedInput.date, bookedInput.timeFrom, bookedInput.timeTo, []⟩,
      .error resetByPeer, ⟨sampleStored, venue⟩⟩,
    ⟨⟨sampleStored, venue⟩, .delete sampleKey, .ok (), ⟨leakedSlots.db, venue⟩⟩]

theorem refusedSteps_compensated (venue : VenueDB) : ∀ m ∈ refusedSteps venue, Compensated m := by
  simp [refusedSteps, Compensated]

theorem sampleSlots_within : sampleSlots.Within sampleSlots.db.issued := by
  refine ⟨fun id b hb => ?_, fun s hs => ?_⟩
  · cases hb
  · cases hs

theorem SlotWorld.run_reserveSlot {loc : Location} {text : TextRules} {env : SlotEnv} {req : ReserveSlotRequest} {w : SlotWorld}
    {r : Except Err Unit} {venue : VenueDB}
    (h : env.request.apply id (VenueServer.reserveSlot text env.slotID env.halls req) w.venue = (r, venue)) :
    SlotWorld.run loc text env (.reserveSlot req) w = (r, { w with venue := venue }) := by
  simp only [SlotWorld.run, h]

theorem refused_runs (f : Fault Err) (venue : VenueDB)
    (hf : f.apply id (VenueServer.reserveSlot sampleText (sampleSlotEnv otherKey f).slotID (.ok [])
      ⟨bookedInput.venueID, sampleKey, bookedInput.date, bookedInput.timeFrom, bookedInput.timeTo, []⟩) sampleSlots.venue =
        (.error resetByPeer, venue)) :
    (sampleBookings.createBooking bookedInput).RunsBy (SlotWorld.Exec sampleLocation sampleText) sampleSlots (refusedSteps venue)
      (.error (resetByPeer.wrap "reserve slot")) ⟨leakedSlots.db, venue⟩ := by
  have hnew : sampleKey ∉ sampleSlots.db.issued := by decide
  have hother : otherKey ∉ sampleStored.issued := by decide
  have hnow : ¬ sampleLocation.instant (⟨2025, 6, 2⟩ : Date) ⟨0, 0⟩ <
      sampleLocation.instant (sampleLocation.dateAt 0) ⟨0, 0⟩ := by decide
  unfold refusedSteps
  simp only [BookingUseCase.createBooking, bookedInput_slot, Prog.bind_eq, Prog.perform_bind]
  refine ⟨.ok (some sampleVenueResponse), sampleSlots, _, ⟨sampleSlotEnv sampleKey .none, hnew, rfl⟩, rfl, ?_⟩
  simp only [bookedInput_draft]
  refine ⟨.ok true, sampleSlots, _, ⟨sampleSlotEnv sampleKey .none, hnew, rfl⟩, rfl, ?_⟩
  refine ⟨(0 : Time), sampleSlots, _, ⟨sampleSlotEnv sampleKey .none, hnew, rfl⟩, rfl, ?_⟩
  simp only [sampleBookings, sampleDraft, hnow, if_false, BookingUseCase.storeBooking, Prog.bind_eq, Prog.perform_bind]
  refine ⟨.ok (sampleDraft sampleKey), ⟨sampleStored, sampleSlots.venue⟩, _, ⟨sampleSlotEnv sampleKey .none, hnew, rfl⟩, rfl, ?_⟩
  refine ⟨.error resetByPeer, ⟨sampleStored, venue⟩, _, ⟨sampleSlotEnv otherKey f, hother, ?_⟩, rfl, ?_⟩
  · exact SlotWorld.run_reserveSlot hf
  refine ⟨.ok (), ⟨leakedSlots.db, venue⟩, _, ⟨sampleSlotEnv otherKey .none, hother, rfl⟩, rfl, ?_⟩
  exact ⟨rfl, rfl, rfl⟩

/-- **The slot is left**: it was reserved, the answer was lost, and the row alone is taken back. -/
theorem createBooking_leaves_slot : ¬ ∀ (uc : BookingUseCase) (text : TextRules) (input : CreateBookingInput) (w w' : SlotWorld)
    (l : List PerformedCall) (err : Err), w.Within w.db.issued →
      (uc.createBooking input).RunsBy (SlotWorld.Exec uc.loc text) w l (.error err) w' → (∀ m ∈ l, Compensated m) →
      w'.Within w.db.issued := by
  intro h
  have hleft := h sampleBookings sampleText bookedInput _ _ _ _ sampleSlots_within
    (refused_runs (.after resetByPeer) leakedSlots.venue rfl) (refusedSteps_compensated _)
  exact absurd (hleft.2 sampleSlot (List.mem_singleton.2 rfl) sampleKey rfl) (by decide)

/-- A reservation that did fail leaves nothing. -/
theorem createBooking_atomic_refused : (⟨leakedSlots.db, sampleSlots.venue⟩ : SlotWorld).Within sampleSlots.db.issued ↔
    ∀ m ∈ refusedSteps sampleSlots.venue, ¬ AnswerLost m := by
  have hrun : (sampleBookings.createBooking bookedInput).RunsBy (SlotWorld.Exec sampleBookings.loc sampleText) sampleSlots
      (refusedSteps sampleSlots.venue) (.error (resetByPeer.wrap "reserve slot")) ⟨leakedSlots.db, sampleSlots.venue⟩ :=
    refused_runs (.before resetByPeer) sampleSlots.venue rfl
  exact createBooking_atomic_iff sampleSlots_within hrun (refusedSteps_compensated _)

end Agregator
