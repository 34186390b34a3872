import Agregator.BookFacts
import Agregator.VenueStore
/-!
# SlotSys — the bookings and the slots they hold

The calls of the booking service over its own database and that of the venue service, which two of them write: `ReserveSlot`
and `ReleaseSlot`.  A request to the venue service may fail, before or after it has taken effect, and a call may crash
between any two of its operations.
-/
namespace Agregator

open Rel Conc

/-! ## The venue service -/

namespace VenueServer

def internalErrMsg : String := "internal error"

def internalErr : Err := .status .internal internalErrMsg

/-- `ReserveSlot`, with the halls that `effectiveHalls` has made of the request. -/
def reserveSlot (text : TextRules) (newID : ℕ → String) (halls : Except Err (List String)) (req : ReserveSlotRequest)
    (db : VenueDB) : Except Err Unit × VenueDB :=
  if isUUID req.venueID = false then (.error (invalidArgument "invalid venue_id"), db)
  else if isUUID req.bookingID = false then (.error (invalidArgument "invalid booking_id"), db)
  else if req.hallIDs.all isUUID = false then (.error (invalidArgument "invalid hall_id"), db)
  else
    match halls with
    | .error _ => (.error internalErr, db)
    | .ok hallIDs =>
      match VenueRepo.reserveSlot text newID req.venueID req.bookingID req.date req.timeFrom req.timeTo hallIDs db with
      | (.error .slotUnavailable, db) => (.error (invalidArgument "выбранное время уже занято, выберите другое"), db)
      | (.error _, db) => (.error internalErr, db)
      | (.ok (), db) => (.ok (), db)

def releaseSlot (venueID bookingID : String) (db : VenueDB) : Except Err Unit × VenueDB :=
  if isUUID venueID = false then (.error (invalidArgument "invalid venue_id"), db)
  else if isUUID bookingID = false then (.error (invalidArgument "invalid booking_id"), db)
  else (.ok (), VenueRepo.releaseSlot venueID bookingID db)

/-- **A reservation** fails and changes nothing, or adds its rows. -/
theorem reserveSlot_cases (text : TextRules) (newID : ℕ → String) (halls : Except Err (List String)) (req : ReserveSlotRequest)
    (db : VenueDB) : (∃ e, reserveSlot text newID halls req db = (.error e, db)) ∨
      ∃ hallIDs d tf tt t, db.reserved.insertAll
          (VenueRepo.slotRows newID req.venueID (some req.bookingID) hallIDs d tf tt "") = .ok t ∧
        reserveSlot text newID halls req db = (.ok (), { db with reserved := t }) := by
  unfold reserveSlot
  split
  · exact .inl ⟨_, rfl⟩
  split
  · exact .inl ⟨_, rfl⟩
  split
  · exact .inl ⟨_, rfl⟩
  split
  · exact .inl ⟨_, rfl⟩
  rename_i hallIDs
  unfold VenueRepo.reserveSlot VenueRepo.insertSlots
  cases VenueRepo.interval text req.date req.timeFrom req.timeTo with
  | error e => exact .inl ⟨_, rfl⟩
  | ok iv =>
    obtain ⟨d, tf, tt⟩ := iv
    dsimp only
    cases hins : db.reserved.insertAll (VenueRepo.slotRows newID req.venueID (some req.bookingID) hallIDs d tf tt "") with
    | error v =>
      cases v with
      | check => exact .inl ⟨_, rfl⟩
      | unique => exact .inl ⟨_, rfl⟩
    | ok t => exact .inr ⟨hallIDs, d, tf, tt, t, hins, rfl⟩

end VenueServer

/-! ## The two services -/

structure SlotWorld where
  db : BookingDB
  venue : VenueDB

/-- What the environment has in store for a call: that of the booking service, the fate of a request to the venue service,
the halls it makes out and the keys its database draws. -/
structure SlotEnv extends BookEnv where
  request : Fault Err
  halls : Except Err (List String)
  slotID : ℕ → String

namespace SlotWorld

variable (loc : Location) (text : TextRules)

def run (env : SlotEnv) : (o : BookOp) → SlotWorld → o.Res × SlotWorld
  | .reserveSlot req, w =>
    let (r, venue) := env.request.apply id (VenueServer.reserveSlot text env.slotID env.halls req) w.venue
    (r, { w with venue := venue })
  | .releaseSlot venueID bookingID, w =>
    let (r, venue) := env.request.apply id (VenueServer.releaseSlot venueID bookingID) w.venue
    (r, { w with venue := venue })
  | o, w =>
    let (r, db) := o.run loc env.toBookEnv w.db
    (r, { w with db := db })

def Exec (o : BookOp) (w : SlotWorld) (r : o.Res) (w' : SlotWorld) : Prop :=
  ∃ env : SlotEnv, env.newID ∉ w.db.issued ∧ w.run loc text env o = (r, w')

/-- Slots that hold a booking. -/
def booked (venue : VenueDB) : List ReservedSlot := venue.reserved.select (·.bookingID.isSome)

/-- What else goes on at the venue service leaves the slots of the bookings alone. -/
def Elsewhere (w w' : SlotWorld) : Prop := w'.db = w.db ∧ booked w'.venue = booked w.venue

end SlotWorld

/-- A call, and the number of operations after which it crashes. -/
structure SlotCall where
  call : BookCall
  crash : Option ℕ

def SlotCall.prog (uc : BookingUseCase) (c : SlotCall) : BookProg (Option (Option Err)) :=
  match c.crash with
  | none => (c.call.prog uc).bind fun r => .ret (some r)
  | some n => (c.call.prog uc).cut n

def slotSys (uc : BookingUseCase) (text : TextRules) :
    Sys SlotWorld SlotCall BookOp BookOp.Res (Option (Option Err)) where
  prog := SlotCall.prog uc
  ready _ _ := True
  exec := SlotWorld.Exec uc.loc text
  env := SlotWorld.Elsewhere

abbrev SlotMoment := Moment SlotWorld SlotCall BookOp BookOp.Res (Option (Option Err))

abbrev SlotConfig := Config SlotWorld SlotCall BookOp BookOp.Res (Option (Option Err))

abbrev SlotThread := Thread SlotCall BookOp BookOp.Res (Option (Option Err))

/-! ## What goes on elsewhere -/

section Elsewhere

open VenueRepo

variable {w : SlotWorld} {text : TextRules} {newID : ℕ → String}

theorem booked_insert {db : VenueDB} {rows : List ReservedSlot} {t : Table reservedSlotSchema}
    (h : db.reserved.insertAll rows = .ok t) (hrows : ∀ s ∈ rows, s.bookingID = none) :
    SlotWorld.booked { db with reserved := t } = SlotWorld.booked db := by
  have hnone : rows.filter (·.bookingID.isSome) = [] := List.filter_eq_nil_iff.2 fun s hs => by simp [hrows s hs]
  simp only [SlotWorld.booked, Table.select, Table.insertAll_rows h, List.filter_append, hnone, List.append_nil]

theorem VenueRepo.slotRows_some (newID : ℕ → String) (venueID : String) (bookingID : Option String) (hallIDs : List String)
    (date : PgDate) (timeFrom timeTo : PgTime) (note : String) :
    ∃ s, s ∈ slotRows newID venueID bookingID hallIDs date timeFrom timeTo note := by
  unfold slotRows
  cases hallIDs with
  | nil => exact ⟨_, List.mem_singleton.2 rfl⟩
  | cons hall rest => exact ⟨_, List.mem_cons_self⟩

theorem createManualSlotBlock_elsewhere (venueID : String) (hallIDs : List String) (date timeFrom timeTo note : String) :
    w.Elsewhere { w with
      venue := (createManualSlotBlock text newID venueID hallIDs date timeFrom timeTo note w.venue).2 } := by
  refine ⟨rfl, ?_⟩
  unfold createManualSlotBlock insertSlots
  split
  · rename_i h
    revert h
    split
    · rintro ⟨⟩
      rfl
    split
    · rintro ⟨⟩
      rfl
    · nofun
  · rename_i h
    revert h
    split
    · nofun
    split
    · nofun
    · rename_i hi
      rintro ⟨⟩
      exact booked_insert hi fun s hs => (slotRows_row hs).2.1

theorem deleteManualSlotBlock_elsewhere (venueID blockID : String) :
    w.Elsewhere { w with venue := (deleteManualSlotBlock venueID blockID w.venue).2 } := by
  refine ⟨rfl, ?_⟩
  simp only [SlotWorld.booked, Table.select, Table.delete, deleteManualSlotBlock, List.filter_filter]
  refine List.filter_congr fun s _ => ?_
  cases s.bookingID <;> simp

theorem updateVenue_elsewhere (ctx venueID : String) (f : Venue → Venue) :
    w.Elsewhere { w with venue := (updateVenue ctx venueID f w.venue).2 } := by
  refine ⟨rfl, ?_⟩
  unfold updateVenue
  split <;> rfl

theorem replaceHalls_elsewhere (now : Time) (venueID : String) (items : List VenueHallUpsert) :
    w.Elsewhere { w with venue := (replaceHalls text now newID venueID items w.venue).2 } := by
  refine ⟨rfl, ?_⟩
  unfold replaceHalls updateVenue
  split
  · rfl
  · dsimp only
    split
    · rfl
    · rename_i h
      split at h
      · cases h
      · cases h
        rfl

end Elsewhere

/-! ## One call -/

namespace SlotWorld.Exec

variable {loc : Location} {text : TextRules} {o : BookOp} {w w' : SlotWorld} {r : o.Res}

/-- **The booking service sees a call of its own system.** -/
theorem db (h : SlotWorld.Exec loc text o w r w') : BookOp.Exec loc o w.db r w'.db := by
  obtain ⟨env, hnew, he⟩ := h
  cases o with
  | reserveSlot req =>
    simp only [run, Prod.mk.injEq] at he
    obtain ⟨hr, rfl⟩ := he
    exact ⟨{ env.toBookEnv with reserveSlot := r }, hnew, rfl⟩
  | releaseSlot venueID bookingID =>
    simp only [run, Prod.mk.injEq] at he
    obtain ⟨hr, rfl⟩ := he
    exact ⟨{ env.toBookEnv with releaseSlot := r }, hnew, rfl⟩
  | _ =>
    simp only [run, Prod.mk.injEq] at he
    obtain ⟨rfl, rfl⟩ := he
    exact ⟨env.toBookEnv, hnew, rfl⟩

/-- The calls that do not go to the venue service leave it as it is. -/
theorem venue (h : SlotWorld.Exec loc text o w r w') (h1 : ∀ req, o ≠ .reserveSlot req)
    (h2 : ∀ v i, o ≠ .releaseSlot v i) : w'.venue = w.venue := by
  obtain ⟨env, hnew, he⟩ := h
  cases o with
  | reserveSlot req => exact absurd rfl (h1 req)
  | releaseSlot v i => exact absurd rfl (h2 v i)
  | _ =>
    simp only [run, Prod.mk.injEq] at he
    obtain ⟨-, rfl⟩ := he
    rfl

/-- The slots of a reservation are of its venue and its booking. -/
theorem reserve {req : ReserveSlotRequest} {r : Except Err Unit} (h : SlotWorld.Exec loc text (.reserveSlot req) w r w') :
    w'.db = w.db ∧ ∀ s ∈ w'.venue.reserved.rows, s ∈ w.venue.reserved.rows ∨
      (s.venueID = req.venueID ∧ s.bookingID = some req.bookingID) := by
  obtain ⟨env, -, he⟩ := h
  simp only [run, Prod.mk.injEq] at he
  obtain ⟨-, rfl⟩ := he
  refine ⟨rfl, ?_⟩
  have hown : ∀ s ∈ (VenueServer.reserveSlot text env.slotID env.halls req w.venue).2.reserved.rows,
      s ∈ w.venue.reserved.rows ∨ (s.venueID = req.venueID ∧ s.bookingID = some req.bookingID) := by
    intro s hs
    rcases VenueServer.reserveSlot_cases text env.slotID env.halls req w.venue with ⟨e, h⟩ | ⟨hallIDs, d, tf, tt, t, hins, h⟩
    · rw [h] at hs
      exact .inl hs
    · rw [h, Table.insertAll_rows hins] at hs
      exact (List.mem_append.1 hs).imp id fun h => ⟨(VenueRepo.slotRows_row h).1, (VenueRepo.slotRows_row h).2.1⟩
  rcases env.request.apply_state id (VenueServer.reserveSlot text env.slotID env.halls req) w.venue with h | h
  · rw [h]
    exact fun s hs => .inl hs
  · rw [h]
    exact hown

/-- A release leaves no slot that was not there. -/
theorem release {v i : String} {r : Except Err Unit} (h : SlotWorld.Exec loc text (.releaseSlot v i) w r w') :
    w'.db = w.db ∧ ∀ s ∈ w'.venue.reserved.rows, s ∈ w.venue.reserved.rows := by
  obtain ⟨env, -, he⟩ := h
  simp only [run, Prod.mk.injEq] at he
  obtain ⟨-, rfl⟩ := he
  refine ⟨rfl, ?_⟩
  rcases env.request.apply_state id (VenueServer.releaseSlot v i) w.venue with h | h
  · rw [h]
    exact fun s hs => hs
  · rw [h]
    unfold VenueServer.releaseSlot
    split
    · exact fun s hs => hs
    split
    · exact fun s hs => hs
    · exact fun s hs => (List.mem_filter.1 hs).1

end SlotWorld.Exec

end Agregator
