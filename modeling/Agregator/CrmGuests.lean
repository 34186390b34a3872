import Agregator.ConcTrace
import Agregator.CrmStore
import Mathlib.Algebra.BigOperators.Group.List.Basic
import Mathlib.Data.List.Dedup
/-!
# CrmGuests — the guest projection converges

The row of a booking is a register that keeps the latest fact of the highest rank, and the profile of a guest is recomputed
whenever one of its facts may have changed.  So after calls that contain every event of a set of bookings, the facts and
the profiles are those the set determines: the order of the calls and their repetitions do not matter.
-/
namespace Agregator

open Rel Conc

/-! ## What a set of events determines -/

/-- The facts of the events that can be read. -/
def factsOf (evs : List BookingEventPayload) : List BookingFact := evs.filterMap fun ev => (bookingEventToFact ev).toOption

/-- The content of the highest-ranked event of a booking. -/
def finalFact (facts : List BookingFact) (bookingID : String) : Option BookingFact :=
  Rank.latest (·.statusRank) (facts.filter (·.bookingID == bookingID))

/-- The final facts of a guest at a venue, one for each booking. -/
def finalFacts (facts : List BookingFact) (venueID userID : String) : List BookingFact :=
  (((facts.map (·.bookingID)).dedup).filterMap (finalFact facts)).filter fun f => f.venueID == venueID && f.userID == userID

/-- The counts of a guest; no bookings, no profile. -/
def finalCounts (facts : List BookingFact) (venueID userID : String) : Option GuestCounts :=
  let final := finalFacts facts venueID userID
  if final = [] then none else some (.ofFacts final)

/-- The events of each booking follow the lifecycle: its guest and venue are the same in all of them; it is confirmed once
at most; it is completed or cancelled once at most and never both; and it stays at its first stage, pending or waiting for
its payment, with one event only. -/
structure Lifecycle (evs : List BookingEventPayload) : Prop where
  status : ∀ a ∈ evs, ∃ s : BookingStatus, a.status = s.string
  guest : ∀ a ∈ evs, ∀ b ∈ evs, a.bookingID = b.bookingID → a.venueID = b.venueID ∧ a.userID = b.userID
  opened : ∀ a ∈ evs, ∀ b ∈ evs, a.bookingID = b.bookingID → (a.status = "pending" ∨ a.status = "payment_pending") →
    (b.status = "pending" ∨ b.status = "payment_pending") → a ≠ b → ∃ c ∈ evs, c.bookingID = a.bookingID ∧
      (c.status = "confirmed" ∨ c.status = "completed" ∨ c.status = "cancelled")
  confirmed : ∀ a ∈ evs, ∀ b ∈ evs, a.bookingID = b.bookingID → a.status = "confirmed" → b.status = "confirmed" → a = b
  ended : ∀ a ∈ evs, ∀ b ∈ evs, a.bookingID = b.bookingID → (a.status = "completed" ∨ a.status = "cancelled") →
    (b.status = "completed" ∨ b.status = "cancelled") → a = b

/-- The event has the highest rank among those of its booking, and no other has the same. -/
def Highest (evs : List BookingEventPayload) (ev : BookingEventPayload) : Prop :=
  ∀ ev' ∈ evs, ev'.bookingID = ev.bookingID → bookingStatusRank ev.status ≤ bookingStatusRank ev'.status → ev' = ev

/-- The facts of one booking are of one guest and one venue. -/
def SameGuest (facts : List BookingFact) : Prop :=
  ∀ a ∈ facts, ∀ b ∈ facts, a.bookingID = b.bookingID → a.venueID = b.venueID ∧ a.userID = b.userID

theorem SameGuest.mono {l l' : List BookingFact} (h : SameGuest l') (hl : ∀ f ∈ l, f ∈ l') : SameGuest l :=
  fun a ha b hb => h a (hl a ha) b (hl b hb)

/-! ## One call -/

/-- The facts and the profiles are those of the facts that have been applied, in this order. -/
structure CrmDB.Projects (db : CrmDB) (applied : List BookingFact) : Prop where
  fact : ∀ id, (db.fact id).map (·.toBookingFact) = finalFact applied id
  profile : ∀ v u, (db.profile v u).map (·.toGuestCounts) =
    if db.guestFacts v u = [] then none else some (.ofFacts ((db.guestFacts v u).map (·.toBookingFact)))

theorem finalFact_snoc (applied : List BookingFact) (f : BookingFact) (id : String) :
    finalFact (applied ++ [f]) id =
      if f.bookingID = id then Rank.adopt (·.statusRank) (finalFact applied id) f else finalFact applied id := by
  unfold finalFact
  rw [List.filter_append]
  by_cases h : f.bookingID = id
  · rw [if_pos h, List.filter_cons_of_pos (by simp [h]), List.filter_nil, Rank.latest_snoc]
  · rw [if_neg h, List.filter_cons_of_neg (by simp [h]), List.filter_nil, List.append_nil]

/-- A row holds one of the facts that have been applied to it. -/
theorem CrmDB.Projects.mem {db : CrmDB} {applied : List BookingFact} (h : db.Projects applied) {r : StoredFact}
    (hr : r ∈ db.facts.rows) : r.toBookingFact ∈ applied := by
  have hget : db.fact r.bookingID = some r :=
    db.facts.get_key hr (by simp) fun x hx => by simpa [factSchema] using hx
  have hf := h.fact r.bookingID
  rw [hget, Option.map_some] at hf
  exact (List.mem_filter.1 (Rank.latest_max hf.symm).1).1

section Apply

variable {db : CrmDB} {applied : List BookingFact} {now : Time} {f : BookingFact} {facts : Table factSchema}

/-- The row of a booking after the upsert. -/
theorem upsertFact_fact (h : db.Projects applied) (hg : SameGuest (applied ++ [f]))
    (hu : CrmRepo.upsertFact now f db.facts = .ok facts) (id : String) :
    (facts.get (·.bookingID == id)).map (·.toBookingFact) = finalFact (applied ++ [f]) id := by
  rw [finalFact_snoc, ← h.fact id]
  unfold CrmRepo.upsertFact at hu
  split at hu
  · rename_i hnone
    rw [Table.get_insert hu, CrmDB.fact]
    by_cases hid : f.bookingID = id
    · subst hid
      simp [hnone, Rank.adopt]
    · simp [hid]
  · rename_i r hsome
    rw [Table.get_update hu (fun r => rfl), CrmDB.fact]
    by_cases hid : f.bookingID = id
    · subst hid
      obtain ⟨hmem, hkey⟩ := Table.get_mem hsome
      have hb : r.bookingID = f.bookingID := by simpa using hkey
      obtain ⟨hv, hu⟩ := hg _ (List.mem_append_left _ (h.mem hmem)) f (by simp) hb
      by_cases hrank : r.statusRank ≤ f.statusRank
      · simp [hsome, Rank.adopt, hrank, hb, hv, hu]
      · simp [hsome, Rank.adopt, hrank]
    · rw [if_neg hid]
      cases hget : db.facts.get (·.bookingID == id) with
      | none => rfl
      | some x =>
        have hx : x.bookingID = id := by simpa using (Table.get_mem hget).2
        have hne : ¬ x.bookingID = f.bookingID := fun he => hid (he.symm.trans hx)
        simp [hne]

/-- The facts of another guest. -/
theorem upsertFact_others (h : db.Projects applied) (hg : SameGuest (applied ++ [f]))
    (hu : CrmRepo.upsertFact now f db.facts = .ok facts) {v u : String} (hvu : ¬ (f.venueID = v ∧ f.userID = u)) :
    (facts.select fun r => r.venueID == v && r.userID == u) = db.guestFacts v u := by
  have hf : (f.venueID == v && f.userID == u) = false := by simpa using hvu
  unfold CrmRepo.upsertFact at hu
  split at hu
  · rw [Table.select_insert hu]
    simp [hf, CrmDB.guestFacts]
  · refine Table.select_update_others hu fun r hr hp => ?_
    have hb : r.bookingID = f.bookingID := by
      simp only [Bool.and_eq_true, beq_iff_eq] at hp
      exact hp.1
    obtain ⟨hv, hu⟩ := hg _ (List.mem_append_left _ (h.mem hr)) f (by simp) hb
    have hr : (r.venueID == v && r.userID == u) = false := by
      rw [hv, hu]
      exact hf
    exact ⟨hr, hr⟩

/-- A profile after the recomputation, of this guest and of another. -/
theorem recomputeProfile_get {profiles profiles' : Table profileSchema} {v u : String} {rows : List StoredFact}
    (hr : CrmRepo.recomputeProfile now v u rows profiles = .ok profiles') (v' u' : String) :
    (profiles'.get fun p => p.venueID == v' && p.userID == u').map (·.toGuestCounts) =
      if v = v' ∧ u = u' then some (.ofFacts (rows.map (·.toBookingFact)))
      else (profiles.get fun p => p.venueID == v' && p.userID == u').map (·.toGuestCounts) := by
  unfold CrmRepo.recomputeProfile at hr
  dsimp only at hr
  split at hr
  · rename_i hnone
    rw [Table.get_insert hr]
    by_cases hvu : v = v' ∧ u = u'
    · obtain ⟨rfl, rfl⟩ := hvu
      simp [hnone]
    · have hq : (v == v' && u == u') = false := by simpa using hvu
      rw [if_neg hvu]
      simp [hq]
  · rename_i p hsome
    rw [Table.get_update hr (fun r => rfl)]
    by_cases hvu : v = v' ∧ u = u'
    · obtain ⟨rfl, rfl⟩ := hvu
      have hp := (Table.get_mem hsome).2
      rw [hsome, if_pos ⟨rfl, rfl⟩, Option.map_some, if_pos hp, Option.map_some]
    · rw [if_neg hvu]
      cases hget : profiles.get fun p => p.venueID == v' && p.userID == u' with
      | none => rfl
      | some x =>
        have hx := (Table.get_mem hget).2
        simp only [Bool.and_eq_true, beq_iff_eq] at hx
        have hne : (x.venueID == v && x.userID == u) = false := by
          rw [hx.1, hx.2]
          simp only [Bool.and_eq_false_iff, beq_eq_false_iff_ne]
          by_contra hboth
          push Not at hboth
          exact hvu ⟨hboth.1.symm, hboth.2.symm⟩
        rw [Option.map_some, if_neg (by simp [hne])]

/-- **A fact that is applied is projected.** -/
theorem CrmDB.Projects.apply {db' : CrmDB} (h : db.Projects applied) (hg : SameGuest (applied ++ [f]))
    (ha : CrmRepo.applyBookingFact now f db = (.ok (), db')) : db'.Projects (applied ++ [f]) := by
  unfold CrmRepo.applyBookingFact at ha
  split at ha
  · cases ha
  rename_i facts hu
  split at ha
  · cases ha
  rename_i profiles hr
  cases ha
  have hfact := upsertFact_fact h hg hu
  refine ⟨hfact, fun v u => ?_⟩
  unfold CrmDB.profile CrmDB.guestFacts
  dsimp only
  rw [recomputeProfile_get hr]
  by_cases hvu : f.venueID = v ∧ f.userID = u
  · obtain ⟨rfl, rfl⟩ := hvu
    -- the row of this booking is one of the guest's
    have hne : (facts.select fun r => r.venueID == f.venueID && r.userID == f.userID) ≠ [] := by
      have hrow := hfact f.bookingID
      rcases hlast : finalFact (applied ++ [f]) f.bookingID with _ | g
      · have hmem : f ∈ (applied ++ [f]).filter (·.bookingID == f.bookingID) := by simp
        rw [finalFact, Rank.latest_eq_none] at hlast
        rw [hlast] at hmem
        cases hmem
      rw [hlast] at hrow
      obtain ⟨r, hget, hcontent⟩ := Option.map_eq_some_iff.1 hrow
      obtain ⟨hmem, hkey⟩ := Table.get_mem hget
      obtain ⟨hg1, hg2⟩ := List.mem_filter.1 (Rank.latest_max hlast).1
      obtain ⟨hv, hu⟩ := hg g hg1 f (by simp) (by simpa using hg2)
      have hrg : r.venueID = g.venueID ∧ r.userID = g.userID := by rw [← hcontent]; exact ⟨rfl, rfl⟩
      exact List.ne_nil_of_mem (List.mem_filter.2 ⟨hmem, by simp [hrg.1, hrg.2, hv, hu]⟩)
    rw [if_pos ⟨rfl, rfl⟩, if_neg hne]
  · rw [if_neg hvu, upsertFact_others h hg hu hvu]
    exact h.profile v u

end Apply

/-! ## Any number of calls -/

/-- A call with this fact has been answered without an error. -/
def Answered (calls : List FactCall) (f : BookingFact) : Prop :=
  ∃ before c rest, calls = before ++ c :: rest ∧ c.fact = f ∧ (c.run (CrmDB.empty.after before)).1 = .ok ()

/-- A transaction that does not come through leaves the projection as it was. -/
theorem FactCall.run_cases (c : FactCall) (db : CrmDB) :
    ((c.run db).2 = db ∧ (c.run db).1 ≠ .ok ()) ∨
      CrmRepo.applyBookingFact c.now c.fact db = (.ok (), (c.run db).2) := by
  have herr : ∀ {e : Err} {db' : CrmDB}, CrmRepo.applyBookingFact c.now c.fact db = (.error e, db') → db' = db := by
    intro e db' h
    unfold CrmRepo.applyBookingFact at h
    split at h
    · cases h
      rfl
    split at h <;> cases h
    rfl
  unfold FactCall.run
  cases ha : CrmRepo.applyBookingFact c.now c.fact db with
  | mk r db' =>
    cases r with
    | error e =>
      obtain rfl := herr ha
      left
      cases c.fault <;> simp [ha]
    | ok _ =>
      cases c.fault with
      | none => exact .inr (by simp [ha])
      | before d => exact .inl (by simp)
      | after d => exact .inr (by simp [ha])

theorem CrmDB.after_snoc (db : CrmDB) (calls : List FactCall) (c : FactCall) :
    db.after (calls ++ [c]) = (c.run (db.after calls)).2 := by
  simp [CrmDB.after, List.foldl_append]

/-- **After any calls the projection is that of the facts that took effect**, the answered ones among them. -/
theorem run_projects (calls : List FactCall) (hg : SameGuest (calls.map (·.fact))) :
    ∃ applied, (CrmDB.empty.after calls).Projects applied ∧ (∀ f ∈ applied, f ∈ calls.map (·.fact)) ∧
      ∀ f, Answered calls f → f ∈ applied := by
  induction calls using List.reverseRecOn with
  | nil =>
    refine ⟨[], ⟨fun id => rfl, fun v u => rfl⟩, by simp, ?_⟩
    rintro f ⟨before, c, rest, h, -⟩
    simp at h
  | append_singleton calls c ih =>
    have hsub : ∀ f ∈ calls.map (·.fact), f ∈ (calls ++ [c]).map (·.fact) := by
      intro f hf
      rw [List.map_append]
      exact List.mem_append_left _ hf
    obtain ⟨applied, hP, hfrom, hans⟩ := ih (hg.mono hsub)
    -- an answered call is one of before or the last one
    have hsplit : ∀ f, Answered (calls ++ [c]) f →
        Answered calls f ∨ (c.fact = f ∧ (c.run (CrmDB.empty.after calls)).1 = .ok ()) := by
      rintro f ⟨before, c', rest, heq, hf, hok⟩
      rcases split_snoc heq with ⟨rfl, rfl⟩ | ⟨rest', rfl⟩
      · exact .inr ⟨hf, hok⟩
      · exact .inl ⟨before, c', rest', rfl, hf, hok⟩
    rw [CrmDB.after_snoc]
    rcases c.run_cases (CrmDB.empty.after calls) with ⟨hsame, hno⟩ | happ
    · rw [hsame]
      refine ⟨applied, hP, fun f hf => hsub f (hfrom f hf), fun f hf => ?_⟩
      rcases hsplit f hf with hf | ⟨-, hok⟩
      · exact hans f hf
      · exact absurd hok hno
    · have hmem : ∀ f ∈ applied ++ [c.fact], f ∈ (calls ++ [c]).map (·.fact) := by
        intro f hf
        rcases List.mem_append.1 hf with hf | hf
        · exact hsub f (hfrom f hf)
        · rw [List.mem_singleton.1 hf, List.map_append]
          exact List.mem_append_right _ (by simp)
      refine ⟨applied ++ [c.fact], hP.apply (hg.mono hmem) happ, hmem, fun f hf => ?_⟩
      rcases hsplit f hf with hf | ⟨rfl, -⟩
      · exact List.mem_append_left _ (hans f hf)
      · exact List.mem_append_right _ (by simp)

/-! ## Aggregates do not depend on the order -/

theorem min?_perm {l l' : List ℤ} (h : l.Perm l') : l.min? = l'.min? := by
  ext a
  simp only [List.min?_eq_some_iff, h.mem_iff]

theorem max?_perm {l l' : List ℤ} (h : l.Perm l') : l.max? = l'.max? := by
  ext a
  simp only [List.max?_eq_some_iff, h.mem_iff]

theorem GuestCounts.ofFacts_perm {l l' : List BookingFact} (h : l.Perm l') : ofFacts l = ofFacts l' := by
  have hdone := h.filter (·.status == "completed")
  have hcan := h.filter (·.status == "cancelled")
  simp only [ofFacts, h.length_eq, hdone.length_eq, hcan.length_eq, (hdone.map (·.totalPrice)).sum_eq,
    min?_perm (hdone.filterMap (·.visitDate)), max?_perm (hdone.filterMap (·.visitDate))]

theorem finalFact_bookingID {facts : List BookingFact} {id : String} {f : BookingFact} (h : finalFact facts id = some f) :
    f.bookingID = id ∧ f ∈ facts := by
  obtain ⟨hmem, hid⟩ := List.mem_filter.1 (Rank.latest_max h).1
  exact ⟨by simpa using hid, hmem⟩

theorem mem_finalFacts {facts : List BookingFact} {v u : String} {f : BookingFact} :
    f ∈ finalFacts facts v u ↔ finalFact facts f.bookingID = some f ∧ f.venueID = v ∧ f.userID = u := by
  simp only [finalFacts, List.mem_filter, List.mem_filterMap, List.mem_dedup, List.mem_map, Bool.and_eq_true, beq_iff_eq]
  constructor
  · rintro ⟨⟨id, -, hf⟩, hvu⟩
    rw [(finalFact_bookingID hf).1]
    exact ⟨hf, hvu⟩
  · rintro ⟨hf, hvu⟩
    exact ⟨⟨f.bookingID, ⟨f, (finalFact_bookingID hf).2, rfl⟩, hf⟩, hvu⟩

theorem finalFacts_nodup (facts : List BookingFact) (v u : String) : (finalFacts facts v u).Nodup := by
  refine List.Nodup.filter _ (List.Nodup.filterMap (fun id id' f hf hf' => ?_) (List.nodup_dedup _))
  exact (finalFact_bookingID hf).1.symm.trans (finalFact_bookingID hf').1

/-- **The facts of a guest are the final ones.** -/
theorem CrmDB.Projects.guest {db : CrmDB} {applied facts : List BookingFact} (h : db.Projects applied)
    (hfinal : ∀ id, finalFact applied id = finalFact facts id) (v u : String) :
    ((db.guestFacts v u).map (·.toBookingFact)).Perm (finalFacts facts v u) := by
  have hkeys : ((db.guestFacts v u).map (·.toBookingFact)).Nodup := by
    refine List.pairwise_map.2 ((db.facts.noClash.filter _).imp fun hab heq => ?_)
    rw [show factSchema.clash _ _ = true from by simp [factSchema, congrArg BookingFact.bookingID heq]] at hab
    cases hab
  refine (List.perm_ext_iff_of_nodup hkeys (finalFacts_nodup _ _ _)).2 fun f => ?_
  rw [mem_finalFacts, ← hfinal, ← h.fact]
  simp only [List.mem_map, CrmDB.guestFacts, Table.select, List.mem_filter, Bool.and_eq_true, beq_iff_eq]
  constructor
  · rintro ⟨r, ⟨hr, hvu⟩, rfl⟩
    have hget : db.fact r.bookingID = some r :=
      db.facts.get_key hr (by simp) fun x hx => by simpa [factSchema] using hx
    exact ⟨by rw [hget]; rfl, hvu⟩
  · rintro ⟨hf, hvu⟩
    obtain ⟨r, hget, rfl⟩ := Option.map_eq_some_iff.1 hf
    exact ⟨r, ⟨(Table.get_mem hget).1, hvu⟩, rfl⟩

/-! ## Events that follow the lifecycle -/

theorem parseUUID_ok {s s' : String} (h : parseUUID s = .ok s') : s' = s ∧ isUUID s = true := by
  unfold parseUUID at h
  split at h
  · rename_i hs
    cases h
    exact ⟨rfl, hs⟩
  · cases h

/-- A fact has the keys of its event and the rank of its status. -/
theorem bookingEventToFact_ok {ev : BookingEventPayload} {f : BookingFact} (h : bookingEventToFact ev = .ok f) :
    f.bookingID = ev.bookingID ∧ f.venueID = ev.venueID ∧ f.userID = ev.userID ∧ f.status = ev.status ∧
      f.statusRank = bookingStatusRank ev.status ∧
      isUUID ev.bookingID = true ∧ isUUID ev.venueID = true ∧ isUUID ev.userID = true := by
  unfold bookingEventToFact at h
  split at h
  · rename_i hb hv hu
    cases h
    obtain ⟨rfl, hbu⟩ := parseUUID_ok hb
    obtain ⟨rfl, hvu⟩ := parseUUID_ok hv
    obtain ⟨rfl, huu⟩ := parseUUID_ok hu
    exact ⟨rfl, rfl, rfl, rfl, rfl, hbu, hvu, huu⟩
  all_goals cases h

theorem bookingEventToFact_of_uuids {ev : BookingEventPayload} (hb : isUUID ev.bookingID = true)
    (hv : isUUID ev.venueID = true) (hu : isUUID ev.userID = true) : ∃ f, bookingEventToFact ev = .ok f := by
  unfold bookingEventToFact parseUUID
  rw [if_pos hb, if_pos hv, if_pos hu]
  exact ⟨_, rfl⟩

theorem mem_factsOf {evs : List BookingEventPayload} {f : BookingFact} :
    f ∈ factsOf evs ↔ ∃ ev ∈ evs, bookingEventToFact ev = .ok f := by
  unfold factsOf
  rw [List.mem_filterMap]
  constructor
  · rintro ⟨ev, hev, h⟩
    cases hf : bookingEventToFact ev with
    | error e =>
      rw [hf] at h
      cases h
    | ok g =>
      rw [hf] at h
      cases h
      exact ⟨ev, hev, hf⟩
  · rintro ⟨ev, hev, h⟩
    exact ⟨ev, hev, by rw [h]; rfl⟩

theorem bookingStatusRank_cases (s : BookingStatus) :
    (bookingStatusRank s.string = 1 ∧ (s.string = "pending" ∨ s.string = "payment_pending")) ∨
      (bookingStatusRank s.string = 2 ∧ s.string = "confirmed") ∨
      (bookingStatusRank s.string = 3 ∧ (s.string = "completed" ∨ s.string = "cancelled")) := by
  cases s <;> decide

namespace Lifecycle

variable {evs : List BookingEventPayload} (h : Lifecycle evs)

include h in
theorem sameGuest : SameGuest (factsOf evs) := by
  intro a ha b hb hid
  obtain ⟨ev, hev, hf⟩ := mem_factsOf.1 ha
  obtain ⟨ev', hev', hf'⟩ := mem_factsOf.1 hb
  obtain ⟨hb, hv, hu, -⟩ := bookingEventToFact_ok hf
  obtain ⟨hb', hv', hu', -⟩ := bookingEventToFact_ok hf'
  rw [hv, hu, hv', hu']
  exact h.guest ev hev ev' hev' (by rw [← hb, ← hb', hid])

include h in
/-- Two events of one rank are one event, or the booking has gone on to a higher rank. -/
theorem rank_eq {a b : BookingEventPayload} (ha : a ∈ evs) (hb : b ∈ evs) (hid : a.bookingID = b.bookingID)
    (hrank : bookingStatusRank a.status = bookingStatusRank b.status) (hne : a ≠ b) :
    ∃ c ∈ evs, c.bookingID = a.bookingID ∧ bookingStatusRank a.status < bookingStatusRank c.status := by
  obtain ⟨s, hs⟩ := h.status a ha
  obtain ⟨s', hs'⟩ := h.status b hb
  have ha3 := bookingStatusRank_cases s
  have hb3 := bookingStatusRank_cases s'
  rw [← hs] at ha3
  rw [← hs'] at hb3
  rcases ha3 with ⟨ha1, hsa⟩ | ⟨ha1, hsa⟩ | ⟨ha1, hsa⟩ <;> rcases hb3 with ⟨hb1, hsb⟩ | ⟨hb1, hsb⟩ | ⟨hb1, hsb⟩ <;>
    try omega
  · obtain ⟨c, hc, hcid, hcs⟩ := h.opened a ha b hb hid hsa hsb hne
    refine ⟨c, hc, hcid, ?_⟩
    rw [ha1]
    rcases hcs with hcs | hcs | hcs <;> rw [hcs] <;> decide
  · exact absurd (h.confirmed a ha b hb hid hsa hsb) hne
  · exact absurd (h.ended a ha b hb hid hsa hsb) hne

include h in
/-- Of the facts of a booking one has the highest rank. -/
theorem decided (id : String) : Rank.Decided (·.statusRank) ((factsOf evs).filter (·.bookingID == id)) := by
  intro a ha b hb hrank hne
  obtain ⟨ha, haid⟩ := List.mem_filter.1 ha
  obtain ⟨hb, hbid⟩ := List.mem_filter.1 hb
  obtain ⟨ev, hev, hf⟩ := mem_factsOf.1 ha
  obtain ⟨ev', hev', hf'⟩ := mem_factsOf.1 hb
  obtain ⟨hb1, hv1, hu1, -, hr1, hbu, hvu, huu⟩ := bookingEventToFact_ok hf
  obtain ⟨hb2, -, -, -, hr2, -⟩ := bookingEventToFact_ok hf'
  have hid : ev.bookingID = ev'.bookingID := by
    rw [← hb1, ← hb2, beq_iff_eq.1 haid, beq_iff_eq.1 hbid]
  have hneq : ev ≠ ev' := by
    rintro rfl
    rw [hf] at hf'
    exact hne (Except.ok.inj hf')
  obtain ⟨c, hc, hcid, hlt⟩ := h.rank_eq hev hev' hid (by rw [← hr1, ← hr2]; exact hrank) hneq
  -- the event of the higher rank has the same keys, so it can be read too
  obtain ⟨hcv, hcu⟩ := h.guest c hc ev hev hcid
  obtain ⟨g, hg⟩ : ∃ g, bookingEventToFact c = .ok g := bookingEventToFact_of_uuids (by rw [hcid]; exact hbu) (by rw [hcv]; exact hvu)
    (by rw [hcu]; exact huu)
  obtain ⟨hgb, -, -, -, hgr, -⟩ := bookingEventToFact_ok hg
  refine ⟨g, List.mem_filter.2 ⟨mem_factsOf.2 ⟨c, hc, hg⟩, ?_⟩, ?_⟩
  · rw [hgb, hcid, ← hb1]
    exact haid
  · dsimp only
    rw [hr1, hgr]
    exact hlt

include h in
/-- **The final fact of a booking is the content of its highest-ranked event.** -/
theorem finalFact_highest {ev : BookingEventPayload} {f : BookingFact} (hev : ev ∈ evs) (hf : bookingEventToFact ev = .ok f) :
    ∃ top ∈ evs, top.bookingID = ev.bookingID ∧ Highest evs top ∧
      ∃ g, bookingEventToFact top = .ok g ∧ finalFact (factsOf evs) f.bookingID = some g := by
  obtain ⟨hb, -⟩ := bookingEventToFact_ok hf
  rcases Rank.latest_cases BookingFact.statusRank ((factsOf evs).filter (·.bookingID == f.bookingID)) with
    ⟨hnil, -⟩ | ⟨g, hg, hmem, hmax⟩
  · have hmem : f ∈ (factsOf evs).filter (·.bookingID == f.bookingID) :=
      List.mem_filter.2 ⟨mem_factsOf.2 ⟨ev, hev, hf⟩, by simp⟩
    rw [hnil] at hmem
    cases hmem
  obtain ⟨hgm, hgid⟩ := List.mem_filter.1 hmem
  obtain ⟨top, htop, hgt⟩ := mem_factsOf.1 hgm
  obtain ⟨hgb, -, -, -, hgr, -⟩ := bookingEventToFact_ok hgt
  have hid : top.bookingID = ev.bookingID := by rw [← hgb, ← hb, beq_iff_eq.1 hgid]
  -- every event of the booking can be read, so none has a rank above that of the fact held
  have hle : ∀ c ∈ evs, c.bookingID = top.bookingID → bookingStatusRank c.status ≤ bookingStatusRank top.status := by
    intro c hc hcid
    obtain ⟨-, -, -, -, -, hbu, hvu, huu⟩ := bookingEventToFact_ok hgt
    obtain ⟨hcv, hcu⟩ := h.guest c hc top htop hcid
    obtain ⟨x, hx⟩ : ∃ x, bookingEventToFact c = .ok x := bookingEventToFact_of_uuids (by rw [hcid]; exact hbu) (by rw [hcv]; exact hvu)
      (by rw [hcu]; exact huu)
    obtain ⟨hxb, -, -, -, hxr, -⟩ := bookingEventToFact_ok hx
    have := hmax x (List.mem_filter.2 ⟨mem_factsOf.2 ⟨c, hc, hx⟩, by rw [hxb, hcid, hid, ← hb]; simp⟩)
    rw [hxr, hgr] at this
    exact this
  refine ⟨top, htop, hid, fun ev' hev' hid' hrank => ?_, g, hgt, hg⟩
  by_contra hne
  obtain ⟨c, hc, hcid, hlt⟩ := h.rank_eq hev' htop hid' (Nat.le_antisymm (hle ev' hev' hid') hrank) hne
  have := hle c hc (hcid.trans hid')
  omega

end Lifecycle

/-! ## Convergence -/

/-- The calls apply events of the set only, and each of them at least once with success. -/
structure Covers (calls : List FactCall) (evs : List BookingEventPayload) : Prop where
  only : ∀ c ∈ calls, ∃ ev ∈ evs, bookingEventToFact ev = .ok c.fact
  each : ∀ ev ∈ evs, ∃ f, bookingEventToFact ev = .ok f ∧ Answered calls f

/-- The facts and the profiles are those the events determine. -/
structure CrmDB.Converged (db : CrmDB) (evs : List BookingEventPayload) : Prop where
  fact : ∀ id, (db.fact id).map (·.toBookingFact) = finalFact (factsOf evs) id
  highest : ∀ ev ∈ evs, ∃ top ∈ evs, top.bookingID = ev.bookingID ∧ Highest evs top ∧
    ∃ f r, bookingEventToFact top = .ok f ∧ db.fact ev.bookingID = some r ∧ r.toBookingFact = f
  profile : ∀ v u, (db.profile v u).map (·.toGuestCounts) = finalCounts (factsOf evs) v u

/-- **The guest projection converges**, whatever the order of the calls and their repetitions. -/
theorem guests_converge {evs : List BookingEventPayload} {calls : List FactCall} (hl : Lifecycle evs)
    (hc : Covers calls evs) : (CrmDB.empty.after calls).Converged evs := by
  have hsub : ∀ f ∈ calls.map (·.fact), f ∈ factsOf evs := by
    intro f hf
    obtain ⟨c, hcm, rfl⟩ := List.mem_map.1 hf
    exact mem_factsOf.2 (hc.only c hcm)
  obtain ⟨applied, hP, hfrom, hans⟩ := run_projects calls (hl.sameGuest.mono hsub)
  have hmem : ∀ f, f ∈ factsOf evs ↔ f ∈ applied := by
    refine fun f => ⟨fun hf => ?_, fun hf => hsub f (hfrom f hf)⟩
    obtain ⟨ev, hev, hf⟩ := mem_factsOf.1 hf
    obtain ⟨g, hg, ha⟩ := hc.each ev hev
    rw [hf] at hg
    cases hg
    exact hans f ha
  have hfinal : ∀ id, finalFact applied id = finalFact (factsOf evs) id := by
    intro id
    refine (Rank.latest_eq_of_mem_iff (hl.decided id) fun f => ?_).symm
    simp only [List.mem_filter, hmem]
  refine ⟨fun id => by rw [hP.fact, hfinal], fun ev hev => ?_, fun v u => ?_⟩
  · obtain ⟨f, hf, -⟩ := hc.each ev hev
    obtain ⟨top, htop, hid, hhigh, g, hg, hlast⟩ := hl.finalFact_highest hev hf
    have hrow := hP.fact f.bookingID
    rw [hfinal, hlast, (bookingEventToFact_ok hf).1] at hrow
    obtain ⟨r, hr, hcontent⟩ := Option.map_eq_some_iff.1 hrow
    exact ⟨top, htop, hid, hhigh, g, r, hg, hr, hcontent⟩
  · have hperm := hP.guest hfinal v u
    rw [hP.profile, GuestCounts.ofFacts_perm hperm]
    unfold finalCounts
    dsimp only
    by_cases hnil : finalFacts (factsOf evs) v u = []
    · rw [hnil] at hperm
      rw [if_pos (List.map_eq_nil_iff.1 hperm.eq_nil), if_pos hnil]
    · rw [if_neg hnil, if_neg]
      intro hrows
      rw [hrows, List.map_nil] at hperm
      exact hnil hperm.symm.eq_nil

/-! ### The events of one booking, out of order and repeated -/

def sampleVisit (status : BookingStatus) : BookingEventPayload where
  bookingID := "00000000-0000-0000-0000-00000000000b"
  userID := "00000000-0000-0000-0000-0000000000a1"
  venueID := "00000000-0000-0000-0000-0000000000e1"
  status := status.string
  totalPrice := 500000
  date := "2025-06-02"
  guests := 2

def sampleVisitFact (status : BookingStatus) : BookingFact where
  bookingID := "00000000-0000-0000-0000-00000000000b"
  venueID := "00000000-0000-0000-0000-0000000000e1"
  userID := "00000000-0000-0000-0000-0000000000a1"
  status := status.string
  statusRank := bookingStatusRank status.string
  totalPrice := 500000
  visitDate := some 739769
  guests := 2

def sampleVisits : List BookingEventPayload := [sampleVisit .paymentPending, sampleVisit .completed]

/-- The completion first, then the creation, and the completion again. -/
def sampleFactCalls : List FactCall :=
  [⟨sampleVisitFact .completed, 1, .none⟩, ⟨sampleVisitFact .paymentPending, 2, .none⟩,
    ⟨sampleVisitFact .completed, 3, .after "connection reset"⟩]

theorem sampleVisits_lifecycle : Lifecycle sampleVisits := by
  refine ⟨fun a ha => ?_, by decide, by decide, by decide, by decide⟩
  rcases List.mem_cons.1 ha with rfl | ha
  · exact ⟨.paymentPending, rfl⟩
  · rw [List.mem_singleton.1 ha]
    exact ⟨.completed, rfl⟩

theorem sampleFactCalls_covers : Covers sampleFactCalls sampleVisits := by
  refine ⟨fun c hc => ?_, fun ev hev => ?_⟩
  · rcases List.mem_cons.1 hc with rfl | hc
    · exact ⟨_, List.mem_cons_of_mem _ List.mem_cons_self, rfl⟩
    rcases List.mem_cons.1 hc with rfl | hc
    · exact ⟨_, List.mem_cons_self, rfl⟩
    · rw [List.mem_singleton.1 hc]
      exact ⟨_, List.mem_cons_of_mem _ List.mem_cons_self, rfl⟩
  · rcases List.mem_cons.1 hev with rfl | hev
    · exact ⟨_, rfl, [⟨sampleVisitFact .completed, 1, .none⟩], _, _, rfl, rfl, rfl⟩
    · rw [List.mem_singleton.1 hev]
      exact ⟨_, rfl, [], _, _, rfl, rfl, rfl⟩

theorem guests_converge_sample : (CrmDB.empty.after sampleFactCalls).Converged sampleVisits ∧
    finalCounts (factsOf sampleVisits) (sampleVisit .completed).venueID (sampleVisit .completed).userID =
      some ⟨1, 1, 0, 500000, some 739769, some 739769⟩ :=
  ⟨guests_converge sampleVisits_lifecycle sampleFactCalls_covers, by rfl⟩

end Agregator
