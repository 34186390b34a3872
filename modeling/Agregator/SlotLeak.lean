import Agregator.SlotFacts
/-!
# SlotLeak — the slots that outlive their bookings

The service ignores the answer of `ReleaseSlot`, deletes a booking without a release when `ReserveSlot` fails, and its reaper
deletes bookings without one.  So a slot outlives its booking when such a request fails, when a call crashes between a
cancellation and the release, or when the reaper comes upon a booking whose call has crashed; and in no other run.
-/
namespace Agregator

open Rel Conc

/-! ## What is to be kept -/

/-- The slot of a booking belongs to one that is pending, waits for its payment, is confirmed or completed. -/
def SlotWorld.NoLeak (w : SlotWorld) : Prop :=
  ∀ s ∈ w.venue.reserved.rows, ∀ id, s.bookingID = some id → ∃ b, w.db.find id = some b ∧
    (b.status = .pending ∨ b.status = .paymentPending ∨ b.status = .confirmed ∨ b.status = .completed)

/-- Every call has returned or crashed. -/
def Quiescent (c : SlotConfig) : Prop := ∀ t ∈ c.threads, ∃ a, t.rest = .ret a

/-- The keys of the bookings have been given out, and no slot is held for a booking yet. -/
structure SlotWorld.Opening (w : SlotWorld) : Prop where
  keys : w.db.Opening
  free : SlotWorld.booked w.venue = []

def SlotWorld.HasSlot (w : SlotWorld) (id : String) : Prop := ∃ s ∈ w.venue.reserved.rows, s.bookingID = some id

/-- An operation at which no slot is lost sight of. -/
structure SlotKept (m : SlotMoment) : Prop where
  /-- A release takes effect. -/
  released : ∀ v i, m.op = .releaseSlot v i → ∀ s ∈ m.after.venue.reserved.rows, s.venueID = v → s.bookingID ≠ some i
  /-- A reservation that is reported as failed has failed. -/
  refused : ∀ req e, m.event = ⟨.reserveSlot req, .error e⟩ → m.after.venue = m.before.world.venue
  /-- A call that reserves a slot for a booking that is no more does not crash. -/
  reserved : ∀ req, m.event = ⟨.reserveSlot req, .ok ()⟩ →
    m.before.world.db.Live req.bookingID ∨ m.thread.call.crash = none
  /-- A cancellation that is reported as failed has failed. -/
  uncancelled : ∀ id ev e, m.event = ⟨.cancelWithEvent id ev, .error e⟩ → m.before.world.HasSlot id →
    m.after.db = m.before.world.db
  /-- A call does not crash between a cancellation and the release. -/
  cancelled : ∀ id ev, m.event = ⟨.cancelWithEvent id ev, .ok ()⟩ → m.before.world.HasSlot id →
    m.thread.call.crash ≠ some (m.thread.did.length + 1)
  /-- The reaper does not come upon a slot whose call crashes. -/
  reaped : ∀ age id, m.op = .deleteOrphanPending age → m.before.world.HasSlot id → m.after.db.find id = none →
    ∀ t ∈ m.before.threads, BookCall.Created t.did id → t.call.crash = none

/-! ## Who is to see to a slot -/

/-- The call has created the booking, reserved the slot and not released it. -/
structure HoldsSlot (t : SlotThread) (s : ReservedSlot) : Prop where
  created : ∃ d b, ⟨.create d, .ok b⟩ ∈ t.did ∧ s.bookingID = some b.id ∧ d.venueID = s.venueID
  reserved : ∃ req, ⟨.reserveSlot req, .ok ()⟩ ∈ t.did
  unreleased : ¬ HasReleased t.did

/-- The call has just cancelled the booking, and goes on. -/
def OwesRelease (t : SlotThread) (s : ReservedSlot) : Prop :=
  ∃ h id ev, t.did = h ++ [⟨.cancelWithEvent id ev, .ok ()⟩] ∧ s.bookingID = some id ∧
    (∀ b, ⟨.getByID id, .ok b⟩ ∈ h → b.venueID = s.venueID) ∧ t.call.crash ≠ some t.did.length

/-- The call holds the slot of a booking that has no payment, and does not crash. -/
structure OwesSlot (t : SlotThread) (s : ReservedSlot) : Prop extends HoldsSlot t s where
  survives : t.call.crash = none
  unpaid : ¬ HasPaid t.did

/-- The slot has a call that holds it, and a live booking or a call that is going to see to it. -/
structure Accounted (w : SlotWorld) (ts : List SlotThread) (s : ReservedSlot) (id : String) : Prop where
  held : ∃ t ∈ ts, HoldsSlot t s
  owed : w.db.Live id ∨ (∃ t ∈ ts, OwesRelease t s) ∨ ∃ t ∈ ts, OwesSlot t s

/-- Every slot of a booking is accounted for. -/
def SlotsAccounted (w : SlotWorld) (ts : List SlotThread) : Prop :=
  ∀ s ∈ w.venue.reserved.rows, ∀ id, s.bookingID = some id → Accounted w ts s id

theorem SlotsAccounted.start {w : SlotWorld} {ts : List SlotThread} (h : SlotsAccounted w ts) (t : SlotThread) :
    SlotsAccounted w (ts ++ [t]) := by
  intro s hs id hid
  obtain ⟨⟨t₀, ht₀, hh⟩, howed⟩ := h s hs id hid
  refine ⟨⟨t₀, List.mem_append_left _ ht₀, hh⟩, ?_⟩
  rcases howed with hl | ⟨t₁, ht₁, h1⟩ | ⟨t₁, ht₁, h1⟩
  · exact .inl hl
  · exact .inr (.inl ⟨t₁, List.mem_append_left _ ht₁, h1⟩)
  · exact .inr (.inr ⟨t₁, List.mem_append_left _ ht₁, h1⟩)

theorem SlotsAccounted.elsewhere {w w' : SlotWorld} {ts : List SlotThread} (h : SlotsAccounted w ts)
    (he : w.Elsewhere w') : SlotsAccounted w' ts := by
  intro s hs id hid
  have hbooked : s ∈ SlotWorld.booked w'.venue := List.mem_filter.2 ⟨hs, by simp [hid]⟩
  rw [he.2] at hbooked
  obtain ⟨hheld, howed⟩ := h s (List.mem_filter.1 hbooked).1 id hid
  exact ⟨hheld, by rw [he.1]; exact howed⟩

/-- A payment that a call has put on a booking is on the one it has created. -/
theorem paid_created {h : BookEventLog} (hp : ∀ h₁ e h₂, h = h₁ ++ e :: h₂ → SlotDuty h₁ e.1) {i pid url : String}
    {st : BookingStatus} {ev : BookingEvent} (hm : ⟨.setPaymentAndStatus i pid url st ev, .ok ()⟩ ∈ h) {d b : Booking}
    (hb : ⟨.create d, .ok b⟩ ∈ h) : i = b.id := by
  obtain ⟨h₁, h₂, rfl⟩ := List.append_of_mem hm
  rcases List.mem_append.1 hb with hb | hb
  · exact (hp _ _ _ rfl).prior.2 d b hb
  rcases List.mem_cons.1 hb with hb | hb
  · cases hb
  · -- a booking created after its payment
    obtain ⟨l₁, l₂, rfl⟩ := List.append_of_mem hb
    have hcreate := (hp (h₁ ++ ⟨.setPaymentAndStatus i pid url st ev, .ok ()⟩ :: l₁) ⟨.create d, .ok b⟩ l₂ (by simp)).prior
    exact absurd ⟨i, pid, url, st, ev, by simp⟩ hcreate.2

/-! ## One step -/

section Step

variable {uc : BookingUseCase} {text : TextRules} {w₀ w w' : SlotWorld} {ts₁ ts₂ : List SlotThread} {c : SlotCall}
  {h : BookEventLog} {o : BookOp} {k : o.Res → BookProg (Option (Option Err))} {r : o.Res} {s : ReservedSlot} {id : String}

/-- A call that holds a slot, and does not release one, still holds it. -/
theorem HoldsSlot.snoc (hh : HoldsSlot ⟨c, h, .call o k⟩ s) (ho : ∀ v i, o ≠ .releaseSlot v i) :
    HoldsSlot ⟨c, h ++ [⟨o, r⟩], k r⟩ s := by
  obtain ⟨⟨d, b, hb, hs⟩, ⟨req, hreq⟩, hrel⟩ := hh
  refine ⟨⟨d, b, List.mem_append_left _ hb, hs⟩, ⟨req, List.mem_append_left _ hreq⟩, ?_⟩
  rintro ⟨v, i, r', hm⟩
  rcases List.mem_append.1 hm with hm | hm
  · exact hrel ⟨v, i, r', hm⟩
  · cases List.mem_singleton.1 hm
    exact ho v i rfl

theorem mem_mover (t : SlotThread) : t ∈ ts₁ ++ t :: ts₂ := List.mem_append_right _ List.mem_cons_self

/-- The others are where they were. -/
theorem mem_others {t t₀ t₁ : SlotThread} (ht : t ∈ ts₁ ++ t₀ :: ts₂) (hne : t ≠ t₀) : t ∈ ts₁ ++ t₁ :: ts₂ := by
  rcases List.mem_append.1 ht with ht | ht
  · exact List.mem_append_left _ ht
  · rcases List.mem_cons.1 ht with rfl | ht
    · exact absurd rfl hne
    · exact List.mem_append_right _ (List.mem_cons_of_mem _ ht)

/-- What is known of a step: what was told before it, what the call has behind it, what the operation did. -/
structure SlotMove (uc : BookingUseCase) (text : TextRules) (w w' : SlotWorld) (ts₁ ts₂ : List SlotThread) (c : SlotCall)
    (h : BookEventLog) (o : BookOp) (k : o.Res → BookProg (Option (Option Err))) (r : o.Res) : Prop where
  opening : w.db.Opening
  told : ∀ t ∈ ts₁ ++ ⟨c, h, .call o k⟩ :: ts₂, ∀ e ∈ t.did, Told w.db e
  log : ∀ t ∈ ts₁ ++ ⟨c, h, .call o k⟩ :: ts₂, ∀ h₁ e h₂, t.did = h₁ ++ e :: h₂ → SlotDuty h₁ e.1
  duty : SlotDuty h o
  once : ∀ t ∈ ts₁ ++ ⟨c, h, .call o k⟩ :: ts₂, ∀ d b d' b', ⟨.create d, .ok b⟩ ∈ h → ⟨.create d', .ok b'⟩ ∈ t.did →
    b'.id = b.id → t = ⟨c, h, .call o k⟩
  exec : SlotWorld.Exec uc.loc text o w r w'
  kept : SlotKept ⟨⟨w, ts₁ ++ ⟨c, h, .call o k⟩ :: ts₂⟩, ⟨c, h, .call o k⟩, o, r, w'⟩

theorem slotMove (h0 : w₀.db.Opening) (hr : (slotSys uc text).Reach anyStep w₀ ⟨w, ts₁ ++ ⟨c, h, .call o k⟩ :: ts₂⟩)
    (he : SlotWorld.Exec uc.loc text o w r w')
    (hk : SlotKept ⟨⟨w, ts₁ ++ ⟨c, h, .call o k⟩ :: ts₂⟩, ⟨c, h, .call o k⟩, o, r, w'⟩) :
    SlotMove uc text w w' ts₁ ts₂ c h o k r := by
  obtain ⟨hopen, htold⟩ := slot_told h0 hr
  have hafter := hr.after (SlotCall.prog_after uc)
  exact ⟨hopen, htold, fun t ht => (hafter t ht).2, (hafter _ (mem_mover _)).1.1,
    fun t ht d b d' b' hb hb' hid => created_once hr ht hb hb' hid, he, hk⟩

variable (hm : SlotMove uc text w w' ts₁ ts₂ c h o k r)
include hm

/-- The call that moves is one of the pool. -/
theorem SlotMove.told_mover : ∀ e ∈ h, Told w.db e := hm.told _ (mem_mover _)

/-- A slot that is there after a release is not held by the call that releases. -/
theorem SlotMove.not_released (hs : s ∈ w'.venue.reserved.rows) (hh : HoldsSlot ⟨c, h, .call o k⟩ s) :
    ∀ v i, o ≠ .releaseSlot v i := by
  rintro v i rfl
  obtain ⟨d, b, hb, hid, hv⟩ := hh.created
  obtain ⟨rfl, rfl⟩ := hm.duty.prior d b hb
  exact hm.kept.released _ _ rfl s hs ((hm.told_mover _ hb).1.trans hv).symm hid

/-- A slot that is there after the step is still held by the call that held it. -/
theorem SlotMove.held (hs : s ∈ w'.venue.reserved.rows) (hh : ∃ t ∈ ts₁ ++ ⟨c, h, .call o k⟩ :: ts₂, HoldsSlot t s) :
    ∃ t ∈ ts₁ ++ ⟨c, h ++ [⟨o, r⟩], k r⟩ :: ts₂, HoldsSlot t s := by
  obtain ⟨t, ht, hh⟩ := hh
  by_cases hmover : t = ⟨c, h, .call o k⟩
  · subst hmover
    exact ⟨_, mem_mover _, hh.snoc (hm.not_released hs hh)⟩
  · exact ⟨t, mem_others ht hmover, hh⟩

/-- A call that owes a release pays it with its next step. -/
theorem SlotMove.owesRelease (hs : s ∈ w'.venue.reserved.rows)
    (hh : ∃ t ∈ ts₁ ++ ⟨c, h, .call o k⟩ :: ts₂, OwesRelease t s) :
    ∃ t ∈ ts₁ ++ ⟨c, h ++ [⟨o, r⟩], k r⟩ :: ts₂, OwesRelease t s := by
  obtain ⟨t, ht, hh⟩ := hh
  by_cases hmover : t = ⟨c, h, .call o k⟩
  · subst hmover
    obtain ⟨h', i, ev, heq, hid, hv, -⟩ := hh
    obtain ⟨b, hb, rfl⟩ := hm.duty.cancelled h' i ev heq
    have htold : Told w.db ⟨.getByID i, .ok b⟩ :=
      hm.told_mover _ (by rw [show h = _ from heq]; exact List.mem_append_left _ hb)
    rw [← htold.1] at hid
    exact absurd hid (hm.kept.released _ _ rfl s hs (hv b hb).symm)
  · exact ⟨t, mem_others ht hmover, hh⟩

/-- A call that owes a slot its payment still does, or has just put it on the booking. -/
theorem SlotMove.owesSlot (hs : s ∈ w'.venue.reserved.rows) (hid : s.bookingID = some id)
    (hh : ∃ t ∈ ts₁ ++ ⟨c, h, .call o k⟩ :: ts₂, OwesSlot t s) :
    w'.db.Live id ∨ ∃ t ∈ ts₁ ++ ⟨c, h ++ [⟨o, r⟩], k r⟩ :: ts₂, OwesSlot t s := by
  obtain ⟨t, ht, hh⟩ := hh
  by_cases hmover : t = ⟨c, h, .call o k⟩
  swap
  · exact .inr ⟨t, mem_others ht hmover, hh⟩
  subst hmover
  by_cases hpaid : HasPaid (h ++ [⟨o, r⟩])
  · obtain ⟨i, pid, url, st, ev, hmem⟩ := hpaid
    rcases List.mem_append.1 hmem with hmem | hmem
    · exact absurd ⟨i, pid, url, st, ev, hmem⟩ hh.unpaid
    · -- the payment has just been put on the booking
      cases List.mem_singleton.1 hmem
      obtain ⟨d, b, hb, hbid, -⟩ := hh.created
      obtain ⟨rfl, hi⟩ := hm.duty.prior
      obtain ⟨row, hrow, hst⟩ := (hm.exec.db.paid hm.opening).1
      rw [hid] at hbid
      rw [hi d b hb, ← Option.some.inj hbid] at hrow
      exact .inl ⟨row, hrow, by simp [hst]⟩
  · exact .inr ⟨_, mem_mover _, hh.toHoldsSlot.snoc (hm.not_released hs hh.toHoldsSlot), hh.survives, hpaid⟩

/-- **What a step does to a live booking with a slot**: it stays live, or a call is going to see to the slot. -/
theorem SlotMove.live (hs : s ∈ w.venue.reserved.rows) (hid : s.bookingID = some id) (hl : w.db.Live id)
    (hh : ∃ t ∈ ts₁ ++ ⟨c, h, .call o k⟩ :: ts₂, HoldsSlot t s) (hs' : s ∈ w'.venue.reserved.rows) :
    w'.db.Live id ∨ (∃ t ∈ ts₁ ++ ⟨c, h ++ [⟨o, r⟩], k r⟩ :: ts₂, OwesRelease t s) ∨
      ∃ t ∈ ts₁ ++ ⟨c, h ++ [⟨o, r⟩], k r⟩ :: ts₂, OwesSlot t s := by
  obtain ⟨t, ht, hh⟩ := hh
  obtain ⟨d, b, hb, hbid, hv⟩ := hh.created
  obtain rfl : id = b.id := Option.some.inj (hid.symm.trans hbid)
  obtain ⟨-, hborn⟩ := hm.told t ht _ hb
  rcases hm.exec.db.live hm.duty.prior hl with hl' | ⟨ev, rfl⟩ | rfl | ⟨age, rfl, hgone⟩
  · exact .inl hl'
  · -- the cancellation
    cases r with
    | error e =>
      rw [hm.kept.uncancelled _ ev e rfl ⟨s, hs, hid⟩]
      exact .inl hl
    | ok _ =>
      refine .inr (.inl ⟨_, mem_mover _, h, b.id, ev, rfl, hid, fun b' hb' => ?_, ?_⟩)
      · obtain ⟨row, hrow⟩ := hm.exec.db.cancelled_ok
        have h1 := (hm.told_mover _ hb').2.2 row hrow
        have h2 := hborn.2 row hrow
        exact h1.symm.trans (h2.trans hv)
      · have hcrash := hm.kept.cancelled _ ev rfl ⟨s, hs, hid⟩
        rw [List.length_append, List.length_singleton]
        exact hcrash
  · -- the deletion, which is of a booking that holds no slot
    obtain ⟨⟨d', b', hb', hid'⟩, hfree⟩ := hm.duty.prior
    obtain rfl := hm.once t ht d' b' d b hb' hb hid'.symm
    obtain ⟨req, hreq⟩ := hh.reserved
    rcases hfree with hrel | hnone
    · exact absurd hrel hh.unreleased
    · exact absurd hreq (hnone req)
  · -- the reaper, which takes no booking that has its payment
    refine .inr (.inr ?_)
    have hcrash := hm.kept.reaped age b.id rfl ⟨s, hs, hid⟩ hgone t ht ⟨d, b, hb, rfl⟩
    have hunpaid : ¬ HasPaid t.did := by
      rintro ⟨i, pid, url, st, ev, hmem⟩
      obtain rfl := paid_created (hm.log t ht) hmem hb
      obtain ⟨row, hrow, -⟩ := hl
      rw [hm.exec.db.reaped hrow ((hm.told t ht _ hmem).2 row hrow)] at hgone
      cases hgone
    by_cases hmover : t = ⟨c, h, .call (.deleteOrphanPending age) k⟩
    · subst hmover
      refine ⟨_, mem_mover _, hh.snoc (hm.not_released hs' hh), hcrash, ?_⟩
      rintro ⟨i, pid, url, st, ev, hmem⟩
      rcases List.mem_append.1 hmem with hmem | hmem
      · exact hunpaid ⟨i, pid, url, st, ev, hmem⟩
      · cases List.mem_singleton.1 hmem
    · exact ⟨t, mem_others ht hmover, hh, hcrash, hunpaid⟩

/-- A slot that was there is still accounted for. -/
theorem SlotMove.old (hs : s ∈ w.venue.reserved.rows) (hs' : s ∈ w'.venue.reserved.rows) (hid : s.bookingID = some id)
    (ha : Accounted w (ts₁ ++ ⟨c, h, .call o k⟩ :: ts₂) s id) :
    Accounted w' (ts₁ ++ ⟨c, h ++ [⟨o, r⟩], k r⟩ :: ts₂) s id := by
  refine ⟨hm.held hs' ha.held, ?_⟩
  rcases ha.owed with hl | hrel | hslot
  · exact hm.live hs hid hl ha.held hs'
  · exact .inr (.inl (hm.owesRelease hs' hrel))
  · exact (hm.owesSlot hs' hid hslot).imp_right .inr

/-- A slot that has just been reserved is accounted for by the call that reserved it. -/
theorem SlotMove.new (hs : s ∉ w.venue.reserved.rows) (hs' : s ∈ w'.venue.reserved.rows) (hid : s.bookingID = some id) :
    Accounted w' (ts₁ ++ ⟨c, h ++ [⟨o, r⟩], k r⟩ :: ts₂) s id := by
  by_cases ho : ∃ req, o = .reserveSlot req
  · obtain ⟨req, rfl⟩ := ho
    obtain ⟨hdb, hrows⟩ := hm.exec.reserve
    rcases hrows s hs' with hold | ⟨hv, hreq⟩
    · exact absurd hold hs
    cases r with
    | error e =>
      rw [hm.kept.refused req e rfl] at hs'
      exact absurd hs' hs
    | ok _ =>
      obtain ⟨⟨d, b, hborn, hbid, hbv⟩, hfree, hunpaid⟩ := hm.duty.prior
      have hholds : HoldsSlot ⟨c, h ++ [⟨.reserveSlot req, .ok ()⟩], k (.ok ())⟩ s := by
        refine ⟨⟨d, b, List.mem_append_left _ hborn.mem, by rw [hreq, hbid], by rw [hv, hbv]⟩, ⟨req, by simp⟩, ?_⟩
        rintro ⟨v, i, r', hmem⟩
        rcases List.mem_append.1 hmem with hmem | hmem
        · exact hfree ⟨v, i, r', hmem⟩
        · cases List.mem_singleton.1 hmem
      refine ⟨⟨_, mem_mover _, hholds⟩, ?_⟩
      rcases hm.kept.reserved req rfl with hl | hcrash
      · rw [hreq] at hid
        rw [← Option.some.inj hid, hdb]
        exact .inl hl
      · refine .inr (.inr ⟨_, mem_mover _, hholds, hcrash, ?_⟩)
        rintro ⟨i, pid, url, st, ev, hmem⟩
        rcases List.mem_append.1 hmem with hmem | hmem
        · exact hunpaid ⟨i, pid, url, st, ev, hmem⟩
        · cases List.mem_singleton.1 hmem
  · by_cases hrel : ∃ v i, o = .releaseSlot v i
    · obtain ⟨v, i, rfl⟩ := hrel
      exact absurd (hm.exec.release.2 s hs') hs
    · rw [hm.exec.venue (fun req hreq => ho ⟨req, hreq⟩) (fun v i hvi => hrel ⟨v, i, hvi⟩)] at hs'
      exact absurd hs' hs

end Step

/-! ## Runs -/

section Runs

variable {uc : BookingUseCase} {text : TextRules} {w₀ : SlotWorld} {tr : List SlotMoment} {c : SlotConfig}

theorem slots_accounted (h0 : w₀.Opening) (h : (slotSys uc text).Trace w₀ tr c) (hk : ∀ m ∈ tr, SlotKept m) :
    SlotsAccounted c.world c.threads := by
  refine h.reach_inv SlotsAccounted ?_ (fun w ts c hJ _ => hJ.start _) ?_ (fun w w' ts hJ he => hJ.elsewhere he) hk
  · intro s hs id hid
    have hbooked : s ∈ SlotWorld.booked w₀.venue := List.mem_filter.2 ⟨hs, by simp [hid]⟩
    rw [h0.free] at hbooked
    cases hbooked
  · intro w w' ts₁ ts₂ c h o k r hr hJ he hkept s hs' id hid
    have hm := slotMove h0.keys hr he hkept
    by_cases hs : s ∈ w.venue.reserved.rows
    · exact hm.old hs hs' hid (hJ s hs id hid)
    · exact hm.new hs hs' hid

/-- **No slot outlives its booking in a run at whose every operation no slot is lost sight of.** -/
theorem no_slot_leak (h0 : w₀.Opening) (h : (slotSys uc text).Trace w₀ tr c) (hk : ∀ m ∈ tr, SlotKept m)
    (hq : Quiescent c) : c.world.NoLeak := by
  intro s hs id hid
  have hdone := h.reach.ends (SlotCall.prog_ends uc)
  have hends : ∀ t ∈ c.threads, SlotDone t.did ∨ t.call.crash = some t.did.length := by
    intro t ht
    obtain ⟨a, ha⟩ := hq t ht
    have hd := hdone t ht
    rw [ha] at hd
    exact hd
  rcases (slots_accounted h0 h hk s hs id hid).owed with ⟨b, hb, hst⟩ | ⟨t, ht, h', i, ev, heq, -, -, hcrash⟩ | ⟨t, ht, ho⟩
  · refine ⟨b, hb, ?_⟩
    cases hbs : b.status with
    | cancelled => exact absurd hbs hst
    | pending => simp
    | paymentPending => simp
    | confirmed => simp
    | completed => simp
  · rcases hends t ht with hd | hd
    · exact absurd (hd.settled h' _ heq) (by simp [cancels])
    · exact absurd hd hcrash
  · rcases hends t ht with hd | hd
    · rcases hd.paid ho.reserved with hrel | hpaid
      · exact absurd hrel ho.unreleased
      · exact absurd hpaid ho.unpaid
    · rw [ho.survives] at hd
      cases hd

end Runs

/-! ## A slot that outlives its booking -/

def bookedInput : CreateBookingInput where
  userID := "00000000-0000-0000-0000-0000000000a1"
  venueID := "00000000-0000-0000-0000-0000000000e1"
  venueName := "Баня"
  serviceID := ""
  serviceIDs := []
  hallIDs := []
  date := "2025-06-02"
  timeFrom := "18:00"
  timeTo := "20:00"
  guests := 2
  comment := ""

def sampleCall : SlotCall := ⟨.createBooking bookedInput, none⟩

def sampleVenueResponse : VenueResponse := ⟨250000, 0, [], []⟩

/-- The booking the request makes, under the key the database draws for it. -/
def sampleDraft (key : String) : Booking where
  id := key
  userID := bookedInput.userID
  venueID := bookedInput.venueID
  venueName := bookedInput.venueName
  serviceID := ""
  packageServiceIDs := []
  hallIDs := []
  date := ⟨2025, 6, 2⟩
  timeFrom := ⟨18, 0⟩
  timeTo := ⟨20, 0⟩
  guests := 2
  comment := ""
  status := .pending
  totalPrice := 500000

def sampleKey : String := "00000000-0000-0000-0000-00000000000b"

def sampleVenue : Venue where
  id := bookedInput.venueID
  ownerID := "00000000-0000-0000-0000-0000000000a2"
  status := .active
  isActive := true
  moderationComment := ""
  moderatedAt := none
  moderatedBy := ""
  bookingMode := .whole
  priceFrom := 250000
  priceWeekend := 0
  capacity := 6
  amenities := []
  updatedAt := 0

/-- A venue and no bookings. -/
def sampleSlots : SlotWorld where
  db := ⟨Table.empty _, [], []⟩
  venue := ⟨⟨[sampleVenue], by decide, by simp⟩, Table.empty _, Table.empty _, []⟩

def sampleSlotEnv (newID : String) (request : Fault Err) : SlotEnv where
  now := 0
  newID := newID
  fault := .none
  getVenue := .ok (some sampleVenueResponse)
  checkSlot := .ok true
  reserveSlot := .ok ()
  releaseSlot := .ok ()
  createPayment := .ok ⟨"00000000-0000-0000-0000-0000000000c1", "https://pay.example"⟩
  publish := .ok ()
  request := request
  halls := .ok []
  slotID _ := "00000000-0000-0000-0000-0000000000d1"

def sampleSlot : ReservedSlot where
  id := "00000000-0000-0000-0000-0000000000d1"
  venueID := bookedInput.venueID
  bookingID := some sampleKey
  hallID := none
  date := 739769
  timeFrom := 64800000000
  timeTo := 72000000000
  blockNote := ""

def sampleStored : BookingDB := ⟨⟨[sampleDraft sampleKey], by decide, by simp⟩, [], [sampleKey]⟩

theorem bookedInput_slot : bookedInput.slot = .ok (⟨18, 0⟩, ⟨20, 0⟩, 120) := by
  rfl

theorem bookedInput_draft : bookedInput.draft sampleVenueResponse (⟨18, 0⟩, ⟨20, 0⟩, 120) = .ok (sampleDraft "") := by
  rfl

def sampleReserved : Table reservedSlotSchema := ⟨[sampleSlot], by decide, by simp⟩

def otherKey : String := "00000000-0000-0000-0000-00000000000f"

/-- The slot without its booking. -/
def leakedSlots : SlotWorld where
  db := ⟨Table.empty _, [], [sampleKey]⟩
  venue := { sampleSlots.venue with reserved := sampleReserved }

theorem sampleSlots_opening : sampleSlots.Opening := by
  refine ⟨fun j b hb => ?_, rfl⟩
  cases hb

/-- The run of a booking whose slot is reserved, and whose reservation the booking service takes to have failed. -/
theorem leaked_runs : ∃ a, (sampleCall.prog sampleBookings).Runs
    (SlotWorld.Exec sampleLocation sampleText) sampleSlots a leakedSlots := by
  have hnew : sampleKey ∉ sampleSlots.db.issued := by decide
  have hother : otherKey ∉ sampleStored.issued := by decide
  have hnow : ¬ sampleLocation.instant (⟨2025, 6, 2⟩ : Date) ⟨0, 0⟩ <
      sampleLocation.instant (sampleLocation.dateAt 0) ⟨0, 0⟩ := by decide
  refine ⟨some (some ((Err.status .unavailable "connection reset").wrap "reserve slot")), ?_⟩
  simp only [sampleCall, SlotCall.prog, BookCall.prog, BookingUseCase.createBooking, bookedInput_slot, Prog.bind_eq,
    Prog.perform_bind, Prog.bind_call]
  refine ⟨.ok (some sampleVenueResponse), sampleSlots, ⟨sampleSlotEnv sampleKey .none, hnew, rfl⟩, ?_⟩
  simp only [bookedInput_draft, Prog.bind_call]
  refine ⟨.ok true, sampleSlots, ⟨sampleSlotEnv sampleKey .none, hnew, rfl⟩, ?_⟩
  refine ⟨(0 : Time), sampleSlots, ⟨sampleSlotEnv sampleKey .none, hnew, rfl⟩, ?_⟩
  simp only [sampleBookings, sampleDraft, hnow, if_false, BookingUseCase.storeBooking, Prog.bind_eq, Prog.perform_bind,
    Prog.bind_call]
  refine ⟨.ok (sampleDraft sampleKey), ⟨sampleStored, sampleSlots.venue⟩, ⟨sampleSlotEnv sampleKey .none, hnew, rfl⟩, ?_⟩
  refine ⟨.error (.status .unavailable "connection reset"), ⟨sampleStored, leakedSlots.venue⟩,
    ⟨sampleSlotEnv otherKey (.after (.status .unavailable "connection reset")), hother, rfl⟩, ?_⟩
  refine ⟨.ok (), leakedSlots, ⟨sampleSlotEnv otherKey .none, hother, rfl⟩, ?_⟩
  exact ⟨rfl, rfl⟩


/-- **A slot outlives its booking**: the booking whose reservation is taken to have failed is deleted, its slot is not
released. -/
theorem slot_leak : ¬ ∀ (uc : BookingUseCase) (text : TextRules) (w₀ : SlotWorld) (tr : List SlotMoment) (c : SlotConfig),
    w₀.Opening → (slotSys uc text).Trace w₀ tr c → Quiescent c → c.world.NoLeak := by
  intro h
  obtain ⟨a, hruns⟩ := leaked_runs
  have hstart : (slotSys sampleBookings sampleText).Trace sampleSlots []
      ⟨sampleSlots, [] ++ [⟨sampleCall, [], sampleCall.prog sampleBookings⟩]⟩ := Sys.Trace.init.start _ trivial
  obtain ⟨tr, did, ht⟩ := Sys.Trace.runs (fun _ _ _ _ he => he) hruns hstart
  have hq : Quiescent (⟨leakedSlots, [] ++ [⟨sampleCall, did, .ret a⟩]⟩ : SlotConfig) := by
    intro t ht
    obtain rfl := List.mem_singleton.1 ht
    exact ⟨a, rfl⟩
  obtain ⟨b, hb, -⟩ := h _ _ _ _ _ sampleSlots_opening ht hq sampleSlot (List.mem_singleton.2 rfl) sampleKey rfl
  cases hb

/-! ## A run that loses no slot -/

/-- An operation that neither releases a slot nor cancels a booking, and that is no reservation that failed. -/
def quiet : Event BookOp BookOp.Res → Bool
  | ⟨.releaseSlot _ _, _⟩ | ⟨.cancelWithEvent _ _, _⟩ | ⟨.deleteOrphanPending _, _⟩ | ⟨.reserveSlot _, .error _⟩ => false
  | _ => true

theorem slotKept_of_quiet {m : SlotMoment} (hq : quiet m.event = true) (hcrash : m.thread.call.crash = none) : SlotKept m := by
  obtain ⟨before, t, o, r, after⟩ := m
  refine ⟨?_, ?_, ?_, ?_, ?_, ?_⟩
  · intro v i ho
    subst ho
    cases hq
  · intro req e he
    cases he
    cases hq
  · exact fun _ _ => .inr hcrash
  · intro id ev e he
    cases he
    cases hq
  · intro id ev he
    cases he
    cases hq
  · intro age id ho
    subst ho
    cases hq

/-- The booking with its payment and its slot. -/
def bookedSlots : SlotWorld where
  db := (BookingRepo.setPaymentAndStatus 0 sampleKey "00000000-0000-0000-0000-0000000000c1" "https://pay.example"
    .paymentPending (newBookingEvent .created { sampleDraft sampleKey with
      status := .paymentPending, paymentID := "00000000-0000-0000-0000-0000000000c1", paymentURL := "https://pay.example" })
    sampleStored).2
  venue := leakedSlots.venue

theorem booked_runs : ∃ a, (sampleCall.prog sampleBookings).Runs
    (fun o w r w' => SlotWorld.Exec sampleLocation sampleText o w r w' ∧ quiet ⟨o, r⟩ = true) sampleSlots a bookedSlots := by
  have hnew : sampleKey ∉ sampleSlots.db.issued := by decide
  have hother : otherKey ∉ sampleStored.issued := by decide
  have hnow : ¬ sampleLocation.instant (⟨2025, 6, 2⟩ : Date) ⟨0, 0⟩ <
      sampleLocation.instant (sampleLocation.dateAt 0) ⟨0, 0⟩ := by decide
  refine ⟨some none, ?_⟩
  simp only [sampleCall, SlotCall.prog, BookCall.prog, BookingUseCase.createBooking, bookedInput_slot, Prog.bind_eq,
    Prog.perform_bind, Prog.bind_call]
  refine ⟨.ok (some sampleVenueResponse), sampleSlots, ⟨⟨sampleSlotEnv sampleKey .none, hnew, rfl⟩, rfl⟩, ?_⟩
  simp only [bookedInput_draft, Prog.bind_call]
  refine ⟨.ok true, sampleSlots, ⟨⟨sampleSlotEnv sampleKey .none, hnew, rfl⟩, rfl⟩, ?_⟩
  refine ⟨(0 : Time), sampleSlots, ⟨⟨sampleSlotEnv sampleKey .none, hnew, rfl⟩, rfl⟩, ?_⟩
  simp only [sampleBookings, sampleDraft, hnow, if_false, BookingUseCase.storeBooking, Prog.bind_eq, Prog.perform_bind,
    Prog.bind_call]
  refine ⟨.ok (sampleDraft sampleKey), ⟨sampleStored, sampleSlots.venue⟩,
    ⟨⟨sampleSlotEnv sampleKey .none, hnew, rfl⟩, rfl⟩, ?_⟩
  refine ⟨.ok (), ⟨sampleStored, leakedSlots.venue⟩, ⟨⟨sampleSlotEnv otherKey .none, hother, rfl⟩, rfl⟩, ?_⟩
  refine ⟨.ok ⟨"00000000-0000-0000-0000-0000000000c1", "https://pay.example"⟩, ⟨sampleStored, leakedSlots.venue⟩,
    ⟨⟨sampleSlotEnv otherKey .none, hother, rfl⟩, rfl⟩, ?_⟩
  refine ⟨.ok (), bookedSlots, ⟨⟨sampleSlotEnv otherKey .none, hother, rfl⟩, rfl⟩, ?_⟩
  exact ⟨rfl, rfl⟩

theorem no_slot_leak_sample : ∃ (tr : List SlotMoment) (c : SlotConfig),
    (slotSys sampleBookings sampleText).Trace sampleSlots tr c ∧ c.world = bookedSlots ∧ c.world.NoLeak := by
  obtain ⟨a, hruns⟩ := booked_runs
  have hstart : (slotSys sampleBookings sampleText).Trace sampleSlots []
      ⟨sampleSlots, [] ++ [⟨sampleCall, [], sampleCall.prog sampleBookings⟩]⟩ := Sys.Trace.init.start _ trivial
  obtain ⟨tr, did, ht, hkept⟩ := Sys.Trace.runs_all (P := SlotKept)
    (fun o w r w' he => ⟨he.1, fun ts t ht => slotKept_of_quiet he.2 (ht ▸ rfl)⟩) hruns hstart
  refine ⟨tr, _, ht, rfl, no_slot_leak sampleSlots_opening ht hkept fun t ht => ?_⟩
  obtain rfl := List.mem_singleton.1 ht
  exact ⟨a, rfl⟩

end Agregator
