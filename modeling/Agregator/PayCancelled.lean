import Agregator.PayRefund
import Agregator.ConcTrace
/-!
# PayCancelled — what becomes of a `booking.cancelled` message

The subscriber of the payment service and the broker that delivers one message to it: until it is acknowledged or
terminated, at most `maxDeliver` times.  A delivery is a call of a pool, so it can stop anywhere, and two of them can
overlap.  A terminated message goes to the DLQ stream after its `Term`, and whether that worked is not looked at: what is
kept of a refund request is `refundRequest_kept`.
-/
namespace Agregator

open Conc

def maxDeliver : ℕ := 10

/-- A message as it is delivered; `Metadata` finds the number of the delivery in the reply subject, if it has one. -/
structure CancelMsg where
  subject : String
  data : RawBody
  numDelivered : Option ℕ
deriving DecidableEq

structure BookingCancelledEvent where
  bookingID : String
  userID : String
  venueID : String
  status : String
deriving DecidableEq, Repr

structure DLQPayload where
  bookingID : String
  originalSubject : String
  reason : String
deriving DecidableEq, Repr

def dlqSubjectBookingCancelled : String := "dlq.payment.booking-cancelled"

/-! ## The calls -/

inductive CancelOp where
  | receive
  | refundByBooking (bookingID : String)
  | ack
  | nak
  | term
  | publish (subject : String) (payload : DLQPayload)
deriving DecidableEq

namespace CancelOp

@[reducible] def Res : CancelOp → Type
  | receive => Option CancelMsg
  | refundByBooking _ => Option Err
  | ack | nak | term | publish _ _ => Except Err Unit

end CancelOp

abbrev CancelProg := Prog CancelOp CancelOp.Res

abbrev CancelOp.call (o : CancelOp) : CancelProg o.Res := Prog.perform o

open CancelOp (call)

/-- `json.Unmarshal`, which fills what it can also when it fails. -/
abbrev Unmarshal := RawBody → BookingCancelledEvent × Option Err

def isPermanent (err : Err) : Bool :=
  match err.code with
  | .invalidArgument | .notFound | .alreadyExists | .permissionDenied => true
  | _ => false

/-- The errors are logged. -/
def termToDLQ (msg : CancelMsg) (bookingID reason : String) : CancelProg Unit := do
  let _ ← call .term
  let _ ← call (.publish dlqSubjectBookingCancelled ⟨bookingID, msg.subject, reason⟩)
  return ()

def handleBookingCancelled (unmarshal : Unmarshal) (msg : CancelMsg) : CancelProg Unit := do
  match msg.numDelivered with
  | none =>
    let _ ← call .nak
    return ()
  | some numDelivered =>
    match unmarshal msg.data with
    | (evt, some err) => termToDLQ msg evt.bookingID ("unmarshal error: " ++ err.text)
    | (evt, none) =>
      if evt.bookingID = "" then
        let _ ← call .ack
        return ()
      else
        match ← call (.refundByBooking evt.bookingID) with
        | some err =>
          if isPermanent err then termToDLQ msg evt.bookingID err.text
          else if maxDeliver ≤ numDelivered then termToDLQ msg evt.bookingID err.text
          else
            let _ ← call .nak
            return ()
        | none =>
          let _ ← call .ack
          return ()

/-- One delivery, if the broker has one. -/
def deliverCancelled (unmarshal : Unmarshal) : CancelProg Unit := do
  match ← call .receive with
  | none => return ()
  | some msg => handleBookingCancelled unmarshal msg

/-! ## The broker -/

inductive Settled where
  | acked
  | termed
deriving DecidableEq, Repr

/-- One message of the stream, the DLQ stream and the payment service. -/
structure CancelWorld where
  delivered : ℕ
  settled : Option Settled
  dlq : List DLQPayload
  pay : PayWorld

namespace CancelWorld

variable (w : CancelWorld)

/-- The broker will not deliver the message any more. -/
def stopped : Bool := w.settled.isSome || decide (maxDeliver ≤ w.delivered)

/-- The first of `Ack` and `Term` counts. -/
def settle (s : Settled) : CancelWorld := { w with settled := some (w.settled.getD s) }

end CancelWorld

namespace CancelOp

/-- A request to the broker under a fault. -/
def request (effect : CancelWorld → CancelWorld) (w : CancelWorld) (r : Except Err Unit) (w' : CancelWorld) : Prop :=
  ∃ fault : Fault String, fault.apply Err.plain (fun w => (.ok (), effect w)) w = (r, w')

/-- `RefundByBooking` is one run of the call, whatever fails in it. -/
def Exec (subject : String) (data : RawBody) : (o : CancelOp) → CancelWorld → o.Res → CancelWorld → Prop
  | receive, w, r, w' =>
    if w.stopped then r = none ∧ w' = w
    else r = some ⟨subject, data, some (w.delivered + 1)⟩ ∧ w' = { w with delivered := w.delivered + 1 }
  | refundByBooking bookingID, w, r, w' => ∃ pay, (Agregator.refundByBooking bookingID).Runs (PayOp.Exec anyEnv) w.pay r pay ∧
      w' = { w with pay := pay }
  | ack, w, r, w' => request (·.settle .acked) w r w'
  | term, w, r, w' => request (·.settle .termed) w r w'
  | nak, w, r, w' => request (fun w => w) w r w'
  | publish _ payload, w, r, w' => request (fun w => { w with dlq := w.dlq ++ [payload] }) w r w'

end CancelOp

/-- The deliveries of one message, among whatever else happens to the payments. -/
def cancelSys (unmarshal : Unmarshal) (subject : String) (data : RawBody) :
    Sys CancelWorld Unit CancelOp CancelOp.Res Unit where
  prog _ := deliverCancelled unmarshal
  ready _ _ := True
  exec := CancelOp.Exec subject data
  env w w' := ∃ pay, w' = { w with pay := pay }

/-! ## What a delivery does -/

abbrev CancelEvent := Event CancelOp CancelOp.Res

abbrev CancelConfig := Config CancelWorld Unit CancelOp CancelOp.Res Unit

/-- A copy that names the booking is in the DLQ stream. -/
def CancelWorld.Parked (w : CancelWorld) (bookingID : String) : Prop := ∃ p ∈ w.dlq, p.bookingID = bookingID

/-- A delivery has refunded the booking, or it is parked, or the delivery tried to park it and was told of an error. -/
def Concluded (bookingID : String) (did : List CancelEvent) (w : CancelWorld) : Prop :=
  ⟨.refundByBooking bookingID, none⟩ ∈ did ∨ w.Parked bookingID ∨ ∃ s p e, ⟨.publish s p, .error e⟩ ∈ did

section Delivery

variable {unmarshal : Unmarshal} {subject : String} {data : RawBody} {evt : BookingCancelledEvent}

/-- The DLQ stream only grows. -/
def CancelWorld.grows (w w' : CancelWorld) : Prop := ∀ p ∈ w.dlq, p ∈ w'.dlq

theorem CancelWorld.settle_grows (s : Settled) (w : CancelWorld) : w.grows (w.settle s) := fun _ hp => hp

theorem CancelOp.request_cases {effect : CancelWorld → CancelWorld} {w w' : CancelWorld} {r : Except Err Unit}
    (h : CancelOp.request effect w r w') : (w' = w ∨ w' = effect w) ∧ (r = .ok () → w' = effect w) := by
  obtain ⟨fault, hf⟩ := h
  refine ⟨?_, fun hr => ?_⟩
  · have hw : w' = (fault.apply Err.plain (fun w => (.ok (), effect w)) w).2 := by rw [hf]
    rw [hw]
    exact fault.apply_state _ _ _
  · rw [hr] at hf
    exact (congrArg Prod.snd (Fault.of_ok hf)).symm

theorem CancelOp.Exec.grows {o : CancelOp} {w w' : CancelWorld} {r : o.Res} (h : CancelOp.Exec subject data o w r w') :
    w.grows w' := by
  have hreq : ∀ {effect : CancelWorld → CancelWorld} {r : Except Err Unit}, (∀ w : CancelWorld, w.grows (effect w)) →
      CancelOp.request effect w r w' → w.grows w' := by
    intro effect r he h
    rcases (request_cases h).1 with rfl | rfl
    · exact fun p hp => hp
    · exact he w
  cases o with
  | receive =>
    simp only [CancelOp.Exec] at h
    split at h
    · rw [h.2]
      exact fun p hp => hp
    · rw [h.2]
      exact fun p hp => hp
  | refundByBooking =>
    obtain ⟨pay, -, rfl⟩ := h
    exact fun p hp => hp
  | ack => exact hreq (CancelWorld.settle_grows .acked) h
  | term => exact hreq (CancelWorld.settle_grows .termed) h
  | nak => exact hreq (fun w p hp => hp) h
  | publish s payload => exact hreq (fun w p hp => List.mem_append_left _ hp) h

/-- What is known of a delivery that has come to its end: it has concluded if it sent a `Term`, or was the last one. -/
def Finished (subject : String) (data : RawBody) (bookingID : String) (did : List CancelEvent) (w : CancelWorld) : Prop :=
  (∀ r, ⟨.term, r⟩ ∈ did → Concluded bookingID did w) ∧
    (⟨.receive, some ⟨subject, data, some maxDeliver⟩⟩ ∈ did → Concluded bookingID did w)

theorem Concluded.finished {did : List CancelEvent} {w : CancelWorld} {b : String} (h : Concluded b did w) :
    Finished subject data b did w := ⟨fun _ _ => h, fun _ => h⟩

theorem Concluded.grows {did : List CancelEvent} {w w' : CancelWorld} {b : String} (h : Concluded b did w) (hg : w.grows w') :
    Concluded b did w' := by
  rcases h with h | ⟨p, hp, hb⟩ | h
  · exact .inl h
  · exact .inr (.inl ⟨p, hg p hp, hb⟩)
  · exact .inr (.inr h)

/-- The programs of a delivery keep the DLQ stream, and come to a known end. -/
abbrev CancelSafe (subject : String) (data : RawBody) (bookingID : String) (did : List CancelEvent) (p : CancelProg Unit)
    (w : CancelWorld) : Prop :=
  p.Safe (CancelOp.Exec subject data) (fun _ _ _ => True) (fun _ => True) CancelWorld.grows
    (fun h _ w => Finished subject data bookingID h w) did w

theorem termToDLQ_safe (msg : CancelMsg) (b reason : String) (did : List CancelEvent) (w : CancelWorld) :
    CancelSafe subject data b did (termToDLQ msg b reason) w := by
  intro w₁ _ _ r₁ w₂ he₁ _
  refine ⟨trivial, he₁.grows, ?_⟩
  intro w₃ _ _ r₂ w₄ he₂ _
  refine ⟨trivial, he₂.grows, ?_⟩
  intro w₅ hg _
  refine Concluded.finished ?_
  cases r₂ with
  | ok _ =>
    have hw := (CancelOp.request_cases he₂).2 rfl
    refine .inr (.inl ⟨⟨b, msg.subject, reason⟩, hg _ ?_, rfl⟩)
    rw [hw]
    exact List.mem_append_right _ (List.mem_singleton.2 rfl)
  | error e =>
    exact .inr (.inr ⟨dlqSubjectBookingCancelled, ⟨b, msg.subject, reason⟩, e, List.mem_append_right _ (by simp)⟩)

/-- A message that names a booking is a refund. -/
theorem handleBookingCancelled_eq {msg : CancelMsg} {n : ℕ} (hn : msg.numDelivered = some n)
    (hevt : unmarshal msg.data = (evt, none)) (hid : evt.bookingID ≠ "") :
    handleBookingCancelled unmarshal msg = .call (.refundByBooking evt.bookingID) fun
      | some err =>
        if isPermanent err then termToDLQ msg evt.bookingID err.text
        else if maxDeliver ≤ n then termToDLQ msg evt.bookingID err.text
        else .call .nak fun _ => .ret ()
      | none => .call .ack fun _ => .ret () := by
  simp only [handleBookingCancelled, hn, hevt, if_neg hid, Prog.bind_eq, Prog.perform_bind]
  rfl

theorem deliverCancelled_safe (hevt : unmarshal data = (evt, none)) (hid : evt.bookingID ≠ "") (w : CancelWorld) :
    CancelSafe subject data evt.bookingID [] (deliverCancelled unmarshal) w := by
  intro w₁ _ _ r w₂ he _
  refine ⟨trivial, he.grows, ?_⟩
  simp only [CancelOp.Exec] at he
  split at he
  · obtain ⟨rfl, -⟩ := he
    exact fun w' _ _ => ⟨fun r hr => by simp at hr, fun hr => by simp at hr⟩
  · obtain ⟨rfl, -⟩ := he
    show CancelSafe subject data evt.bookingID _
      (handleBookingCancelled unmarshal ⟨subject, data, some (w₁.delivered + 1)⟩) _
    rw [handleBookingCancelled_eq rfl hevt hid]
    intro w₃ _ _ r w₄ he _
    refine ⟨trivial, he.grows, ?_⟩
    cases r with
    | none =>
      intro w₅ _ _ r w₆ he _
      refine ⟨trivial, he.grows, fun w₇ _ _ => Concluded.finished (.inl (by simp))⟩
    | some err =>
      dsimp only
      split
      · exact termToDLQ_safe _ _ _ _ _
      · split
        · exact termToDLQ_safe _ _ _ _ _
        · -- it is sent back, and there is a delivery left
          rename_i hn
          intro w₅ _ _ r w₆ he _
          refine ⟨trivial, he.grows, fun w₇ _ _ => ⟨fun r hr => by simp at hr, fun hr => ?_⟩⟩
          simp at hr
          omega

/-- What a delivery has done when it acknowledges. -/
def CancelPreceded (data : RawBody) (bookingID : String) (did : List CancelEvent) : CancelOp → Prop
  | .ack => (∀ msg, ⟨.receive, some msg⟩ ∈ did → msg.data = data) → ⟨.refundByBooking bookingID, none⟩ ∈ did
  | _ => True

theorem deliverCancelled_after (hevt : unmarshal data = (evt, none)) (hid : evt.bookingID ≠ "") :
    (deliverCancelled unmarshal).After (CancelPreceded data evt.bookingID) [] := by
  refine ⟨trivial, fun r => ?_⟩
  have hterm : ∀ msg b reason h, (termToDLQ msg b reason).After (CancelPreceded data evt.bookingID) h :=
    fun _ _ _ _ => ⟨trivial, fun _ => ⟨trivial, fun _ => trivial⟩⟩
  cases r with
  | none => trivial
  | some msg =>
    by_cases hmsg : msg.data = data
    · show (handleBookingCancelled unmarshal msg).After _ _
      cases hn : msg.numDelivered with
      | none =>
        simp only [handleBookingCancelled, hn, Prog.bind_eq, Prog.perform_bind]
        exact ⟨trivial, fun _ => trivial⟩
      | some n =>
        rw [handleBookingCancelled_eq hn (hmsg ▸ hevt) hid]
        refine ⟨trivial, fun r => ?_⟩
        cases r with
        | none => exact ⟨fun _ => by simp, fun _ => trivial⟩
        | some err =>
          dsimp only
          split
          · exact hterm _ _ _ _
          · split
            · exact hterm _ _ _ _
            · exact ⟨trivial, fun _ => trivial⟩
    · -- not a delivery of this message
      refine Prog.After.of_event (e := ⟨.receive, some msg⟩) (fun h hm o => ?_) (by simp)
      cases o with
      | ack => exact fun hall => absurd (hall msg hm) hmsg
      | _ => trivial

/-! ## What is kept of a refund request -/

/-- Some delivery has refunded the booking, or a copy of its request is in the DLQ stream. -/
def RequestKept (bookingID : String) (c : CancelConfig) : Prop :=
  (∃ t ∈ c.threads, ⟨.refundByBooking bookingID, none⟩ ∈ t.did) ∨ c.world.Parked bookingID

/-- A delivery after which the message is not delivered any more: it sent a `Term`, or it was the last one. -/
def LastDelivery (subject : String) (data : RawBody) (w : CancelWorld) (t : Thread Unit CancelOp CancelOp.Res Unit) : Prop :=
  if w.settled = some .termed then ∃ r, ⟨.term, r⟩ ∈ t.did
  else ⟨.receive, some ⟨subject, data, some maxDeliver⟩⟩ ∈ t.did

/-- A delivery was cut off, or was told that its message to the DLQ stream failed. -/
def GaveUp (t : Thread Unit CancelOp CancelOp.Res Unit) : Prop :=
  (∀ a, t.rest ≠ .ret a) ∨ ∃ s p e, ⟨.publish s p, .error e⟩ ∈ t.did

variable {w₀ : CancelWorld} {c : CancelConfig}

theorem settled_by {s : Settled} {o : CancelOp} {w w' : CancelWorld} {r : o.Res} (h : CancelOp.Exec subject data o w r w')
    (hs : w'.settled = some s) : w.settled = some s ∨ o = (match s with | .acked => .ack | .termed => .term) := by
  have hsettle : ∀ (s' : Settled), (w' = w ∨ w' = w.settle s') → w.settled = some s ∨ s = s' := by
    rintro s' (rfl | rfl)
    · exact .inl hs
    · cases hw : w.settled with
      | none =>
        simp only [CancelWorld.settle, hw] at hs
        exact .inr (Option.some.inj hs).symm
      | some s'' =>
        simp only [CancelWorld.settle, hw] at hs
        exact .inl hs
  cases o with
  | receive =>
    simp only [CancelOp.Exec] at h
    split at h <;> (rw [h.2] at hs; exact .inl hs)
  | refundByBooking =>
    obtain ⟨pay, -, rfl⟩ := h
    exact .inl hs
  | ack => exact (hsettle .acked (CancelOp.request_cases h).1).imp_right (by rintro rfl; rfl)
  | term => exact (hsettle .termed (CancelOp.request_cases h).1).imp_right (by rintro rfl; rfl)
  | nak =>
    rcases (CancelOp.request_cases h).1 with rfl | rfl <;> exact .inl hs
  | publish =>
    rcases (CancelOp.request_cases h).1 with rfl | rfl <;> exact .inl hs

theorem delivered_by {o : CancelOp} {w w' : CancelWorld} {r : o.Res} (h : CancelOp.Exec subject data o w r w')
    (hd : maxDeliver ≤ w'.delivered) : maxDeliver ≤ w.delivered ∨
      (⟨o, r⟩ : CancelEvent) = ⟨.receive, some ⟨subject, data, some maxDeliver⟩⟩ := by
  cases o with
  | receive =>
    simp only [CancelOp.Exec] at h
    split at h
    · rw [h.2] at hd
      exact .inl hd
    · obtain ⟨rfl, rfl⟩ := h
      by_cases hw : maxDeliver ≤ w.delivered
      · exact .inl hw
      · have : w.delivered + 1 = maxDeliver := by
          simp only at hd
          omega
        exact .inr (by rw [this])
  | refundByBooking =>
    obtain ⟨pay, -, rfl⟩ := h
    exact .inl hd
  | ack | term | nak | publish =>
    rcases (CancelOp.request_cases h).1 with rfl | rfl <;> exact .inl hd

/-- A message that was acknowledged had its booking refunded. -/
theorem acked_refunded (hevt : unmarshal data = (evt, none)) (hid : evt.bookingID ≠ "") (h0 : w₀.settled = none)
    (h : (cancelSys unmarshal subject data).Reach anyStep w₀ c) (hs : c.world.settled = some .acked) :
    ∃ t ∈ c.threads, ⟨.refundByBooking evt.bookingID, none⟩ ∈ t.did := by
  obtain ⟨t, ht, e, he, hack⟩ := h.author (F := fun w => w.settled = some .acked) (E := fun e => e.1 = .ack)
    (by simp [h0]) (fun o w r w' hx hw => settled_by hx hw) (by rintro w _ ⟨pay, rfl⟩ hw; exact hw) hs
  -- what it had received is this message
  have hdata : ∀ e ∈ t.did, ∀ msg, e = ⟨.receive, some msg⟩ → msg.data = data := by
    refine h.events (E := fun e => ∀ msg, e = ⟨.receive, some msg⟩ → msg.data = data) ?_ t ht
    rintro o w r w' hx msg hm
    cases hm
    simp only [cancelSys, CancelOp.Exec] at hx
    split at hx
    · exact absurd hx.1 (by simp)
    · cases hx.1
      rfl
  obtain ⟨⟨o, r⟩, rfl⟩ : ∃ e' : CancelEvent, e' = e := ⟨e, rfl⟩
  cases hack
  obtain ⟨h₁, h₂, hd⟩ := List.append_of_mem he
  have hbefore := ((h.after fun _ => deliverCancelled_after hevt hid) t ht).2 h₁ _ h₂ hd
  have hin : ∀ e ∈ h₁, e ∈ t.did := fun e he => by rw [hd]; exact List.mem_append_left _ he
  exact ⟨t, ht, hin _ (hbefore fun msg hm => hdata _ (hin _ hm) msg rfl)⟩

/-- A delivery that ends the message and comes to its own end has concluded. -/
theorem lastDelivery_concluded (hevt : unmarshal data = (evt, none)) (hid : evt.bookingID ≠ "")
    (h : (cancelSys unmarshal subject data).Reach anyStep w₀ c) {t : Thread Unit CancelOp CancelOp.Res Unit}
    (ht : t ∈ c.threads) (hlast : LastDelivery subject data c.world t) {a : Unit} (ha : t.rest = .ret a) :
    Concluded evt.bookingID t.did c.world := by
  obtain ⟨-, -, hsafe⟩ := h.safe (fun _ _ _ _ => True) (fun _ _ _ _ _ => trivial) (I := fun _ => True)
    (R := CancelWorld.grows) (Q := fun _ h _ w => Finished subject data evt.bookingID h w) (fun _ _ hp => hp)
    (fun _ _ _ h1 h2 p hp => h2 p (h1 p hp)) trivial (fun _ w _ _ _ => deliverCancelled_safe hevt hid w)
    (by rintro w _ - ⟨pay, rfl⟩; exact ⟨trivial, fun _ hp => hp⟩)
  have hfin := hsafe t ht
  rw [ha] at hfin
  have hfin := hfin c.world (fun _ hp => hp) trivial
  unfold LastDelivery at hlast
  split at hlast
  · obtain ⟨r, hr⟩ := hlast
    exact hfin.1 r hr
  · exact hfin.2 hlast

/-- **A refund request is kept, unless every delivery that ended it gave up**: was cut off before its end, or had its
message to the DLQ stream fail. -/
theorem refundRequest_kept (hevt : unmarshal data = (evt, none)) (hid : evt.bookingID ≠ "") (hd : w₀.delivered = 0)
    (hs : w₀.settled = none) (h : (cancelSys unmarshal subject data).Reach anyStep w₀ c) (hstop : c.world.stopped = true) :
    RequestKept evt.bookingID c ∨ ((∃ t ∈ c.threads, LastDelivery subject data c.world t) ∧
      ∀ t ∈ c.threads, LastDelivery subject data c.world t → GaveUp t) := by
  by_cases hkept : RequestKept evt.bookingID c
  · exact .inl hkept
  refine .inr ⟨?_, fun t ht hlast => ?_⟩
  · unfold LastDelivery
    cases hset : c.world.settled with
    | none =>
      have hmax : maxDeliver ≤ c.world.delivered := by simpa [CancelWorld.stopped, hset] using hstop
      obtain ⟨t, ht, e, he, rfl⟩ := h.author (F := fun w => maxDeliver ≤ w.delivered)
        (E := fun e : CancelEvent => e = ⟨.receive, some ⟨subject, data, some maxDeliver⟩⟩) (by simp [hd, maxDeliver])
        (fun o w r w' hx hw => delivered_by hx hw) (by rintro w _ ⟨pay, rfl⟩ hw; exact hw) hmax
      exact ⟨t, ht, by simpa using he⟩
    | some s =>
      cases s with
      | acked => exact absurd (.inl (acked_refunded hevt hid hs h hset)) hkept
      | termed =>
        obtain ⟨t, ht, ⟨o, r⟩, he, rfl⟩ := h.author (F := fun w => w.settled = some .termed) (E := fun e => e.1 = .term)
          (by simp [hs]) (fun o w r w' hx hw => settled_by hx hw) (by rintro w _ ⟨pay, rfl⟩ hw; exact hw) hset
        exact ⟨t, ht, by simpa using ⟨r, he⟩⟩
  · by_cases hend : ∃ a, t.rest = .ret a
    · obtain ⟨a, ha⟩ := hend
      rcases lastDelivery_concluded hevt hid h ht hlast ha with hr | hp | hpub
      · exact absurd (.inl ⟨t, ht, hr⟩) hkept
      · exact absurd (.inr hp) hkept
      · exact .inr hpub
    · exact .inl fun a ha => hend ⟨a, ha⟩

end Delivery

/-! ## A request that is lost -/

def sampleCancelled : BookingCancelledEvent where
  bookingID := (samplePayment .succeeded).bookingID
  userID := ""
  venueID := ""
  status := "cancelled"

def sampleCancelledBody : RawBody :=
  "\x7b\"booking_id\":\"00000000-0000-0000-0000-000000000002\",\"status\":\"cancelled\"\x7d".toUTF8.toList

def sampleUnmarshal : Unmarshal := fun _ => (sampleCancelled, none)

def sampleCancelWorld : CancelWorld := ⟨0, none, [], sampleWorld .succeeded⟩

/-- The provider refuses the refund. -/
def refusingEnv : PayEnv := { calm 0 (fun _ => .error (.plain "")) with refund := .before (.status .invalidArgument "order is closed") }

/-- The error of the provider as `RefundByBooking` returns it. -/
def refusal : Err :=
  (Err.status .invalidArgument "order is closed").wrap ("refund booking " ++ (samplePayment .succeeded).bookingID)

theorem refund_refused : (refundByBooking (samplePayment .succeeded).bookingID).Runs (PayOp.Exec anyEnv)
    (sampleWorld .succeeded) (some refusal) (sampleWorld .succeeded) :=
  ⟨.ok (samplePayment .succeeded), _, ⟨refusingEnv, trivial, rfl⟩, .error _, _, ⟨refusingEnv, trivial, rfl⟩, rfl, rfl⟩

/-- The refund is refused for good, the message is terminated, and the DLQ stream is out of reach. -/
def lostHistory : List CancelEvent :=
  [⟨.receive, some ⟨"booking.cancelled", sampleCancelledBody, some 1⟩⟩,
    ⟨.refundByBooking sampleCancelled.bookingID, some refusal⟩, ⟨.term, .ok ()⟩,
    ⟨.publish dlqSubjectBookingCancelled ⟨sampleCancelled.bookingID, "booking.cancelled", refusal.text⟩,
      .error (.plain "nats: timeout")⟩]

def lostConfig : CancelConfig :=
  ⟨⟨1, some .termed, [], sampleWorld .succeeded⟩, [⟨(), lostHistory, .ret ()⟩]⟩

theorem lostConfig_reach :
    (cancelSys sampleUnmarshal "booking.cancelled" sampleCancelledBody).Reach anyStep sampleCancelWorld lostConfig := by
  have hreceive : CancelOp.Exec "booking.cancelled" sampleCancelledBody .receive sampleCancelWorld
      (some ⟨"booking.cancelled", sampleCancelledBody, some 1⟩) ⟨1, none, [], sampleWorld .succeeded⟩ := ⟨rfl, rfl⟩
  have hrefund : CancelOp.Exec "booking.cancelled" sampleCancelledBody (.refundByBooking sampleCancelled.bookingID)
      ⟨1, none, [], sampleWorld .succeeded⟩ (some refusal) ⟨1, none, [], sampleWorld .succeeded⟩ :=
    ⟨_, refund_refused, rfl⟩
  have hterm : CancelOp.Exec "booking.cancelled" sampleCancelledBody .term ⟨1, none, [], sampleWorld .succeeded⟩
      (.ok ()) ⟨1, some .termed, [], sampleWorld .succeeded⟩ := ⟨.none, rfl⟩
  have hpublish : CancelOp.Exec "booking.cancelled" sampleCancelledBody
      (.publish dlqSubjectBookingCancelled ⟨sampleCancelled.bookingID, "booking.cancelled", refusal.text⟩)
      ⟨1, some .termed, [], sampleWorld .succeeded⟩ (.error (.plain "nats: timeout"))
      ⟨1, some .termed, [], sampleWorld .succeeded⟩ := ⟨.before "nats: timeout", rfl⟩
  have h0 : (cancelSys sampleUnmarshal "booking.cancelled" sampleCancelledBody).Reach anyStep sampleCancelWorld
      ⟨sampleCancelWorld, []⟩ := .init
  have h1 := h0.step (.start sampleCancelWorld [] () trivial)
  have h1 := h1.step (.perform _ _ [] [] () _ _ _ _ hreceive trivial)
  have h2 := h1.step (.perform _ _ [] [] () _ _ _ _ hrefund trivial)
  have h3 := h2.step (.perform _ _ [] [] () _ _ _ _ hterm trivial)
  exact h3.step (.perform _ _ [] [] () _ _ _ _ hpublish trivial)

theorem refundRequest_kept_lost : RequestKept sampleCancelled.bookingID lostConfig ∨
    ((∃ t ∈ lostConfig.threads, LastDelivery "booking.cancelled" sampleCancelledBody lostConfig.world t) ∧
      ∀ t ∈ lostConfig.threads, LastDelivery "booking.cancelled" sampleCancelledBody lostConfig.world t → GaveUp t) :=
  refundRequest_kept rfl (by decide) rfl rfl lostConfig_reach rfl

/-- Not even when every delivery has come to its end. -/
theorem refundRequest_not_always_kept : ¬ ∀ (unmarshal : Unmarshal) (subject : String) (data : RawBody)
    (evt : BookingCancelledEvent) (w₀ : CancelWorld) (c : CancelConfig), unmarshal data = (evt, none) →
    evt.bookingID ≠ "" → w₀.delivered = 0 → w₀.settled = none →
    (cancelSys unmarshal subject data).Reach anyStep w₀ c → c.world.stopped = true →
    (∀ t ∈ c.threads, t.rest = .ret ()) → RequestKept evt.bookingID c := by
  intro h
  have hkept := h sampleUnmarshal "booking.cancelled" sampleCancelledBody sampleCancelled sampleCancelWorld lostConfig rfl
    (by decide) rfl rfl lostConfig_reach rfl (by simp [lostConfig])
  rcases hkept with ⟨t, ht, hr⟩ | ⟨p, hp, -⟩
  · rw [List.mem_singleton.1 ht] at hr
    simp [lostHistory] at hr
  · cases hp

end Agregator
