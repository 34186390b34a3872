import Agregator.RelJoin
import Agregator.VenueStore
/-!
# VenueCheck — whether a slot is free, asked three times

`CheckSlot` counts the rows in the way, `BatchCheckSlots` joins them to many intervals at once, and `ReserveSlot` leaves it to the
exclusion constraint.  The two queries say the same on every store; the constraint says it too where rows take some time and no
row holds a resource of another venue (`check_reserve_agree`), which reservations of some length keep.
-/
namespace Agregator

open Rel

namespace VenueRepo

/-! ## The queries -/

def reservationKeys (venueID : String) (hallIDs : List String) : List String := if hallIDs = [] then [venueID] else hallIDs

def checkSlot (text : TextRules) (venueID : String) (hallIDs : List String) (date timeFrom timeTo : String) (db : VenueDB) :
    Except VenueErr Bool :=
  match interval text date timeFrom timeTo with
  | .error e => .error (storeErr "check slot" e)
  | .ok (d, tf, tt) =>
    let count := (db.reserved.select fun s => s.venueID == venueID && s.date == d &&
      (reservationKeys venueID hallIDs).contains s.key && decide (s.timeFrom < tt) && decide (tf < s.timeTo)).length
    .ok (count == 0)

/-- `unnest($3::int[], $4::time[], $5::time[])`. -/
def unnestSlots (text : TextRules) (slots : List (String × String)) : Except String (List (ℕ × PgTime × PgTime)) :=
  slots.zipIdx.mapM fun ((timeFrom, timeTo), ord) =>
    match text.time timeFrom, text.time timeTo with
    | some tf, some tt => .ok (ord, tf, tt)
    | none, _ => .error ("ERROR: invalid input syntax for type time: \"" ++ timeFrom ++ "\" (SQLSTATE 22007)")
    | _, none => .error ("ERROR: invalid input syntax for type time: \"" ++ timeTo ++ "\" (SQLSTATE 22007)")

/-- The condition of the join. -/
def batchOn (venueID : String) (hallIDs : List String) (d : PgDate) (s : ℕ × PgTime × PgTime) (rs : ReservedSlot) : Bool :=
  rs.venueID == venueID && rs.date == d && (reservationKeys venueID hallIDs).contains rs.key &&
    decide (rs.timeFrom < s.2.2) && decide (s.2.1 < rs.timeTo)

/-- The rows of the query: one that the join has without a partner is not counted. -/
def batchRows (venueID : String) (hallIDs : List String) (d : PgDate) (ivs : List (ℕ × PgTime × PgTime)) (db : VenueDB) :
    List (ℕ × Bool) :=
  (groupBy (·.1.1) (leftJoin (batchOn venueID hallIDs d) ivs db.reserved.rows)).map fun (ord, g) =>
    (ord, (g.filter (·.2.isSome)).length == 0)

def batchCheckSlots (text : TextRules) (venueID : String) (hallIDs : List String) (date : String) (slots : List (String × String))
    (db : VenueDB) : Except VenueErr (List Bool) :=
  if slots = [] then .ok []
  else
    match text.date date, unnestSlots text slots with
    | none, _ => .error (storeErr "batch check slots" ("ERROR: invalid input syntax for type date: \"" ++ date ++ "\" (SQLSTATE 22007)"))
    | some _, .error e => .error (storeErr "batch check slots" e)
    | some d, .ok ivs => .ok (scatter (List.replicate slots.length false) (batchRows venueID hallIDs d ivs db))

/-! ## The batch -/

section Batch

variable {text : TextRules} {venueID : String} {hallIDs : List String} {d : PgDate} {db : VenueDB}

/-- What both queries ask of an interval. -/
def slotFree (venueID : String) (hallIDs : List String) (d : PgDate) (db : VenueDB) (tf tt : PgTime) : Bool :=
  decide (∀ s ∈ db.reserved.rows, batchOn venueID hallIDs d (0, tf, tt) s = false)

theorem interval_ok {date timeFrom timeTo : String} {tf tt : PgTime} (hd : text.date date = some d)
    (hf : text.time timeFrom = some tf) (ht : text.time timeTo = some tt) :
    interval text date timeFrom timeTo = .ok (d, tf, tt) := by
  unfold interval
  rw [hd, hf, ht]

theorem of_interval {date timeFrom timeTo : String} {tf tt : PgTime} (h : interval text date timeFrom timeTo = .ok (d, tf, tt)) :
    text.date date = some d ∧ text.time timeFrom = some tf ∧ text.time timeTo = some tt := by
  unfold interval at h
  split at h
  · rename_i hd hf ht
    cases h
    exact ⟨hd, hf, ht⟩
  · cases h
  · cases h
  · cases h

/-- **The count of one interval**. -/
theorem checkSlot_eq {date timeFrom timeTo : String} {tf tt : PgTime} (h : interval text date timeFrom timeTo = .ok (d, tf, tt)) :
    checkSlot text venueID hallIDs date timeFrom timeTo db = .ok (slotFree venueID hallIDs d db tf tt) := by
  unfold checkSlot
  rw [h]
  dsimp only
  congr 1
  unfold slotFree
  rw [Bool.eq_iff_iff, beq_iff_eq, decide_eq_true_iff, List.length_eq_zero_iff, Table.select, List.filter_eq_nil_iff]
  refine forall₂_congr fun s _ => ?_
  rw [Bool.not_eq_true]
  rfl

/-- A row of the batch. -/
theorem batch_row {ivs : List (ℕ × PgTime × PgTime)} (honce : (ivs.map Prod.fst).Nodup) {ord : ℕ} {tf tt : PgTime}
    (h : (ord, tf, tt) ∈ ivs) :
    (ord, slotFree venueID hallIDs d db tf tt) ∈ batchRows venueID hallIDs d ivs db := by
  have hleft : ∃ b, ((ord, tf, tt), b) ∈ leftJoin (batchOn venueID hallIDs d) ivs db.reserved.rows := leftJoin_left h
  obtain ⟨b, hb⟩ := hleft
  refine List.mem_map.2 ⟨(ord, _), mem_groupBy.2 ⟨⟨_, hb, rfl⟩, rfl⟩, ?_⟩
  refine Prod.ext rfl ?_
  dsimp only
  unfold slotFree
  rw [Bool.eq_iff_iff, beq_iff_eq, decide_eq_true_iff, List.length_eq_zero_iff, List.filter_filter, List.filter_eq_nil_iff]
  constructor
  · intro hnone s hs
    by_contra hon
    have hmem : ((ord, tf, tt), some s) ∈ leftJoin (batchOn venueID hallIDs d) ivs db.reserved.rows :=
      mem_leftJoin.2 ⟨h, .inr ⟨s, hs, (Bool.not_eq_false _).mp hon, rfl⟩⟩
    exact absurd (hnone _ hmem) (by simp)
  · rintro hfree ⟨iv, b⟩ hmem
    obtain ⟨hiv, ⟨rfl, -⟩ | ⟨s, hs, hon, rfl⟩⟩ := mem_leftJoin.1 hmem
    · simp
    · -- a partner of this position is a partner of this interval
      intro heq
      have hord : iv.1 = ord := by simpa using heq
      have hsame : iv = (ord, tf, tt) := List.inj_on_of_nodup_map honce hiv h hord
      have hno := hfree s hs
      rw [hsame] at hon
      rw [show batchOn venueID hallIDs d (0, tf, tt) s = batchOn venueID hallIDs d (ord, tf, tt) s from rfl, hon] at hno
      cases hno

/-- An interval that is read, at its position. -/
def readAt (text : TextRules) (s : (String × String) × ℕ) (iv : ℕ × PgTime × PgTime) : Prop :=
  iv.1 = s.2 ∧ text.time s.1.1 = some iv.2.1 ∧ text.time s.1.2 = some iv.2.2

theorem unnestSlots_ok_iff {slots : List (String × String)} {ivs : List (ℕ × PgTime × PgTime)} :
    unnestSlots text slots = .ok ivs ↔ List.Forall₂ (readAt text) slots.zipIdx ivs := by
  unfold unnestSlots
  rw [Except.mapM_ok_iff]
  refine Eq.to_iff (congrArg (fun R => List.Forall₂ R slots.zipIdx ivs) ?_)
  funext ⟨⟨timeFrom, timeTo⟩, ord⟩ ⟨i, tf, tt⟩
  unfold readAt
  dsimp only
  cases hf : text.time timeFrom with
  | none => simp
  | some tf' =>
    cases ht : text.time timeTo with
    | none => simp
    | some tt' =>
      simp only [Except.ok.injEq, Prod.mk.injEq, Option.some.injEq, eq_comm]

/-- The positions of the intervals are those of the request. -/
theorem unnestSlots_positions {slots : List (String × String)} {ivs : List (ℕ × PgTime × PgTime)}
    (h : List.Forall₂ (readAt text) slots.zipIdx ivs) : ivs.map Prod.fst = List.range' 0 slots.length := by
  have heq : List.Forall₂ (· = ·) (ivs.map Prod.fst) (slots.zipIdx.map Prod.snd) := by
    rw [List.forall₂_map_left_iff, List.forall₂_map_right_iff]
    exact h.flip.imp fun _ _ hr => hr.1
  rw [List.forall₂_eq_eq_eq] at heq
  rw [heq, List.zipIdx_map_snd]

/-- The array of the batch. -/
theorem batch_array {slots : List (String × String)} {ivs : List (ℕ × PgTime × PgTime)}
    (h : List.Forall₂ (readAt text) slots.zipIdx ivs) :
    scatter (List.replicate slots.length false) (batchRows venueID hallIDs d ivs db) =
      ivs.map fun iv => slotFree venueID hallIDs d db iv.2.1 iv.2.2 := by
  have hpos := unnestSlots_positions h
  have hlen : ivs.length = slots.length := by
    have := congrArg List.length hpos
    rwa [List.length_map, List.length_range'] at this
  have honce : (ivs.map Prod.fst).Nodup := by
    rw [hpos]
    exact List.nodup_range'
  have hkeys : ((batchRows venueID hallIDs d ivs db).map Prod.fst).Nodup := by
    unfold batchRows
    rw [List.map_map]
    exact groupBy_nodup
  refine List.ext_getElem? fun i => ?_
  by_cases hi : i < ivs.length
  · have hord : ivs[i].1 = i := by
      have hget := List.getElem_of_eq hpos (by rwa [List.length_map])
      rwa [List.getElem_map, List.getElem_range', Nat.one_mul, Nat.zero_add] at hget
    have hmem : (i, slotFree venueID hallIDs d db ivs[i].2.1 ivs[i].2.2) ∈ batchRows venueID hallIDs d ivs db := by
      have hrow : (ivs[i].1, ivs[i].2.1, ivs[i].2.2) ∈ ivs := List.getElem_mem hi
      rw [hord] at hrow
      exact batch_row honce hrow
    rw [scatter_get hkeys hmem (by rw [List.length_replicate]; omega), List.getElem?_map, List.getElem?_eq_getElem hi]
    rfl
  · rw [List.getElem?_eq_none (by rw [scatter_length, List.length_replicate]; omega),
      List.getElem?_eq_none (by rw [List.length_map]; omega)]

/-- **The batch says of each interval what is said of it alone**, and fails if one of them cannot be read. -/
theorem batchCheckSlots_ok_iff {date : String} {slots : List (String × String)} {bs : List Bool} :
    batchCheckSlots text venueID hallIDs date slots db = .ok bs ↔
      slots.mapM (fun s => checkSlot text venueID hallIDs date s.1 s.2 db) = .ok bs := by
  have hread : ∀ {s : String × String} {b : Bool}, checkSlot text venueID hallIDs date s.1 s.2 db = .ok b →
      ∃ d tf tt, interval text date s.1 s.2 = .ok (d, tf, tt) := by
    intro s b h
    unfold checkSlot at h
    split at h
    · cases h
    · rename_i d tf tt hint
      exact ⟨d, tf, tt, hint⟩
  by_cases hnil : slots = []
  · subst hnil
    rw [List.mapM_nil]
    rfl
  unfold batchCheckSlots
  rw [if_neg hnil]
  cases hd : text.date date with
  | none =>
    refine ⟨fun h => (nomatch h), fun h => ?_⟩
    obtain ⟨s, rest, rfl⟩ := List.exists_cons_of_ne_nil hnil
    obtain ⟨b, -, hb, -, -⟩ := List.forall₂_cons_left_iff.1 (Except.mapM_ok_iff.1 h)
    obtain ⟨d, tf, tt, hint⟩ := hread hb
    rw [(of_interval hint).1] at hd
    cases hd
  | some d =>
    cases hu : unnestSlots text slots with
    | error e =>
      refine ⟨fun h => (nomatch h), fun h => ?_⟩
      have hall : ∀ x ∈ slots.zipIdx, ∃ iv, readAt text x iv := by
        rintro ⟨s, i⟩ hx
        have hs : s ∈ slots := List.fst_mem_of_mem_zipIdx hx
        obtain ⟨b, hb⟩ := List.forall₂_left (Except.mapM_ok_iff.1 h) s hs
        obtain ⟨d, tf, tt, hint⟩ := hread hb
        exact ⟨(i, tf, tt), rfl, (of_interval hint).2⟩
      obtain ⟨ivs, hivs⟩ := List.forall₂_exists hall
      rw [unnestSlots_ok_iff.2 hivs] at hu
      cases hu
    | ok ivs =>
      have hivs := unnestSlots_ok_iff.1 hu
      have hchecks : slots.mapM (fun s => checkSlot text venueID hallIDs date s.1 s.2 db) =
          .ok (ivs.map fun iv => slotFree venueID hallIDs d db iv.2.1 iv.2.2) := by
        rw [Except.mapM_ok_iff, List.forall₂_map_right_iff]
        conv_lhs => rw [← List.zipIdx_map_fst 0 slots]
        rw [List.forall₂_map_left_iff]
        exact hivs.imp fun s iv hr => checkSlot_eq (interval_ok hd hr.2.1 hr.2.2)
      dsimp only
      rw [batch_array hivs, hchecks]

end Batch

/-! ## The constraint -/

section Reserve

variable {text : TextRules} {newID : ℕ → String} {venueID : String} {bookingID : Option String} {hallIDs : List String} {d : PgDate}
  {tf tt : PgTime} {note : String} {db : VenueDB}

theorem key_comp_row :
    (ReservedSlot.key ∘ fun x : Option String × ℕ => match x with
      | (hallID, i) => (⟨newID i, venueID, bookingID, hallID, d, tf, tt, note⟩ : ReservedSlot)) =
      (fun hallID : Option String => hallID.getD venueID) ∘ Prod.fst := rfl

/-- The rows of a reservation hold its resources, one each. -/
theorem slotRows_keys :
    (slotRows newID venueID bookingID hallIDs d tf tt note).map ReservedSlot.key = reservationKeys venueID hallIDs := by
  unfold slotRows reservationKeys
  rw [List.map_map]
  by_cases hnil : hallIDs = []
  · subst hnil
    rfl
  · obtain ⟨hall, rest, rfl⟩ := List.exists_cons_of_ne_nil hnil
    rw [if_neg hnil, key_comp_row, ← List.map_map, List.zipIdx_map_fst, reservedHalls, List.map_map]
    · exact List.map_id _
    · exact fun h => by cases h

/-- Times of a day stay within the day. -/
theorem rangesOverlap_iff {d e : ℤ} {a b a' b' : ℕ} (hb : b ≤ fullDay) (hb' : b' ≤ fullDay) (hlen : a < b) (hlen' : a' < b') :
    rangesOverlap (d * fullDay + a, d * fullDay + b) (e * fullDay + a', e * fullDay + b') = true ↔ d = e ∧ a < b' ∧ a' < b := by
  have hday : (fullDay : ℤ) = 86400000000 := rfl
  have hbz : (b : ℤ) ≤ 86400000000 := hday ▸ Int.ofNat_le.2 hb
  have hbz' : (b' : ℤ) ≤ 86400000000 := hday ▸ Int.ofNat_le.2 hb'
  unfold rangesOverlap
  rw [decide_eq_true_iff, hday]
  dsimp only
  rw [max_lt_iff, lt_min_iff, lt_min_iff]
  constructor
  · rintro ⟨⟨h1, h2⟩, h3, h4⟩
    have hle : ¬ d < e := by omega
    have hge : ¬ e < d := by omega
    exact ⟨by omega, by omega, by omega⟩
  · rintro ⟨rfl, h1, h2⟩
    omega

/-- **A reservation succeeds** exactly when none of its resources is held by a row that overlaps it. -/
theorem insertSlots_ok_iff {ctx date timeFrom timeTo : String} (hint : interval text date timeFrom timeTo = .ok (d, tf, tt))
    (hvenue : isUUID venueID = true) (hbooking : bookingID.all isUUID = true) (hhalls : ∀ h ∈ hallIDs, isUUID h = true)
    (honce : hallIDs.Nodup) (hlen : tf ≤ tt) (hday : tt ≤ fullDay) :
    (∃ rows db', insertSlots ctx text (fun d tf tt => slotRows newID venueID bookingID hallIDs d tf tt note) date timeFrom timeTo db =
        (.ok rows, db')) ↔
      ∀ s ∈ db.reserved.rows, s.key ∈ reservationKeys venueID hallIDs →
        rangesOverlap s.slotTs (d * fullDay + tf, d * fullDay + tt) = false := by
  have hrows : ∀ r ∈ slotRows newID venueID bookingID hallIDs d tf tt note,
      reservedSlotSchema.check r = true ∧ r.slotTs = (d * fullDay + tf, d * fullDay + tt) := by
    intro r hr
    obtain ⟨h1, h2, h3, h4, h5, h6⟩ := slotRows_row hr
    have hhall : r.hallID.all isUUID = true := by
      cases hid : r.hallID with
      | none => rfl
      | some hall => exact hhalls hall (h6 hall hid)
    refine ⟨?_, by rw [ReservedSlot.slotTs, h3, h4, h5]⟩
    simp only [reservedSlotSchema, h1, h2, h4, h5, hvenue, hbooking, hhall, hlen, hday, decide_true, Bool.and_self]
  have hkeys : (slotRows newID venueID bookingID hallIDs d tf tt note).map ReservedSlot.key = reservationKeys venueID hallIDs :=
    slotRows_keys
  have hdiff : ((slotRows newID venueID bookingID hallIDs d tf tt note).map ReservedSlot.key).Nodup := by
    rw [hkeys]
    unfold reservationKeys
    split
    · exact List.nodup_singleton _
    · exact honce
  have hins : (∃ rows db', insertSlots ctx text (fun d tf tt => slotRows newID venueID bookingID hallIDs d tf tt note) date
      timeFrom timeTo db = (.ok rows, db')) ↔ ∃ t, db.reserved.insertAll (slotRows newID venueID bookingID hallIDs d tf tt note) = .ok t := by
    unfold insertSlots
    rw [hint]
    dsimp only
    cases hi : db.reserved.insertAll (slotRows newID venueID bookingID hallIDs d tf tt note) with
    | error v =>
      constructor
      · rintro ⟨_, _, h⟩
        cases h
      · rintro ⟨_, h⟩
        cases h
    | ok t => exact ⟨fun _ => ⟨t, rfl⟩, fun _ => ⟨_, _, rfl⟩⟩
  rw [hins, Table.insertAll_ok_iff]
  constructor
  · rintro ⟨hall, -⟩ s hs hkey
    rw [← hkeys] at hkey
    obtain ⟨r, hr, hrs⟩ := List.mem_map.1 hkey
    have hclash := (hall r hr).2 s hs
    simpa [reservedSlotSchema, hrs, (hrows r hr).2] using hclash
  · intro hfree
    refine ⟨fun r hr => ⟨(hrows r hr).1, fun s hs => ?_⟩, ?_⟩
    · by_cases hkey : s.key = r.key
      · have hmem : s.key ∈ reservationKeys venueID hallIDs := by
          rw [hkey, ← hkeys]
          exact List.mem_map.2 ⟨r, hr, rfl⟩
        have hover := hfree s hs hmem
        simp [reservedSlotSchema, (hrows r hr).2, hover]
      · simp [reservedSlotSchema, hkey]
    · -- the rows of the reservation hold different resources
      refine (List.pairwise_map.1 hdiff).imp fun {a b} hne => ?_
      simp [reservedSlotSchema, hne]

/-- Rows that take some time, and no resource of two venues: `owner` is the venue of a resource. -/
structure Tidy (owner : String → String) (db : VenueDB) : Prop where
  nonempty : ∀ s ∈ db.reserved.rows, s.timeFrom < s.timeTo
  owned : ∀ s ∈ db.reserved.rows, owner s.key = s.venueID

/-- Rows of some length that hold resources of their venue leave it so. -/
theorem Tidy.insertSlots {owner : String → String} {ctx date timeFrom timeTo : String} (h : Tidy owner db)
    (hown : ∀ k ∈ reservationKeys venueID hallIDs, owner k = venueID)
    (hlen : ∀ d tf tt, interval text date timeFrom timeTo = .ok (d, tf, tt) → tf < tt) :
    Tidy owner (insertSlots ctx text (fun d tf tt => slotRows newID venueID bookingID hallIDs d tf tt note) date timeFrom
      timeTo db).2 := by
  unfold VenueRepo.insertSlots
  cases hint : interval text date timeFrom timeTo with
  | error e => exact h
  | ok iv =>
    obtain ⟨d, tf, tt⟩ := iv
    dsimp only
    cases hins : db.reserved.insertAll (slotRows newID venueID bookingID hallIDs d tf tt note) with
    | error v => exact h
    | ok t =>
      dsimp only
      have hrows := Table.insertAll_rows hins
      constructor
      · intro s hs
        rw [hrows] at hs
        rcases List.mem_append.1 hs with hs | hs
        · exact h.nonempty s hs
        · obtain ⟨-, -, -, hf, ht, -⟩ := slotRows_row hs
          rw [hf, ht]
          exact hlen d tf tt hint
      · intro s hs
        rw [hrows] at hs
        rcases List.mem_append.1 hs with hs | hs
        · exact h.owned s hs
        · have hkey : s.key ∈ reservationKeys venueID hallIDs := by
            rw [← slotRows_keys]
            exact List.mem_map.2 ⟨s, hs, rfl⟩
          rw [hown _ hkey, (slotRows_row hs).1]

/-- Rows taken away leave it so. -/
theorem Tidy.delete {owner : String → String} (h : Tidy owner db) (p : ReservedSlot → Bool) :
    Tidy owner { db with reserved := db.reserved.delete p } :=
  ⟨fun s hs => h.nonempty s (List.mem_filter.1 hs).1, fun s hs => h.owned s (List.mem_filter.1 hs).1⟩

/-- What is done to the slots: a reservation and a block take some time and resources of their venue. -/
inductive SlotStep (owner : String → String) (text : TextRules) : VenueDB → VenueDB → Prop where
  | reserve (newID : ℕ → String) (venueID bookingID date timeFrom timeTo : String) (hallIDs : List String) (db : VenueDB)
      (hown : ∀ k ∈ reservationKeys venueID hallIDs, owner k = venueID)
      (hlen : ∀ d tf tt, interval text date timeFrom timeTo = .ok (d, tf, tt) → tf < tt) :
      SlotStep owner text db (reserveSlot text newID venueID bookingID date timeFrom timeTo hallIDs db).2
  | block (newID : ℕ → String) (venueID : String) (hallIDs : List String) (date timeFrom timeTo note : String) (db : VenueDB)
      (hown : ∀ k ∈ reservationKeys venueID hallIDs, owner k = venueID)
      (hlen : ∀ d tf tt, interval text date timeFrom timeTo = .ok (d, tf, tt) → tf < tt) :
      SlotStep owner text db (createManualSlotBlock text newID venueID hallIDs date timeFrom timeTo note db).2
  | release (venueID bookingID : String) (db : VenueDB) : SlotStep owner text db (releaseSlot venueID bookingID db)
  | unblock (venueID blockID : String) (db : VenueDB) : SlotStep owner text db (deleteManualSlotBlock venueID blockID db).2

theorem SlotStep.tidy {owner : String → String} {db db' : VenueDB} (hstep : SlotStep owner text db db') (h : Tidy owner db) :
    Tidy owner db' := by
  cases hstep with
  | reserve newID venueID bookingID date timeFrom timeTo hallIDs db hown hlen =>
    have hins : Tidy owner (insertSlots "reserve slot" text
        (fun d tf tt => slotRows newID venueID (some bookingID) hallIDs d tf tt "") date timeFrom timeTo db).2 :=
      h.insertSlots hown hlen
    unfold reserveSlot
    split <;> rename_i heq <;> rw [heq] at hins <;> exact hins
  | block newID venueID hallIDs date timeFrom timeTo note db hown hlen =>
    have hins : Tidy owner (insertSlots "create manual slot block" text
        (fun d tf tt => slotRows newID venueID none hallIDs d tf tt (pgTrim note)) date timeFrom timeTo db).2 :=
      h.insertSlots hown hlen
    unfold createManualSlotBlock
    split <;> rename_i heq <;> rw [heq] at hins <;> exact hins
  | release venueID bookingID db => exact h.delete _
  | unblock venueID blockID db => exact h.delete _

/-- However many of them were done. -/
theorem Tidy.reached {owner : String → String} {db db' : VenueDB} (h : Tidy owner db)
    (hrun : Relation.ReflTransGen (SlotStep owner text) db db') : Tidy owner db' := by
  induction hrun with
  | refl => exact h
  | tail _ hstep ih => exact hstep.tidy ih

/-- **A slot that is reported free can be reserved, and no other**. -/
theorem check_iff_reserve {owner : String → String} {bookingID date timeFrom timeTo : String} (htidy : Tidy owner db)
    (htime : ∀ s t, text.time s = some t → t ≤ fullDay) (hvenue : isUUID venueID = true) (hbooking : isUUID bookingID = true)
    (hhalls : ∀ h ∈ hallIDs, isUUID h = true) (honce : hallIDs.Nodup) (hown : ∀ k ∈ reservationKeys venueID hallIDs, owner k = venueID)
    (hlen : ∀ d tf tt, interval text date timeFrom timeTo = .ok (d, tf, tt) → tf < tt) :
    checkSlot text venueID hallIDs date timeFrom timeTo db = .ok true ↔
      ∃ db', reserveSlot text newID venueID bookingID date timeFrom timeTo hallIDs db = (.ok (), db') := by
  have hreserve : (∃ db', reserveSlot text newID venueID bookingID date timeFrom timeTo hallIDs db = (.ok (), db')) ↔
      ∃ rows db', insertSlots "reserve slot" text (fun d tf tt => slotRows newID venueID (some bookingID) hallIDs d tf tt "")
        date timeFrom timeTo db = (.ok rows, db') := by
    unfold reserveSlot
    constructor
    · rintro ⟨db', h⟩
      split at h
      · cases h
      · rename_i rows db'' heq
        exact ⟨rows, db'', heq⟩
    · rintro ⟨rows, db', heq⟩
      rw [heq]
      exact ⟨db', rfl⟩
  rw [hreserve]
  cases hint : interval text date timeFrom timeTo with
  | error e =>
    unfold checkSlot insertSlots
    rw [hint]
    exact ⟨fun h => (nomatch h), fun ⟨_, _, h⟩ => (nomatch h)⟩
  | ok iv =>
    obtain ⟨d, tf, tt⟩ := iv
    have hft := hlen d tf tt hint
    have hday := htime _ _ (of_interval hint).2.2
    rw [checkSlot_eq hint, insertSlots_ok_iff hint hvenue (by simpa using hbooking) hhalls honce hft.le hday]
    unfold slotFree
    rw [Except.ok.injEq, decide_eq_true_iff]
    refine forall₂_congr fun s hs => ?_
    have hcheck := db.reserved.checked s hs
    have hsday : s.timeTo ≤ fullDay := by
      simp only [reservedSlotSchema, Bool.and_eq_true, decide_eq_true_iff] at hcheck
      exact hcheck.2
    -- a row that holds a resource of the request is one of its venue
    by_cases hkey : s.key ∈ reservationKeys venueID hallIDs
    · have hof : s.venueID = venueID := (htidy.owned s hs).symm.trans (hown _ hkey)
      have hover := rangesOverlap_iff (d := s.date) (e := d) hsday hday (htidy.nonempty s hs) hft
      rw [forall_prop_of_true hkey, ← Bool.not_eq_true, ← Bool.not_eq_true, not_iff_not, ReservedSlot.slotTs, hover]
      simp only [batchOn, hof, List.contains_iff_mem.2 hkey, BEq.rfl, Bool.true_and, Bool.and_true, Bool.and_eq_true,
        beq_iff_eq, decide_eq_true_iff]
      tauto
    · simp [batchOn, hkey]

end Reserve

/-! ## Agreement -/

/-- **Agreement of the three.**  The batch and the single query say the same of every slot, whatever is stored.  Where no row is
empty and no resource is one of two venues, a slot is reported free exactly when it can be reserved. -/
theorem check_reserve_agree {text : TextRules} (htime : ∀ s t, text.time s = some t → t ≤ fullDay) {db : VenueDB}
    {owner : String → String} (htidy : Tidy owner db) {newID : ℕ → String} {venueID bookingID date timeFrom timeTo : String}
    {hallIDs : List String} (hvenue : isUUID venueID = true) (hbooking : isUUID bookingID = true)
    (hhalls : ∀ h ∈ hallIDs, isUUID h = true) (honce : hallIDs.Nodup) (hown : ∀ k ∈ reservationKeys venueID hallIDs, owner k = venueID)
    (hlen : ∀ d tf tt, interval text date timeFrom timeTo = .ok (d, tf, tt) → tf < tt) :
    (checkSlot text venueID hallIDs date timeFrom timeTo db = .ok true ↔
      ∃ db', reserveSlot text newID venueID bookingID date timeFrom timeTo hallIDs db = (.ok (), db')) ∧
    ∀ slots bs, batchCheckSlots text venueID hallIDs date slots db = .ok bs ↔
      slots.mapM (fun s => checkSlot text venueID hallIDs date s.1 s.2 db) = .ok bs :=
  ⟨check_iff_reserve htidy htime hvenue hbooking hhalls honce hown hlen, fun _ _ => batchCheckSlots_ok_iff⟩

/-! ### A row of no length, and one of another venue -/

def checkVenue : String := "00000000-0000-0000-0000-000000000001"

def checkHall : String := "00000000-0000-0000-0000-000000000002"

def checkBooking : String := "00000000-0000-0000-0000-000000000003"

/-- A row of the hall on the first of July 2026. -/
def checkRow (venueID : String) (timeFrom timeTo : PgTime) : ReservedSlot where
  id := "00000000-0000-0000-0000-000000000004"
  venueID := venueID
  bookingID := none
  hallID := some checkHall
  date := 740163
  timeFrom := timeFrom
  timeTo := timeTo
  blockNote := ""

def checkDB (rows : Table reservedSlotSchema) : VenueDB := ⟨Table.empty _, Table.empty _, rows, []⟩

/-- From ten to ten. -/
def emptyRow : Table reservedSlotSchema := ⟨[checkRow checkVenue 36000000000 36000000000], by decide, by simp⟩

/-- From ten to eleven, and the hall's venue is another one. -/
def foreignRow : Table reservedSlotSchema :=
  ⟨[checkRow "00000000-0000-0000-0000-000000000005" 36000000000 39600000000], by decide, by simp⟩

/-- A slot that is reported taken can be reserved, and one that is reported free cannot. -/
theorem check_reserve_apart :
    (checkSlot sampleText checkVenue [checkHall] "2026-07-01" "09:00" "12:00" (checkDB emptyRow) = .ok false ∧
      (reserveSlot sampleText (fun _ => "") checkVenue checkBooking "2026-07-01" "09:00" "12:00" [checkHall]
        (checkDB emptyRow)).1 = .ok ()) ∧
    (checkSlot sampleText checkVenue [checkHall] "2026-07-01" "09:00" "12:00" (checkDB foreignRow) = .ok true ∧
      (reserveSlot sampleText (fun _ => "") checkVenue checkBooking "2026-07-01" "09:00" "12:00" [checkHall]
        (checkDB foreignRow)).1 = .error .slotUnavailable) := by
  refine ⟨⟨?_, ?_⟩, ?_, ?_⟩ <;> decide

theorem sampleText_time {s : String} {t : PgTime} (h : sampleText.time s = some t) : t ≤ fullDay := by
  obtain ⟨c, hc, rfl⟩ := Option.map_eq_some_iff.1 h
  have hlt : c.h < 24 ∧ c.m < 60 := by
    unfold TimeOfDay.parse at hc
    dsimp only at hc
    repeat' split at hc
    all_goals cases hc
    all_goals assumption
  calc (c.h * 60 + c.m) * 60000000 ≤ (23 * 60 + 59) * 60000000 := by omega
    _ ≤ fullDay := by decide

def ownRow : Table reservedSlotSchema := ⟨[checkRow checkVenue 36000000000 39600000000], by decide, by simp⟩

/-- The hour after it. -/
theorem check_reserve_agree_next :
    (checkSlot sampleText checkVenue [checkHall] "2026-07-01" "11:00" "12:00" (checkDB ownRow) = .ok true ↔
      ∃ db', reserveSlot sampleText (fun _ => "") checkVenue checkBooking "2026-07-01" "11:00" "12:00" [checkHall] (checkDB ownRow) =
        (.ok (), db')) ∧
    ∀ slots bs, batchCheckSlots sampleText checkVenue [checkHall] "2026-07-01" slots (checkDB ownRow) = .ok bs ↔
      slots.mapM (fun s => checkSlot sampleText checkVenue [checkHall] "2026-07-01" s.1 s.2 (checkDB ownRow)) = .ok bs := by
  have hrows : ∀ s ∈ (checkDB ownRow).reserved.rows, s = checkRow checkVenue 36000000000 39600000000 := fun s hs =>
    List.mem_singleton.1 hs
  have htidy : Tidy (fun _ => checkVenue) (checkDB ownRow) := by
    constructor
    · intro s hs
      rw [hrows s hs]
      decide
    · intro s hs
      rw [hrows s hs]
      rfl
  have hlen : ∀ d tf tt, interval sampleText "2026-07-01" "11:00" "12:00" = .ok (d, tf, tt) → tf < tt := by
    intro d tf tt h
    have hread : interval sampleText "2026-07-01" "11:00" "12:00" = .ok (740163, 39600000000, 43200000000) := by rfl
    rw [hread] at h
    cases h
    decide
  exact check_reserve_agree (fun _ _ => sampleText_time) htidy (by decide) (by decide) (by decide) (List.nodup_singleton _)
    (fun _ _ => rfl) hlen

end VenueRepo

end Agregator
