import Agregator.VenueCalls
/-!
# VenueWrites — what a statement does to a card

A statement that takes effect adds a card, or makes of every row of the venues what `CardSql.row` says, and leaves the
services and the halls of all venues but one as they are.
-/
namespace Agregator

open Rel Conc

/-! ## The rows of the venues -/

namespace CardRepo

/-- What the halls of a venue give its card. -/
def fromHalls (rules : CardRules) (now : Time) (rows : List VenueHall) (v : VenueCard) : VenueCard :=
  let (pf, pw, capacity, am) := VenueRepo.derivedVenueFieldsFromHalls rules.lower rows
  { v with
    priceFrom := if rows.isEmpty then v.priceFrom else pf
    priceWeekend := if rows.isEmpty then v.priceWeekend else pw
    capacity := capacity, amenities := am, updatedAt := now }

/-- The rows that `Update` writes, if the texts of the card are JSON. -/
def stored (rules : CardRules) (now : Time) (v r : VenueCard) : VenueCard :=
  match rules.jsonb (if v.workingHours = "" then "{}" else v.workingHours),
      rules.jsonb (if v.socialLinks = "" then "{}" else v.socialLinks) with
  | some workingHours, some socialLinks => edited now v workingHours socialLinks r
  | _, _ => r

end CardRepo

/-- What a statement other than the insertion of a card makes of a row, where `halls` are the halls after it. -/
def CardSql.row (rules : CardRules) (env : DbEnv) (halls : Table venueHallSchema) (s : CardSql) (r : VenueCard) : VenueCard :=
  match s with
  | update v => if r.id == v.id then CardRepo.stored rules env.now v r else r
  | updateStatus venueID status comment moderatedBy =>
    if r.id == venueID then CardRepo.moderated env.now status comment moderatedBy r else r
  | suspendByOwner ownerID =>
    if r.ownerID == ownerID && r.status != .suspended then CardRepo.suspended env.now r else r
  | submitDraftForReview venueID ownerID =>
    if r.id == venueID && r.ownerID == ownerID && r.status == .draft then CardRepo.submitted env.now r else r
  | updateRating venueID avgRating reviewCount =>
    if r.id == venueID then { r with avgRating := avgRating, reviewCount := reviewCount, updatedAt := env.now } else r
  | setBookingMode venueID mode => if r.id == venueID then { r with bookingMode := mode } else r
  | editMedia venueID _ | addVenuePhoto venueID _ _ | deleteVenuePhoto venueID _ _ | setVenueCoverPhoto venueID _ _ =>
    if r.id == venueID then CardRepo.resetToPendingReview env.now r else r
  | replaceVenueHalls venueID _ _ =>
    if r.id == venueID then
      CardRepo.resetToPendingReview env.now
        (CardRepo.fromHalls rules env.now (env.order (halls.select (·.venueID == venueID))) r)
    else r
  | _ => r

section Rows

variable {rules : CardRules} {env : DbEnv} {halls : Table venueHallSchema} (s : CardSql) (r : VenueCard)

theorem CardRepo.resetToPendingReview_eq (now : Time) (v : VenueCard) : CardRepo.resetToPendingReview now v =
    if v.status = .active ∨ v.status = .rejected then
      { v with
        status := .pendingReview, moderationComment := "", isActive := false, moderatedAt := none, moderatedBy := ""
        updatedAt := now }
    else v := by
  unfold CardRepo.resetToPendingReview VenueRepo.resetToPendingReview
  by_cases h : v.status = .active ∨ v.status = .rejected
  · rw [if_pos h, if_pos h]
  · rw [if_neg h, if_neg h]

theorem CardRepo.stored_eq {now : Time} {v : VenueCard} {workingHours socialLinks : String}
    (hw : rules.jsonb (if v.workingHours = "" then "{}" else v.workingHours) = some workingHours)
    (hs : rules.jsonb (if v.socialLinks = "" then "{}" else v.socialLinks) = some socialLinks) :
    CardRepo.stored rules now v r = CardRepo.edited now v workingHours socialLinks r := by
  unfold CardRepo.stored
  rw [hw, hs]

theorem CardRepo.stored_cases (now : Time) (v : VenueCard) : CardRepo.stored rules now v r = r ∨
    ∃ workingHours socialLinks, CardRepo.stored rules now v r = CardRepo.edited now v workingHours socialLinks r := by
  unfold CardRepo.stored
  split
  · exact .inr ⟨_, _, rfl⟩
  · exact .inl rfl

/-- A reset writes no column but those of the moderation. -/
theorem CardRepo.resetToPendingReview_keeps {β : Type} (g : VenueCard → β)
    (hg : ∀ v : VenueCard, ∀ now, g { v with
      status := .pendingReview, moderationComment := "", isActive := false, moderatedAt := none, moderatedBy := ""
      updatedAt := now } = g v) (now : Time) (v : VenueCard) : g (CardRepo.resetToPendingReview now v) = g v := by
  rw [CardRepo.resetToPendingReview_eq]
  by_cases h : v.status = .active ∨ v.status = .rejected
  · rw [if_pos h, hg]
  · rw [if_neg h]

/-- **No statement writes the columns that `g` reads**, if none of the single writes does. -/
theorem CardSql.row_keeps {β : Type} (g : VenueCard → β) (hpending : ∀ now v, g (CardRepo.resetToPendingReview now v) = g v)
    (hstored : ∀ now v workingHours socialLinks r, g (CardRepo.edited now v workingHours socialLinks r) = g r)
    (hmoderated : ∀ now status comment moderatedBy v, g (CardRepo.moderated now status comment moderatedBy v) = g v)
    (hsuspended : ∀ now v, g (CardRepo.suspended now v) = g v) (hsubmitted : ∀ now v, g (CardRepo.submitted now v) = g v)
    (hrating : ∀ v : VenueCard, ∀ avgRating reviewCount now,
      g { v with avgRating := avgRating, reviewCount := reviewCount, updatedAt := now } = g v)
    (hmode : ∀ v : VenueCard, ∀ mode, g { v with bookingMode := mode } = g v)
    (hhalls : ∀ now rows v, g (CardRepo.fromHalls rules now rows v) = g v) : g (s.row rules env halls r) = g r := by
  have hite : ∀ {p : Bool} {x : VenueCard}, g x = g r → g (if p then x else r) = g r := by
    intro p x hx
    cases p
    · rfl
    · exact hx
  cases s with
  | update v =>
    refine hite ?_
    rcases CardRepo.stored_cases r env.now v with h | ⟨wh, sl, h⟩
    · rw [h]
    · rw [h, hstored]
  | updateStatus => exact hite (hmoderated _ _ _ _ _)
  | suspendByOwner => exact hite (hsuspended _ _)
  | submitDraftForReview => exact hite (hsubmitted _ _)
  | updateRating => exact hite (hrating _ _ _ _)
  | setBookingMode => exact hite (hmode _ _)
  | editMedia | addVenuePhoto | deleteVenuePhoto | setVenueCoverPhoto => exact hite (hpending _ _)
  | replaceVenueHalls => exact hite ((hpending _ _).trans (hhalls _ _ _))
  | _ => rfl

@[simp] theorem CardSql.row_id : (s.row rules env halls r).id = r.id :=
  s.row_keeps r (·.id) (CardRepo.resetToPendingReview_keeps (·.id) fun _ _ => rfl)
    (fun _ _ _ _ _ => CardRepo.resetToPendingReview_keeps (·.id) (fun _ _ => rfl) _ _) (fun _ _ _ _ _ => rfl) (fun _ _ => rfl)
    (fun _ _ => rfl) (fun _ _ _ _ => rfl) (fun _ _ => rfl) fun _ _ _ => rfl

@[simp] theorem CardSql.row_ownerID : (s.row rules env halls r).ownerID = r.ownerID :=
  s.row_keeps r (·.ownerID) (CardRepo.resetToPendingReview_keeps (·.ownerID) fun _ _ => rfl)
    (fun _ _ _ _ _ => CardRepo.resetToPendingReview_keeps (·.ownerID) (fun _ _ => rfl) _ _) (fun _ _ _ _ _ => rfl) (fun _ _ => rfl)
    (fun _ _ => rfl) (fun _ _ _ _ => rfl) (fun _ _ => rfl) fun _ _ _ => rfl

end Rows

/-! ## Transactions -/

section Transactions

variable {rules : CardRules} {env : DbEnv} {db db' : CardDB}

theorem CardRepo.updateRows_cases (ctx : String) (p : VenueCard → Bool) (f : VenueCard → VenueCard) (db : CardDB) :
    (∃ e, updateRows ctx p f db = (.error e, db)) ∨ ∃ n db', updateRows ctx p f db = (.ok n, db') ∧
      db'.venues.rows = db.venues.rows.map (fun r => if p r then f r else r) ∧ db'.services = db.services ∧
      db'.halls = db.halls ∧ db'.photos = db.photos := by
  unfold updateRows
  split
  · exact .inl ⟨_, rfl⟩
  · rename_i venues hu
    exact .inr ⟨_, _, rfl, Table.update_rows hu, rfl, rfl, rfl⟩

theorem CardRepo.checkOwner_ok {venueID ownerID : String} {u : Unit}
    (h : VenueRepo.checkOwner ownerID ((db.venue venueID).map (·.toVenue)) = .ok u) :
    ∃ v, db.venue venueID = some v ∧ v.ownerID = ownerID := by
  cases hv : db.venue venueID with
  | none =>
    rw [hv] at h
    cases h
  | some v =>
    rw [hv] at h
    simp only [Option.map_some, VenueRepo.checkOwner] at h
    split at h
    · cases h
    · rename_i ho
      exact ⟨v, rfl, not_not.1 ho⟩

/-- **A transaction on a locked venue** does nothing, or what its body does and the reset. -/
theorem CardRepo.lockedEdit_cases (venueID ownerID : String) (body : CardDB → Except VenueErr Unit × CardDB) (db : CardDB) :
    (lockedEdit env venueID ownerID body db).2 = db ∨ ∃ v db₁, db.venue venueID = some v ∧ body db = (.ok (), db₁) ∧
      (lockedEdit env venueID ownerID body db).2.venues.rows =
        db₁.venues.rows.map (fun r => if r.id == venueID then resetToPendingReview env.now r else r) ∧
      (lockedEdit env venueID ownerID body db).2.services = db₁.services ∧
      (lockedEdit env venueID ownerID body db).2.halls = db₁.halls ∧
      (lockedEdit env venueID ownerID body db).2.photos = db₁.photos := by
  unfold lockedEdit
  split
  · exact .inl rfl
  · rename_i hcheck
    obtain ⟨v, hv, -⟩ := checkOwner_ok hcheck
    split
    · exact .inl rfl
    · rename_i db₁ hbody
      rcases updateRows_cases "reset to pending_review" (·.id == venueID) (resetToPendingReview env.now) db₁ with
        ⟨e, h⟩ | ⟨n, db', h, hrows⟩
      · rw [h]
        exact .inl rfl
      · rw [h]
        exact .inr ⟨v, db₁, hv, hbody, hrows⟩

end Transactions

/-! ## The insertion of a card -/

/-- What an insertion that takes effect adds: a card that shows what its halls give, its services and its halls. -/
structure CardRepo.Created (rules : CardRules) (env : DbEnv) (v : VenueCard) (services : List VenueService)
    (halls : List VenueHall) (db db' : CardDB) : Prop where
  fresh : db.venue (env.newID 0) = none
  addsServices : db'.services.rows = db.services.rows ++ serviceRows (fun i => env.newID (i + 1)) (env.newID 0) services
  addsHalls : db'.halls.rows = db.halls.rows ++ hallRows env.now (fun i => env.newID (i + services.length + 1)) (env.newID 0) halls
  keepsPhotos : db'.photos = db.photos
  card : ∃ card : VenueCard, db'.venues.rows = db.venues.rows ++ [card] ∧ card.id = env.newID 0 ∧ card.status = v.status ∧
    card.ownerID = v.ownerID ∧ (halls ≠ [] → (card.priceFrom, card.priceWeekend, card.capacity, card.amenities) =
      VenueRepo.derivedVenueFieldsFromHalls rules.lower halls)

/-- A row just inserted, updated by its key. -/
theorem update_inserted {α : Type} {S : Schema α} {t t₁ t₂ : Table S} {r : α} {p : α → Bool} {f : α → α}
    (hi : t.insert r = .ok t₁) (hu : t₁.update p f = .ok t₂) (hr : p r = true) (hp : ∀ x ∈ t.rows, p x = false) :
    t₂.rows = t.rows ++ [f r] := by
  rw [Table.update_rows hu, Table.insert_rows hi, List.map_append, List.map_singleton, if_pos hr]
  congr 1
  conv_rhs => rw [← List.map_id t.rows]
  exact List.map_congr_left fun x hx => by simp [hp x hx]

theorem CardRepo.create_cases (rules : CardRules) (env : DbEnv) (v : VenueCard) (services : List VenueService)
    (halls : List VenueHall) (db : CardDB) : (create rules env v services halls db).2 = db ∨
      Created rules env v services halls db (create rules env v services halls db).2 := by
  unfold create
  split
  · rename_i workingHours socialLinks hw hs
    simp only
    split
    · exact .inl rfl
    · rename_i venues hv
      split
      · exact .inl rfl
      · rename_i services' hsv
        split
        · exact .inl rfl
        · rename_i halls' hh
          obtain ⟨-, hfresh⟩ := Table.of_insert_ok hv
          have hnone : ∀ x ∈ db.venues.rows, (x.id == env.newID 0) = false := fun x hx =>
            (Bool.or_eq_false_iff.1 (hfresh x hx)).1
          split
          · rename_i hempty
            refine .inr ⟨Table.get_eq_none.2 hnone, Table.insertAll_rows hsv, Table.insertAll_rows hh, rfl, _,
              Table.insert_rows hv, rfl, rfl, rfl, fun hne => absurd (List.isEmpty_iff.1 hempty) hne⟩
          · split
            · exact .inl rfl
            · rename_i venues' hu
              exact .inr ⟨Table.get_eq_none.2 hnone, Table.insertAll_rows hsv, Table.insertAll_rows hh, rfl, _,
                update_inserted hv hu BEq.rfl hnone, rfl, rfl, rfl, fun _ => rfl⟩
  · exact .inl rfl

/-! ## What a statement leaves behind -/

section Statements

variable {rules : CardRules} {env : DbEnv} {db : CardDB}

theorem CardRepo.updateRows_rows (ctx : String) (p : VenueCard → Bool) (f : VenueCard → VenueCard) (db : CardDB) :
    (updateRows ctx p f db).2 = db ∨ ((updateRows ctx p f db).2.venues.rows = db.venues.rows.map (fun r => if p r then f r else r) ∧
      (updateRows ctx p f db).2.services = db.services ∧ (updateRows ctx p f db).2.halls = db.halls) := by
  rcases updateRows_cases ctx p f db with ⟨e, h⟩ | ⟨n, db', h, hv, hs, hh, -⟩
  · rw [h]
    exact .inl rfl
  · rw [h]
    exact .inr ⟨hv, hs, hh⟩

/-- An edit of the photos, which leaves the venues to the reset. -/
theorem CardRepo.photoEdit_rows {venueID ownerID : String} {body : CardDB → Except VenueErr Unit × CardDB}
    (hbody : ∀ db db₁, body db = (.ok (), db₁) → db₁.venues = db.venues ∧ db₁.services = db.services ∧ db₁.halls = db.halls)
    (db : CardDB) : (lockedEdit env venueID ownerID body db).2 = db ∨
      ((lockedEdit env venueID ownerID body db).2.venues.rows =
        db.venues.rows.map (fun r => if r.id == venueID then resetToPendingReview env.now r else r) ∧
      (lockedEdit env venueID ownerID body db).2.services = db.services ∧
      (lockedEdit env venueID ownerID body db).2.halls = db.halls) := by
  rcases lockedEdit_cases venueID ownerID body db with h | ⟨-, db₁, -, hb, hv, hs, hh, -⟩
  · exact .inl h
  · obtain ⟨hv₁, hs₁, hh₁⟩ := hbody db db₁ hb
    rw [hv₁] at hv
    exact .inr ⟨hv, hs.trans hs₁, hh.trans hh₁⟩

/-- `Select` after a deletion of rows that it does not take. -/
theorem select_delete_others {α : Type} {S : Schema α} (t : Table S) {p q : α → Bool}
    (h : ∀ r ∈ t.rows, p r = true → q r = false) : (t.delete p).select q = t.select q := by
  unfold Table.select Table.delete
  rw [List.filter_filter]
  refine List.filter_congr fun r hr => ?_
  cases hp : p r with
  | false => simp
  | true => simp [h r hr hp]

theorem select_insertAll {α : Type} {S : Schema α} {t t' : Table S} {rs : List α} (h : t.insertAll rs = .ok t')
    (q : α → Bool) : t'.select q = t.select q ++ rs.filter q := by
  unfold Table.select
  rw [Table.insertAll_rows h, List.filter_append]

/-- **The halls of a request are halls of its venue.** -/
theorem VenueRepo.upsertHalls_others {now : Time} {newID : ℕ → String} {venueID other : String} (ho : other ≠ venueID) :
    ∀ {i : ℕ} {items : List VenueHallUpsert} {halls halls' : Table venueHallSchema} {kept : List String},
      upsertHalls now newID venueID i items halls = .ok (kept, halls') →
      halls'.select (·.venueID == other) = halls.select (·.venueID == other)
  | _, [], halls, halls', kept, h => by
    cases h
    rfl
  | i, it :: items, halls, halls', kept, h => by
    unfold upsertHalls at h
    simp only at h
    split at h
    · cases h
    split at h
    · split at h
      · cases h
      split at h
      · cases h
      split at h
      · cases h
      rename_i halls₁ hu
      split at h
      · cases h
      rename_i hrest
      cases h
      rw [upsertHalls_others ho hrest]
      refine Table.select_update_others hu fun r _ hr => ?_
      have hv : r.venueID = venueID := by simpa using (Bool.and_eq_true_iff.1 hr).2
      simp [hv, Ne.symm ho]
    · split at h
      · cases h
      rename_i halls₁ hi
      split at h
      · cases h
      rename_i hrest
      cases h
      rw [upsertHalls_others ho hrest, Table.select_insert hi]
      simp [Ne.symm ho]

/-- The venue whose services a statement replaces. -/
def CardSql.servicesAt : CardSql → Option String
  | replaceVenueServices venueID _ _ => some venueID
  | _ => none

/-- The venue whose halls a statement replaces. -/
def CardSql.hallsAt : CardSql → Option String
  | replaceVenueHalls venueID _ _ => some venueID
  | _ => none

/-- What a statement writes that adds no card. -/
structure CardSql.Wrote (rules : CardRules) (env : DbEnv) (s : CardSql) (db db' : CardDB) : Prop where
  venues : db'.venues.rows = db.venues.rows.map (s.row rules env db'.halls)
  services : ∀ venueID, s.servicesAt ≠ some venueID → db'.servicesOf venueID = db.servicesOf venueID
  halls : ∀ venueID, s.hallsAt ≠ some venueID → db'.hallsOf venueID = db.hallsOf venueID
  found : ∀ venueID, s.hallsAt = some venueID → ∃ v, db.venue venueID = some v

/-- Rows rewritten, and nothing else. -/
theorem CardSql.Wrote.of_rows {s : CardSql} {db' : CardDB} {p : VenueCard → Bool} {f : VenueCard → VenueCard}
    (hs : s.hallsAt = none) (hrow : ∀ r, s.row rules env db'.halls r = if p r then f r else r)
    (h : db'.venues.rows = db.venues.rows.map (fun r => if p r then f r else r) ∧ db'.services = db.services ∧
      db'.halls = db.halls) : s.Wrote rules env db db' := by
  obtain ⟨hv, hsv, hh⟩ := h
  refine ⟨?_, fun venueID _ => ?_, fun venueID _ => ?_, fun venueID hat => ?_⟩
  · rw [hv]
    congr 1
    funext r
    exact (hrow r).symm
  · unfold CardDB.servicesOf
    rw [hsv]
  · unfold CardDB.hallsOf
    rw [hh]
  · rw [hs] at hat
    cases hat

theorem CardRepo.update_wrote (v : VenueCard) (db : CardDB) : (update rules env v db).2 = db ∨
    (CardSql.update v).Wrote rules env db (update rules env v db).2 := by
  unfold update
  split
  · rename_i workingHours socialLinks hw hs
    refine (updateRows_rows _ _ _ db).imp id fun h => CardSql.Wrote.of_rows rfl (fun r => ?_) h
    simp only [CardSql.row, stored, hw, hs]
  · exact .inl rfl

theorem CardRepo.recover_rest {venueID : String} {cover : Option String} {db db₁ : CardDB}
    (h : recover venueID cover db = (.ok (), db₁)) : db₁.venues = db.venues ∧ db₁.services = db.services ∧ db₁.halls = db.halls := by
  unfold recover at h
  split at h
  · cases h
  · cases h
    exact ⟨rfl, rfl, rfl⟩

theorem CardRepo.replaceVenueServices_wrote (venueID ownerID : String) (services : List VenueService) (db : CardDB) :
    (replaceVenueServices env venueID ownerID services db).2 = db ∨
      (CardSql.replaceVenueServices venueID ownerID services).Wrote rules env db
        (replaceVenueServices env venueID ownerID services db).2 := by
  unfold replaceVenueServices
  split
  · exact .inl rfl
  · split
    · exact .inl rfl
    · rename_i services' hi
      refine .inr ⟨(List.map_id _).symm, fun other ho => ?_, fun _ _ => rfl, fun _ h => nomatch h⟩
      have hne : other ≠ venueID := fun h => ho (congrArg some h.symm)
      unfold CardDB.servicesOf
      rw [select_insertAll hi, select_delete_others]
      · refine List.append_right_eq_self.2 (List.filter_eq_nil_iff.2 fun r hr => ?_)
        obtain ⟨⟨s, k⟩, -, rfl⟩ := List.mem_map.1 hr
        simpa using Ne.symm hne
      · intro r _ hr
        simp only [beq_iff_eq] at hr
        simpa [hr] using Ne.symm hne

theorem CardRepo.replaceVenueHalls_wrote (venueID ownerID : String) (items : List VenueHallUpsert) (db : CardDB) :
    (replaceVenueHalls rules env venueID ownerID items db).2 = db ∨
      (CardSql.replaceVenueHalls venueID ownerID items).Wrote rules env db
        (replaceVenueHalls rules env venueID ownerID items db).2 := by
  unfold replaceVenueHalls
  rcases @lockedEdit_cases env venueID ownerID _ db with h | ⟨v, db₁, hfound, hb, hv, hs, hh, -⟩
  · exact .inl h
  · right
    simp only at hb
    split at hb
    · cases hb
    rename_i kept halls hup
    split at hb
    · cases hb
    rename_i n db₂ hrows
    cases hb
    rcases updateRows_cases "update venue derived from halls" (·.id == venueID) _ _ with ⟨e, he⟩ | ⟨n', db', he, hv', hs', hh', -⟩
    · rw [he] at hrows
      cases hrows
    rw [he] at hrows
    cases hrows
    refine ⟨?_, fun other _ => ?_, fun other ho => ?_, fun _ hat => ⟨v, Option.some.inj hat ▸ hfound⟩⟩
    · rw [hv, hv', List.map_map]
      congr 1
      funext r
      simp only [Function.comp, CardSql.row]
      rw [hh, hh']
      by_cases hr : r.id == venueID
      · simp only [hr, if_true]
        rfl
      · simp [hr]
    · unfold CardDB.servicesOf
      rw [hs, hs']
    · have hne : other ≠ venueID := fun h => ho (congrArg some h.symm)
      unfold CardDB.hallsOf
      rw [hh, hh', select_delete_others]
      · exact VenueRepo.upsertHalls_others hne hup
      · intro r _ hr
        have hr : r.venueID = venueID := by simpa using (Bool.and_eq_true_iff.1 (Bool.and_eq_true_iff.1 hr).1).1
        simpa [hr] using Ne.symm hne

/-- **What a statement leaves behind**: nothing new, a new card, or the rows it writes. -/
theorem CardSql.run_cases (rules : CardRules) (env : DbEnv) (s : CardSql) (db : CardDB) : (s.run rules env db).2 = db ∨
    (∃ v services halls, s = .create v services halls ∧
      CardRepo.Created rules env v services halls db (s.run rules env db).2) ∨
    s.Wrote rules env db (s.run rules env db).2 := by
  have hrows : ∀ {s : CardSql} {ctx : String} {p : VenueCard → Bool} {f : VenueCard → VenueCard},
      s.hallsAt = none → (∀ halls r, s.row rules env halls r = if p r then f r else r) →
      (s.run rules env db).2 = (CardRepo.updateRows ctx p f db).2 →
      (s.run rules env db).2 = db ∨ s.Wrote rules env db (s.run rules env db).2 := by
    intro s ctx p f hs hrow hrun
    rw [hrun]
    exact (CardRepo.updateRows_rows ctx p f db).imp id fun h => CardSql.Wrote.of_rows hs (fun r => hrow _ r) h
  have hphotos : ∀ {s : CardSql} {venueID ownerID : String} {body : CardDB → Except VenueErr Unit × CardDB},
      s.hallsAt = none →
      (∀ halls r, s.row rules env halls r = if r.id == venueID then CardRepo.resetToPendingReview env.now r else r) →
      (∀ db db₁, body db = (.ok (), db₁) → db₁.venues = db.venues ∧ db₁.services = db.services ∧ db₁.halls = db.halls) →
      (s.run rules env db).2 = (CardRepo.lockedEdit env venueID ownerID body db).2 →
      (s.run rules env db).2 = db ∨ s.Wrote rules env db (s.run rules env db).2 := by
    intro s venueID ownerID body hs hrow hbody hrun
    rw [hrun]
    exact (CardRepo.photoEdit_rows hbody db).imp id fun h => CardSql.Wrote.of_rows hs (fun r => hrow _ r) h
  have hor : ∀ {P Q R : Prop}, P ∨ R → P ∨ Q ∨ R := fun h => h.imp id .inr
  cases s with
  | create v services halls => exact (CardRepo.create_cases rules env v services halls db).imp id fun h => .inl ⟨v, _, _, rfl, h⟩
  | update v => exact hor (CardRepo.update_wrote v db)
  | updateStatus | suspendByOwner | submitDraftForReview | updateRating | setBookingMode =>
    exact hor (hrows rfl (fun _ _ => rfl) rfl)
  | editMedia venueID ownerID =>
    refine hor (hphotos rfl (fun _ _ => rfl) (fun db db₁ h => ?_) rfl)
    cases h
    exact ⟨rfl, rfl, rfl⟩
  | addVenuePhoto venueID ownerID url =>
    refine hor (hphotos rfl (fun _ _ => rfl) (fun db db₁ h => ?_) rfl)
    simp only at h
    split at h
    · cases h
    split at h
    · cases h
    cases h
    exact ⟨rfl, rfl, rfl⟩
  | deleteVenuePhoto venueID ownerID photoID =>
    refine hor (hphotos rfl (fun _ _ => rfl) (fun db db₁ h => ?_) rfl)
    simp only at h
    split at h
    · cases h
    obtain ⟨hv, hs, hh⟩ := CardRepo.recover_rest h
    exact ⟨hv, hs, hh⟩
  | setVenueCoverPhoto venueID ownerID photoID =>
    refine hor (hphotos rfl (fun _ _ => rfl) (fun db db₁ h => ?_) rfl)
    split at h
    · cases h
    · exact CardRepo.recover_rest h
  | replaceVenueServices venueID ownerID services => exact hor (CardRepo.replaceVenueServices_wrote venueID ownerID services db)
  | replaceVenueHalls venueID ownerID items => exact hor (CardRepo.replaceVenueHalls_wrote venueID ownerID items db)
  | _ => exact .inl rfl

end Statements

/-! ## Lookups after a statement -/

section Lookups

variable {rules : CardRules} {env : DbEnv} {s : CardSql} {db db' : CardDB}

theorem CardSql.Wrote.venue (h : s.Wrote rules env db db') (venueID : String) :
    db'.venue venueID = (db.venue venueID).map (s.row rules env db'.halls) := by
  unfold CardDB.venue Table.get
  rw [h.venues, List.find?_map]
  congr 2
  funext r
  simp

namespace CardRepo.Created

variable {v : VenueCard} {services : List VenueService} {halls : List VenueHall}

theorem venue_other (h : Created rules env v services halls db db') {venueID : String} (ho : venueID ≠ env.newID 0) :
    db'.venue venueID = db.venue venueID := by
  obtain ⟨card, hrows, hid, -⟩ := h.card
  unfold CardDB.venue Table.get
  rw [hrows, List.find?_append, List.find?_singleton, if_neg, Option.or_none]
  simpa [hid] using Ne.symm ho

theorem venue_new (h : Created rules env v services halls db db') : ∃ card, db'.venue (env.newID 0) = some card ∧
    card.status = v.status ∧ card.ownerID = v.ownerID ∧
    (halls ≠ [] → (card.priceFrom, card.priceWeekend, card.capacity, card.amenities) =
      VenueRepo.derivedVenueFieldsFromHalls rules.lower halls) := by
  obtain ⟨card, hrows, hid, hcard⟩ := h.card
  refine ⟨card, ?_, hcard⟩
  have hnone : db.venues.rows.find? (·.id == env.newID 0) = none := h.fresh
  unfold CardDB.venue Table.get
  rw [hrows, List.find?_append, hnone, List.find?_singleton, if_pos (by simp [hid])]
  rfl

theorem halls_other (h : Created rules env v services halls db db') {venueID : String} (ho : venueID ≠ env.newID 0) :
    db'.hallsOf venueID = db.hallsOf venueID := by
  unfold CardDB.hallsOf Table.select
  rw [h.addsHalls, List.filter_append]
  refine List.append_right_eq_self.2 (List.filter_eq_nil_iff.2 fun r hr => ?_)
  obtain ⟨⟨h, k⟩, -, rfl⟩ := List.mem_map.1 hr
  simpa using Ne.symm ho

theorem halls_new (h : Created rules env v services halls db db') : db'.hallsOf (env.newID 0) = db.hallsOf (env.newID 0) ++
    hallRows env.now (fun i => env.newID (i + services.length + 1)) (env.newID 0) halls := by
  unfold CardDB.hallsOf Table.select
  rw [h.addsHalls, List.filter_append]
  congr 1
  refine List.filter_eq_self.2 fun r hr => ?_
  obtain ⟨⟨h, k⟩, -, rfl⟩ := List.mem_map.1 hr
  simp

theorem services_other (h : Created rules env v services halls db db') {venueID : String} (ho : venueID ≠ env.newID 0) :
    db'.servicesOf venueID = db.servicesOf venueID := by
  unfold CardDB.servicesOf Table.select
  rw [h.addsServices, List.filter_append]
  refine List.append_right_eq_self.2 (List.filter_eq_nil_iff.2 fun r hr => ?_)
  obtain ⟨⟨s, k⟩, -, rfl⟩ := List.mem_map.1 hr
  simpa using Ne.symm ho

end CardRepo.Created

/-- **An operation leaves the tables alone, or they are as a statement leaves them.** -/
theorem CardWorld.Exec.tables {o : CardOp} {w w' : CardWorld} {r : o.Res} (h : CardWorld.Exec rules o w r w') : w'.db = w.db ∨
    ∃ s env, o = .sql s ∧ (∀ l, (env.order l).Perm l) ∧ w'.db = (s.run rules env w.db).2 := by
  obtain ⟨env, -, horder, -, hrun⟩ := h
  cases o with
  | sql s =>
    have hrun := Prod.mk.inj (Option.some.inj hrun)
    rw [← hrun.2]
    exact (env.fault.apply_state id (s.run rules env.db) w.db).imp id fun h => ⟨s, env.db, rfl, horder, h⟩
  | cacheSet v =>
    have hrun := Prod.mk.inj (Option.some.inj hrun)
    left
    rw [← hrun.2]
    by_cases hh : env.hit = true
    · rw [if_pos hh]
    · rw [if_neg hh]
  | cacheDel venueID =>
    have hrun := Prod.mk.inj (Option.some.inj hrun)
    left
    rw [← hrun.2]
    by_cases hh : env.hit = true
    · rw [if_pos hh]
    · rw [if_neg hh]
  | enter venueID =>
    left
    simp only [CardWorld.run] at hrun
    split at hrun
    · rw [← (Prod.mk.inj (Option.some.inj hrun)).2]
    · rw [← (Prod.mk.inj (Option.some.inj hrun)).2]
  | await n =>
    left
    simp only [CardWorld.run] at hrun
    split at hrun
    · rw [← (Prod.mk.inj (Option.some.inj hrun)).2]
    · cases hrun
  | _ =>
    left
    rw [← (Prod.mk.inj (Option.some.inj hrun)).2]

theorem CardWorld.Passes.tables {w w' : CardWorld} (h : w.Passes w') : w'.db = w.db := by
  obtain ⟨later, cache, -, -, rfl⟩ := h
  rfl

end Lookups

end Agregator
