import Agregator.VenueCache
import Agregator.VenueMerge
/-!
# VenueCoherent — the copies of a venue and the tables

Whoever writes a venue owes the deletion of its two copies, so a copy that differs from the tables is one that somebody has
still to delete.  A new rating deletes one copy alone, and a read can store what has been written meanwhile: the runs without
these end with copies that are what the tables show.
-/
namespace Agregator

open Rel Conc

/-! ## What a statement leaves of a venue -/

/-- The venue whose photos a statement writes. -/
def CardSql.photosAt : CardSql → Option String
  | addVenuePhoto venueID _ _ | deleteVenuePhoto venueID _ _ | setVenueCoverPhoto venueID _ _ => some venueID
  | _ => none

/-- The venue that a statement is about. -/
def CardSql.venueID : CardSql → Option String
  | update v => some v.id
  | updateStatus venueID _ _ _ | submitDraftForReview venueID _ | updateRating venueID _ _ | setBookingMode venueID _
  | editMedia venueID _ | addVenuePhoto venueID _ _ | deleteVenuePhoto venueID _ _ | setVenueCoverPhoto venueID _ _
  | replaceVenueServices venueID _ _ | replaceVenueHalls venueID _ _ => some venueID
  | _ => none

/-- The rows that a statement may write, with what hangs on them. -/
def CardSql.touches : CardSql → VenueCard → Bool
  | suspendByOwner ownerID, r => r.ownerID == ownerID && r.status != .suspended
  | submitDraftForReview venueID ownerID, r => r.id == venueID && r.ownerID == ownerID && r.status == .draft
  | s, r => s.venueID == some r.id

section Frames

variable {rules : CardRules} {env : DbEnv}

theorem CardRepo.lockedEdit_photos {venueID ownerID y : String} {body : CardDB → Except VenueErr Unit × CardDB} {db : CardDB}
    (hbody : ∀ db₁, body db = (.ok (), db₁) → db₁.photosOf y = db.photosOf y) :
    (lockedEdit env venueID ownerID body db).2.photosOf y = db.photosOf y := by
  rcases lockedEdit_cases venueID ownerID body db with h | ⟨-, db₁, -, hb, -, -, -, hp⟩
  · rw [h]
  · rw [← hbody db₁ hb]
    unfold CardDB.photosOf
    rw [hp]

theorem CardRepo.recover_photos {venueID y : String} (hy : y ≠ venueID) {cover : Option String} {db db₁ : CardDB}
    (h : recover venueID cover db = (.ok (), db₁)) : db₁.photosOf y = db.photosOf y := by
  unfold recover at h
  split at h
  · cases h
  · rename_i photos hu
    cases h
    refine Table.select_update_others hu fun r _ hr => ?_
    have hv : r.venueID = venueID := by simpa using hr
    simp [hv, Ne.symm hy]

/-- **The photos of the other venues stay.** -/
theorem CardSql.run_photos (s : CardSql) (db : CardDB) {y : String} (hy : s.photosAt ≠ some y) :
    (s.run rules env db).2.photosOf y = db.photosOf y := by
  have hrows : ∀ (ctx : String) (p : VenueCard → Bool) (f : VenueCard → VenueCard) (db : CardDB),
      (CardRepo.updateRows ctx p f db).2.photosOf y = db.photosOf y := by
    intro ctx p f db
    unfold CardDB.photosOf
    rcases CardRepo.updateRows_cases ctx p f db with ⟨e, h⟩ | ⟨n, db', h, -, -, -, hp⟩
    · rw [h]
    · rw [h, hp]
  cases s with
  | create v services halls =>
    rcases CardRepo.create_cases rules env v services halls db with h | h
    · exact congrArg (CardDB.photosOf · y) h
    · unfold CardDB.photosOf
      exact congrArg (Table.select · _) h.keepsPhotos
  | update v =>
    simp only [run, CardRepo.update]
    split
    · exact hrows _ _ _ db
    · rfl
  | updateStatus | suspendByOwner | submitDraftForReview | updateRating | setBookingMode => exact hrows _ _ _ db
  | editMedia venueID ownerID =>
    refine CardRepo.lockedEdit_photos fun db₁ h => ?_
    cases h
    rfl
  | addVenuePhoto venueID ownerID url =>
    have hne : y ≠ venueID := fun h => hy (congrArg some h.symm)
    refine CardRepo.lockedEdit_photos fun db₁ h => ?_
    simp only at h
    split at h
    · cases h
    split at h
    · cases h
    rename_i photos hi
    cases h
    unfold CardDB.photosOf
    rw [Table.select_insert hi]
    simp [Ne.symm hne]
  | deleteVenuePhoto venueID ownerID photoID =>
    have hne : y ≠ venueID := fun h => hy (congrArg some h.symm)
    refine CardRepo.lockedEdit_photos fun db₁ h => ?_
    simp only at h
    split at h
    · cases h
    rw [CardRepo.recover_photos hne h]
    unfold CardDB.photosOf
    refine select_delete_others _ fun r _ hr => ?_
    have hv : r.venueID = venueID := by simpa using (Bool.and_eq_true_iff.1 hr).2
    simp [hv, Ne.symm hne]
  | setVenueCoverPhoto venueID ownerID photoID =>
    have hne : y ≠ venueID := fun h => hy (congrArg some h.symm)
    refine CardRepo.lockedEdit_photos fun db₁ h => ?_
    split at h
    · cases h
    · exact CardRepo.recover_photos hne h
  | replaceVenueServices venueID ownerID services =>
    simp only [run, CardRepo.replaceVenueServices]
    split
    · rfl
    · split <;> rfl
  | replaceVenueHalls venueID ownerID items =>
    refine CardRepo.lockedEdit_photos fun db₁ h => ?_
    simp only at h
    split at h
    · cases h
    split at h
    · cases h
    rename_i n db₂ hr
    cases h
    exact (congrArg (fun x => x.2.photosOf y) hr).symm.trans (hrows _ _ _ _)
  | _ => rfl

@[simp] theorem CardSql.row_slug (s : CardSql) (halls : Table venueHallSchema) (r : VenueCard) :
    (s.row rules env halls r).slug = r.slug :=
  s.row_keeps r (·.slug) (CardRepo.resetToPendingReview_keeps (·.slug) fun _ _ => rfl)
    (fun _ _ _ _ _ => CardRepo.resetToPendingReview_keeps (·.slug) (fun _ _ => rfl) _ _) (fun _ _ _ _ _ => rfl) (fun _ _ => rfl)
    (fun _ _ => rfl) (fun _ _ _ _ => rfl) (fun _ _ => rfl) fun _ _ _ => rfl

theorem CacheKey.holds_row (key : CacheKey) (s : CardSql) (halls : Table venueHallSchema) (r : VenueCard) :
    key.holds (s.row rules env halls r) = key.holds r := by
  cases key <;> simp [holds]

/-- A row that is not touched stays. -/
theorem CardSql.row_of_untouched (s : CardSql) (halls : Table venueHallSchema) {r : VenueCard} (hr : s.touches r = false) :
    s.row rules env halls r = r := by
  cases s with
  | suspendByOwner ownerID | submitDraftForReview venueID ownerID =>
    simp only [touches] at hr
    simp only [row, hr, Bool.false_eq_true, if_false]
  | update | updateStatus | updateRating | setBookingMode | editMedia | addVenuePhoto | deleteVenuePhoto | setVenueCoverPhoto
  | replaceVenueHalls =>
    exact if_neg fun h => absurd hr (by simp [touches, venueID, beq_iff_eq.1 h])
  | _ => rfl

/-- **What the tables show of a venue that is not touched stays.** -/
theorem CardSql.run_view (s : CardSql) {db : CardDB} {key : CacheKey} {r : VenueCard} (hget : db.venues.get key.holds = some r)
    (hr : s.touches r = false) : (s.run rules env db).2.view key = db.view key := by
  have hservices : s.servicesAt ≠ some r.id := by
    intro h
    cases s <;> cases h
    exact absurd hr (by simp [touches, venueID])
  have hhalls : s.hallsAt ≠ some r.id := by
    intro h
    cases s <;> cases h
    exact absurd hr (by simp [touches, venueID])
  have hphotos : s.photosAt ≠ some r.id := by
    intro h
    cases s <;> cases h <;> exact absurd hr (by simp [touches, venueID])
  -- what hangs on the row is read by its key, so it is enough to find the same row
  suffices h : (s.run rules env db).2.venues.get key.holds = some r ∧ (s.run rules env db).2.servicesOf r.id = db.servicesOf r.id ∧
      (s.run rules env db).2.hallsOf r.id = db.hallsOf r.id by
    obtain ⟨hr', hs', hh'⟩ := h
    unfold CardDB.view
    rw [hr', hget, Option.map_some, Option.map_some]
    unfold CardDB.details
    rw [hs', hh', s.run_photos db hphotos]
  rcases s.run_cases rules env db with h | ⟨v, services, halls, -, h⟩ | h
  · rw [h]
    exact ⟨hget, rfl, rfl⟩
  · obtain ⟨card, hrows, -⟩ := h.card
    have hne : r.id ≠ env.newID 0 := by
      intro hid
      have hnone := Table.get_eq_none.1 h.fresh r (Table.get_mem hget).1
      simp [hid] at hnone
    refine ⟨?_, h.services_other hne, h.halls_other hne⟩
    unfold Table.get at hget ⊢
    rw [hrows, List.find?_append, hget]
    rfl
  · refine ⟨?_, h.services _ hservices, h.halls _ hhalls⟩
    unfold Table.get at hget ⊢
    have hsame : (key.holds ∘ s.row rules env (s.run rules env db).2.halls) = key.holds := funext fun x => key.holds_row s _ x
    rw [h.venues, List.find?_map, hsame, hget, Option.map_some, s.row_of_untouched _ hr]

/-- No statement takes a venue away, or changes its key or its slug. -/
theorem CardSql.run_has (s : CardSql) {db : CardDB} {x sl : String} (h : db.Has x sl) : (s.run rules env db).2.Has x sl := by
  obtain ⟨r, hr, hid, hsl⟩ := h
  rcases s.run_cases rules env db with h | ⟨v, services, halls, -, h⟩ | h
  · rw [h]
    exact ⟨r, hr, hid, hsl⟩
  · obtain ⟨card, hrows, -⟩ := h.card
    exact ⟨r, by rw [hrows]; exact List.mem_append_left _ hr, hid, hsl⟩
  · refine ⟨s.row rules env (s.run rules env db).2.halls r, ?_, by rw [s.row_id, hid], by rw [s.row_slug, hsl]⟩
    rw [h.venues]
    exact List.mem_map_of_mem hr

/-- A key is of one venue. -/
theorem CardDB.Has.unique {db : CardDB} {x sl : String} (h : db.Has x sl) {r : VenueCard} (hr : r ∈ db.venues.rows)
    (hid : r.id = x) : r.slug = sl := by
  obtain ⟨r', hr', hid', hsl⟩ := h
  have heq : r = r' := db.venues.eq_of_clash hr hr' (by simp [venueCardSchema, hid, hid'])
  rw [heq, hsl]

end Frames

/-! ## What a call owes -/

/-- A statement is answered, and finds the venue it looks up. -/
def Replied : Event VenueOp VenueOp.Res → Prop
  | ⟨.sql (.getVenue _), res⟩ => ∃ card, res = .ok (some card)
  | ⟨.sql _, res⟩ => ∃ a, res = .ok a
  | _ => True

/-- The answers of a call that has written the venue with the key `x` and the slug `sl`. -/
def Found (x sl : String) (o : VenueOp) (r : o.Res) : Prop :=
  Replied ⟨o, r⟩ ∧ ∀ card, (⟨o, r⟩ : Event VenueOp VenueOp.Res) = ⟨.sql (.getVenue x), .ok (some card)⟩ → card.slug = sl

/-- The program deletes the copy under the key. -/
def Drops (x sl : String) (key : CacheKey) (p : VenueProg CacheAnswer) : Prop := p.Due (Found x sl) (· = .cacheDel key)

/-- The program deletes both copies of the venue, of which the slug may be empty. -/
def DropsBoth (x sl : String) (p : VenueProg CacheAnswer) : Prop :=
  Drops x sl (.id x) p ∧ (sl ≠ "" → Drops x sl (.slug sl) p)

/-- A call knows the slug of a venue: it is given, or read. -/
inductive CopyKnown (call : CacheCall) (h : List (Event VenueOp VenueOp.Res)) : String → String → Prop where
  | given (v : VenueCard) : call = .update v → CopyKnown call h v.id v.slug
  | read (x : String) (card : VenueCard) : ⟨.sql (.getVenue x), .ok (some card)⟩ ∈ h → CopyKnown call h x card.slug
  | listed (ownerID : String) (cards : List VenueCard) (card : VenueCard) :
      ⟨.sql (.listByOwner ownerID), .ok cards⟩ ∈ h → card ∈ cards → CopyKnown call h card.id card.slug

/-- What is left of a call once its statement has been answered so. -/
def Pays (call : CacheCall) (h : List (Event VenueOp VenueOp.Res)) : (s : CardSql) → s.Ans → VenueProg CacheAnswer → Prop
  | .updateRating x _ _, _, p => ∀ sl, Drops x sl (.id x) p
  | .suspendByOwner ownerID, _, p => ∀ cards, ⟨.sql (.listByOwner ownerID), .ok cards⟩ ∈ h → ∀ card ∈ cards, DropsBoth card.id card.slug p
  | .submitDraftForReview x _, n, p => n ≠ 0 → ∃ sl, CopyKnown call h x sl ∧ DropsBoth x sl p
  | .setBookingMode _ _, _, _ => False
  | .update v, _, p => ∃ sl, CopyKnown call h v.id sl ∧ DropsBoth v.id sl p
  | .updateStatus x _ _ _, _, p | .editMedia x _, _, p | .addVenuePhoto x _ _, _, p | .deleteVenuePhoto x _ _, _, p
  | .setVenueCoverPhoto x _ _, _, p | .replaceVenueServices x _ _, _, p | .replaceVenueHalls x _ _, _, p =>
    ∃ sl, CopyKnown call h x sl ∧ DropsBoth x sl p
  | _, _, _ => True

/-- Every statement is followed by the deletions it makes due. -/
def Careful (call : CacheCall) (h : List (Event VenueOp VenueOp.Res)) : (o : VenueOp) → (o.Res → VenueProg CacheAnswer) → Prop
  | .sql s, k => ∀ a, Pays call h s a (k (.ok a))
  | _, _ => True

/-- An operation that makes nothing due. -/
def Idle : VenueOp → Prop
  | .sql (.getVenue _) | .sql (.getServices _) | .sql (.getPhotos _) | .sql (.getHalls _) | .sql (.getBySlug _)
  | .sql (.listByOwner _) | .sql (.create ..) => True
  | .sql _ => False
  | _ => True

theorem Idle.careful {call : CacheCall} (h : List (Event VenueOp VenueOp.Res)) (o : VenueOp) (k : o.Res → VenueProg CacheAnswer)
    (ho : Idle o) : Careful call h o k := by
  cases o with
  | sql s =>
    intro a
    cases s <;> trivial
  | _ => trivial

namespace CachedVenue

variable {x sl : String}

theorem invalidateCache_both (f : Unit → VenueProg CacheAnswer) : DropsBoth x sl ((invalidateCache x sl).bind f) := by
  refine ⟨.inl rfl, fun hsl => .inr fun r _ => ?_⟩
  simp only [if_neg hsl]
  exact .inl rfl

theorem invalidateCache_id (slug : String) (f : Unit → VenueProg CacheAnswer) : Drops x sl (.id x) ((invalidateCache x slug).bind f) :=
  .inl rfl

theorem repoGet_idle (key : CacheKey) : (repoGet key).All Idle := by
  have hdetails : ∀ card, (attachDetails card).All Idle := by
    intro card
    simp only [attachDetails, Prog.bind_eq, Prog.perform_bind, Prog.pure_eq]
    refine ⟨trivial, fun services => ?_⟩
    cases services with
    | error e => trivial
    | ok services =>
      refine ⟨trivial, fun photos => ?_⟩
      cases photos with
      | error e => trivial
      | ok photos =>
        refine ⟨trivial, fun halls => ?_⟩
        cases halls <;> trivial
  have hselect : (selectVenue key).All Idle := by
    cases key <;> exact ⟨trivial, fun _ => trivial⟩
  refine Prog.All.bind (fun row => ?_) hselect
  match row with
  | .error e => trivial
  | .ok none => trivial
  | .ok (some card) => exact hdetails card

theorem readVenue_idle (x : String) : (readVenue x).All Idle := by
  refine Prog.All.bind (fun res => ?_) (repoGet_idle (.id x))
  match res with
  | .error e => trivial
  | .ok none => trivial
  | .ok (some v) => trivial

theorem readVenue_known (call : CacheCall) (x : String) (h : List (Event VenueOp VenueOp.Res)) :
    (readVenue x).Ends (fun h' res => ∀ v, res = .ok v → CopyKnown call h' x v.card.slug) h := by
  simp only [readVenue, repoGet, selectVenue, attachDetails, Prog.bind_eq, Prog.perform_bind, Prog.pure_eq, Prog.bind_call]
  intro row
  match row with
  | .error e => exact fun v hv => nomatch hv
  | .ok none => exact fun v hv => nomatch hv
  | .ok (some card) =>
    intro services
    cases services with
    | error e => exact fun v hv => nomatch hv
    | ok services =>
      intro photos
      cases photos with
      | error e => exact fun v hv => nomatch hv
      | ok photos =>
        intro halls
        cases halls with
        | error e => exact fun v hv => nomatch hv
        | ok halls =>
          intro v hv
          have hcard : v.card = card := congrArg VenueDetails.card (Except.ok.inj hv).symm
          rw [hcard]
          refine .read x card ?_
          iterate 3 apply List.mem_append_left
          exact List.mem_append_right _ (List.mem_singleton.2 rfl)

theorem readVenue_found : (readVenue x).Yields (Found x sl) (fun res => ∃ v, res = .ok v ∧ v.card.slug = sl) := by
  simp only [readVenue, repoGet, selectVenue, attachDetails, Prog.bind_eq, Prog.perform_bind, Prog.pure_eq, Prog.bind_call]
  rintro row ⟨⟨card, rfl⟩, hslug⟩
  rintro services ⟨⟨services, rfl⟩, -⟩ photos ⟨⟨photos, rfl⟩, -⟩ halls ⟨⟨halls, rfl⟩, -⟩
  exact ⟨⟨card, services, photos, halls⟩, rfl, hslug card rfl⟩

theorem invalidateCache_idle (x slug : String) : (invalidateCache x slug).All Idle := by
  refine ⟨trivial, fun _ => ?_⟩
  by_cases h : slug = ""
  · simp only [if_pos h]
    trivial
  · simp only [if_neg h]
    exact ⟨trivial, fun _ => trivial⟩

/-- A transaction on a venue, whose call has both copies to delete. -/
def Scoped (x : String) (s : CardSql) : Prop :=
  ∀ call h a p, (∃ sl, CopyKnown call h x sl ∧ DropsBoth x sl p) → Pays call h s a p

theorem edit_along {call : CacheCall} {check : VenueDetails → Except Err CardSql} (hcheck : ∀ v s, check v = .ok s → Scoped x s)
    (writeErr : VenueErr → Err) : (CacheCall.prog.written (edit x check writeErr)).Along (Careful call) [] := by
  unfold CacheCall.prog.written edit
  simp only [Prog.bind_eq, Prog.bind_assoc]
  refine Prog.Along.bind (Idle.careful) (fun h res hres => ?_) (readVenue_idle x) (readVenue_known call x [])
  cases res with
  | error e => trivial
  | ok v =>
    cases hc : check v with
    | error e =>
      simp only [hc]
      trivial
    | ok s =>
      simp only [hc, Prog.perform_bind]
      refine ⟨fun a => hcheck v s hc _ _ _ _ ⟨v.card.slug, hres v rfl, ?_⟩, fun r => ?_⟩
      · simp only [Prog.bind_assoc]
        exact invalidateCache_both _
      · cases r with
        | error e => trivial
        | ok a =>
          refine Prog.Along.of_all Idle.careful ?_
          simp only [Prog.bind_assoc]
          refine Prog.All.bind (fun _ => ?_) (invalidateCache_idle _ _)
          trivial

/-- What follows a change of the status: the venue is read again, and its copies are deleted. -/
def reread (x : String) : VenueProg (Except Err Unit) :=
  (readVenue x).bind fun res =>
    match res with
    | .error e => .ret (.error e)
    | .ok v => (invalidateCache x v.card.slug).bind fun _ => .ret (.ok ())

theorem reread_both (x : String) (f : Except Err Unit → VenueProg CacheAnswer) : DropsBoth x sl ((reread x).bind f) := by
  unfold reread
  rw [Prog.bind_assoc]
  constructor
  · refine readVenue_found.due ?_
    rintro _ ⟨v, rfl, -⟩
    simp only [Prog.bind_assoc]
    exact invalidateCache_id _ _
  · intro hsl
    refine readVenue_found.due ?_
    rintro _ ⟨v, rfl, rfl⟩
    simp only [Prog.bind_assoc]
    exact (invalidateCache_both _).2 hsl

theorem reread_idle (x : String) : (reread x).All Idle := by
  refine Prog.All.bind (fun res => ?_) (readVenue_idle x)
  cases res with
  | error e => trivial
  | ok v =>
    refine Prog.All.bind (fun _ => ?_) (invalidateCache_idle _ _)
    trivial

theorem submitVenueForReview_along {call : CacheCall} (rules : CardRules) (x ownerID : String) :
    (CacheCall.prog.written (submitVenueForReview rules x ownerID)).Along (Careful call) [] := by
  unfold CacheCall.prog.written submitVenueForReview
  simp only [Prog.bind_eq, Prog.bind_assoc]
  refine Prog.Along.bind (Idle.careful) (fun h res hres => ?_) (readVenue_idle x) (readVenue_known call x [])
  cases res with
  | error e => trivial
  | ok v =>
    by_cases hdraft : v.card.ownerID ≠ ownerID ∨ v.card.status ≠ .draft
    · simp only [if_pos hdraft]
      trivial
    simp only [if_neg hdraft]
    cases hready : validateVenueDraftReadyForReview rules v with
    | error e =>
      simp only
      trivial
    | ok _ =>
      simp only [Prog.perform_bind]
      refine ⟨fun n hn => ⟨v.card.slug, hres v rfl, ?_⟩, fun r => ?_⟩
      · simp only [if_neg hn]
        exact reread_both x _
      · cases r with
        | error e => trivial
        | ok n =>
          by_cases hn : n = 0
          · simp only [if_pos hn]
            trivial
          · simp only [if_neg hn]
            refine Prog.Along.of_all Idle.careful (Prog.All.bind (fun _ => ?_) (reread_idle x))
            trivial

theorem moderateAs_along {call : CacheCall} (x action comment moderatedBy : String) :
    (CacheCall.prog.written (moderateAs x action comment moderatedBy)).Along (Careful call) [] := by
  unfold CacheCall.prog.written moderateAs
  simp only [Prog.bind_eq, Prog.bind_assoc]
  refine Prog.Along.bind (Idle.careful) (fun h res hres => ?_) (readVenue_idle x) (readVenue_known call x [])
  cases res with
  | error e => trivial
  | ok v =>
    cases hstatus : VenueUseCase.newStatus v.card.status action with
    | error e =>
      simp only [hstatus]
      trivial
    | ok status =>
      simp only [hstatus]
      by_cases hcomment : (action = "reject" ∨ action = "suspend") ∧ comment = ""
      · simp only [if_pos hcomment]
        trivial
      simp only [if_neg hcomment, Prog.perform_bind]
      refine ⟨fun n => ⟨v.card.slug, hres v rfl, reread_both x _⟩, fun r => ?_⟩
      cases r with
      | error e => trivial
      | ok n =>
        refine Prog.Along.of_all Idle.careful (Prog.All.bind (fun _ => ?_) (reread_idle x))
        trivial

theorem invalidateCache_yields (v slug : String) : (invalidateCache v slug).Yields (Found x sl) fun _ => True := by
  intro _ _
  by_cases h : slug = ""
  · simp only [if_pos h]
    trivial
  · simp only [if_neg h]
    exact fun _ _ => trivial

theorem dropCopies_both (f : Unit → VenueProg CacheAnswer) {cards : List VenueCard} {card : VenueCard} (hmem : card ∈ cards) :
    DropsBoth card.id card.slug ((dropCopies cards).bind f) := by
  induction cards with
  | nil => cases hmem
  | cons v vs ih =>
    unfold dropCopies
    rw [Prog.bind_assoc]
    rcases List.mem_cons.1 hmem with rfl | hmem
    · exact invalidateCache_both _
    · obtain ⟨hid, hslug⟩ := ih hmem
      refine ⟨?_, fun hsl => ?_⟩
      · exact (invalidateCache_yields v.id v.slug).due fun _ _ => hid
      · exact (invalidateCache_yields v.id v.slug).due fun _ _ => hslug hsl

theorem dropCopies_idle : ∀ cards : List VenueCard, (dropCopies cards).All Idle
  | [] => trivial
  | _ :: vs => Prog.All.bind (fun _ => dropCopies_idle vs) (invalidateCache_idle _ _)

theorem suspendByOwner_along {call : CacheCall} (ownerID : String) :
    (CacheCall.prog.written (suspendByOwner ownerID)).Along (Careful call) [] := by
  unfold CacheCall.prog.written suspendByOwner
  simp only [Prog.bind_eq, Prog.perform_bind]
  refine ⟨fun _ => trivial, fun listed => ?_⟩
  cases listed with
  | error e => trivial
  | ok venues =>
    simp only [Prog.bind_call]
    refine ⟨fun n cards hcards card hcard => ?_, fun r => ?_⟩
    · have hsame : cards = venues := by
        have hevent := List.mem_singleton.1 hcards
        exact Except.ok.inj (eq_of_heq (Sigma.mk.inj hevent).2)
      rw [hsame] at hcard
      simp only [Prog.bind_assoc]
      exact dropCopies_both _ hcard
    · cases r with
      | error e => trivial
      | ok n =>
        refine Prog.Along.of_all Idle.careful ?_
        simp only [Prog.bind_assoc]
        refine Prog.All.bind (fun _ => ?_) (dropCopies_idle venues)
        trivial

theorem updateRating_along {call : CacheCall} (x : String) (avgRating : ℚ) (reviewCount : ℤ) :
    (CacheCall.prog.written (updateRating x avgRating reviewCount)).Along (Careful call) [] := by
  unfold CacheCall.prog.written updateRating
  by_cases hrating : avgRating < 0 ∨ 5 < avgRating
  · simp only [if_pos hrating]
    trivial
  by_cases hcount : reviewCount < 0
  · simp only [if_neg hrating, if_pos hcount]
    trivial
  simp only [if_neg hrating, if_neg hcount, Prog.bind_eq, Prog.perform_bind, Prog.bind_call]
  refine ⟨fun n sl => ?_, fun r => ?_⟩
  · simp only [Prog.bind_assoc]
    exact invalidateCache_id _ _
  · cases r with
    | error e => trivial
    | ok n =>
      refine Prog.Along.of_all Idle.careful ?_
      simp only [Prog.bind_assoc]
      refine Prog.All.bind (fun _ => ?_) (invalidateCache_idle _ _)
      trivial

/-- The coordinates of the address change neither the key nor the slug. -/
theorem resolved_ends (v : VenueCard) (h : List (Event VenueOp VenueOp.Res)) :
    ((VenueUseCase.resolveCoordinates v).lift CardOp.keyed CardOp.ofKeyed).Ends (fun _ u => u.id = v.id ∧ u.slug = v.slug) h := by
  unfold VenueUseCase.resolveCoordinates
  split
  · exact ⟨rfl, rfl⟩
  · intro point
    rcases point with _ | ⟨lat, lng⟩ <;> exact ⟨rfl, rfl⟩

theorem resolved_idle (v : VenueCard) : ((VenueUseCase.resolveCoordinates v).lift CardOp.keyed CardOp.ofKeyed).All Idle := by
  unfold VenueUseCase.resolveCoordinates
  split
  · trivial
  · refine ⟨trivial, fun point => ?_⟩
    rcases point with _ | ⟨lat, lng⟩ <;> trivial

theorem update_along (rules : CardRules) (v : VenueCard) :
    (CacheCall.prog.written (update rules v)).Along (Careful (.update v)) [] := by
  unfold CacheCall.prog.written update
  cases hv : normalizeCard rules (validateVenueVerificationForUpdate rules) v with
  | error e => trivial
  | ok v' =>
    have hsame : v'.id = v.id ∧ v'.slug = v.slug := by
      obtain ⟨u, sl, hu, -, rfl⟩ := normalizeCard_ok hv
      rcases validateVenueVerificationForUpdate_ok hu with rfl | ⟨rfl, -⟩ <;> exact ⟨rfl, rfl⟩
    simp only [Prog.bind_eq, Prog.bind_assoc]
    refine Prog.Along.bind Idle.careful (fun h u hu => ?_) (resolved_idle v') (resolved_ends v' [])
    have hknown : CopyKnown (.update v) h u.id u.slug := by
      rw [hu.1, hu.2, hsame.1, hsame.2]
      exact .given v rfl
    simp only [Prog.perform_bind]
    refine ⟨fun n => ⟨u.slug, hknown, ?_⟩, fun r => ?_⟩
    · simp only [Prog.bind_assoc]
      exact invalidateCache_both _
    · cases r with
      | error e => trivial
      | ok n =>
        refine Prog.Along.of_all Idle.careful ?_
        simp only [Prog.bind_assoc]
        refine Prog.All.bind (fun _ => ?_) (invalidateCache_idle _ _)
        trivial

theorem repoCreate_idle (rules : CardRules) (v : VenueCard) (services : List VenueService) (halls : List VenueHall) :
    ((VenueUseCase.repoCreate rules v services halls).lift CardOp.keyed CardOp.ofKeyed).All Idle := by
  refine ⟨trivial, fun r => ?_⟩
  show Prog.All _ (Prog.lift _ _ (if _ then _ else _))
  split
  · refine ⟨trivial, fun id => ⟨trivial, fun r => ?_⟩⟩
    trivial
  · refine ⟨trivial, fun r => ?_⟩
    trivial

theorem create_idle (rules : CardRules) (v : VenueCard) (services : List VenueService) (halls : List VenueHall) :
    (create rules v services halls).All Idle := by
  unfold create
  cases normalizeCard rules (validateVenueVerificationCore rules) v with
  | error e => trivial
  | ok v =>
    simp only
    split
    · trivial
    split
    · trivial
    refine Prog.All.bind (fun v => ?_) (resolved_idle v)
    refine Prog.All.bind (fun res => ?_) (repoCreate_idle rules v services _)
    cases res with
    | error e => trivial
    | ok v =>
      refine Prog.All.bind (fun _ => ?_) (invalidateCache_idle _ _)
      trivial

theorem getUncached_idle (key : CacheKey) : (getUncached key).All Idle := by
  simp only [getUncached, Prog.bind_eq, Prog.perform_bind, Prog.pure_eq]
  refine ⟨trivial, fun copy => ?_⟩
  cases copy with
  | some v => trivial
  | none =>
    refine Prog.All.bind (fun res => ?_) (repoGet_idle key)
    match res with
    | .ok (some v) => exact ⟨trivial, fun _ => trivial⟩
    | .ok none => trivial
    | .error e => trivial

theorem get_idle (key : CacheKey) : (get key).All Idle := by
  simp only [get, Prog.bind_eq, Prog.perform_bind, Prog.pure_eq]
  refine ⟨trivial, fun flight => ?_⟩
  cases flight with
  | follow n => exact ⟨trivial, fun _ => trivial⟩
  | lead n =>
    refine Prog.All.bind (fun res => ?_) (getUncached_idle key)
    exact ⟨trivial, fun _ => trivial⟩

/-- A transaction of the owner. -/
theorem owned_scoped {x ownerID : String} {s : CardSql} (hs : Scoped x s) {v : VenueDetails} {s' : CardSql}
    (h : owned ownerID s v = .ok s') : Scoped x s' := by
  unfold owned at h
  split at h
  · cases h
  · cases h
    exact hs

end CachedVenue

open CachedVenue in
/-- **Every call is careful**: it deletes what its writes make due. -/
theorem CacheCall.prog_along (rules : CardRules) (call : CacheCall) : (call.prog rules).Along (Careful call) [] := by
  have hidle : ∀ {p : VenueProg (Except Err Unit)}, p.All Idle → (CacheCall.prog.written p).Along (Careful call) [] := by
    intro p hp
    refine Prog.Along.of_all Idle.careful (Prog.All.bind (fun _ => ?_) hp)
    trivial
  cases call with
  | getByID venueID => exact Prog.Along.of_all Idle.careful (get_idle _)
  | getBySlug slug => exact Prog.Along.of_all Idle.careful (get_idle _)
  | create v services halls => exact hidle (create_idle rules v services halls)
  | update v => exact update_along rules v
  | replaceVenueServices x ownerID services =>
    simp only [prog, CachedVenue.replaceVenueServices]
    cases VenueUseCase.checkServices services with
    | error e => trivial
    | ok _ => exact edit_along (fun v s hs => owned_scoped (s := .replaceVenueServices x ownerID _) (fun _ _ _ _ hp => hp) hs) _
  | replaceVenueHalls x ownerID items =>
    refine edit_along ?_ _
    intro v s hs
    split at hs
    · cases hs
    rename_i s' ho
    split at hs
    · cases hs
    cases hs
    exact owned_scoped (s := .replaceVenueHalls x ownerID items) (fun _ _ _ _ hp => hp) ho
  | addVenuePhoto x ownerID url =>
    refine edit_along ?_ _
    intro v s hs
    split at hs
    · cases hs
    rename_i s' ho
    split at hs
    · cases hs
    cases hs
    exact owned_scoped (s := .addVenuePhoto x ownerID url) (fun _ _ _ _ hp => hp) ho
  | deleteVenuePhoto x ownerID photoID =>
    exact edit_along (fun v s hs => owned_scoped (s := .deleteVenuePhoto x ownerID photoID) (fun _ _ _ _ hp => hp) hs) _
  | setVenueCoverPhoto x ownerID photoID =>
    exact edit_along (fun v s hs => owned_scoped (s := .setVenueCoverPhoto x ownerID photoID) (fun _ _ _ _ hp => hp) hs) _
  | editMedia x ownerID =>
    exact edit_along (fun v s hs => owned_scoped (s := .editMedia x ownerID) (fun _ _ _ _ hp => hp) hs) _
  | submitVenueForReview x ownerID => exact submitVenueForReview_along rules x ownerID
  | moderate x action comment moderatedBy => exact moderateAs_along x _ _ moderatedBy
  | suspendByOwner ownerID => exact suspendByOwner_along ownerID
  | updateRating x avgRating reviewCount => exact updateRating_along x avgRating reviewCount

/-! ## What an operation does -/

section Operations

variable {rules : CardRules} {w w' : VenueWorld}

theorem VenueWorld.Exec.sql {s : CardSql} {r : Except VenueErr s.Ans} (h : VenueWorld.Exec rules (.sql s) w r w') :
    w'.copies = w.copies ∧ ∃ env : DbEnv, (w'.db = w.db ∨ w'.db = (s.run rules env w.db).2) ∧
      ∀ a, r = .ok a → s.run rules env w.db = (.ok a, w'.db) := by
  obtain ⟨env, -, -, -, hrun⟩ := h
  obtain ⟨hr, rfl⟩ := Prod.mk.inj (Option.some.inj hrun)
  refine ⟨rfl, env.db, env.fault.apply_state id (s.run rules env.db) w.db, ?_⟩
  rintro a rfl
  exact @Fault.of_ok _ _ _ _ id _ _ _ _ _ (Prod.ext hr rfl)

/-- An operation that is no statement leaves the tables. -/
theorem VenueWorld.Exec.db {o : VenueOp} {r : o.Res} (h : VenueWorld.Exec rules o w r w') (ho : ∀ s, o ≠ .sql s) : w'.db = w.db := by
  obtain ⟨env, -, -, -, hrun⟩ := h
  cases o with
  | sql s => exact absurd rfl (ho s)
  | enter key =>
    simp only [VenueWorld.run] at hrun
    split at hrun <;> rw [← (Prod.mk.inj (Option.some.inj hrun)).2]
  | await n =>
    simp only [VenueWorld.run] at hrun
    split at hrun
    · rw [← (Prod.mk.inj (Option.some.inj hrun)).2]
    · cases hrun
  | _ => rw [← (Prod.mk.inj (Option.some.inj hrun)).2]

/-- What an operation does to a copy. -/
theorem VenueWorld.Exec.copies {o : VenueOp} {r : o.Res} (h : VenueWorld.Exec rules o w r w') {key : CacheKey} {v : VenueDetails}
    (hv : w'.copies key = some v) : o = .cacheSet key v ∨ (o ≠ .cacheDel key ∧ w.copies key = some v) := by
  by_cases ho : ∃ s, o = .sql s
  · obtain ⟨s, rfl⟩ := ho
    exact .inr ⟨nofun, h.sql.1 ▸ hv⟩
  obtain ⟨env, -, -, -, hrun⟩ := h
  cases o with
  | sql s => exact absurd ⟨s, rfl⟩ ho
  | cacheSet key' v' =>
    obtain ⟨-, rfl⟩ := Prod.mk.inj (Option.some.inj hrun)
    by_cases hkey : key = key'
    · subst hkey
      simp only [Function.update_self, Option.some.injEq] at hv
      exact .inl (by rw [hv])
    · simp only [Function.update_of_ne hkey] at hv
      exact .inr ⟨nofun, hv⟩
  | cacheDel key' =>
    obtain ⟨-, rfl⟩ := Prod.mk.inj (Option.some.inj hrun)
    by_cases hkey : key = key'
    · subst hkey
      simp at hv
    · simp only [Function.update_of_ne hkey] at hv
      exact .inr ⟨fun h => hkey (VenueOp.cacheDel.inj h).symm, hv⟩
  | enter key' =>
    simp only [VenueWorld.run] at hrun
    refine .inr ⟨nofun, ?_⟩
    split at hrun <;> rwa [← (Prod.mk.inj (Option.some.inj hrun)).2] at hv
  | await n =>
    simp only [VenueWorld.run] at hrun
    refine .inr ⟨nofun, ?_⟩
    split at hrun
    · rwa [← (Prod.mk.inj (Option.some.inj hrun)).2] at hv
    · cases hrun
  | _ =>
    obtain ⟨-, rfl⟩ := Prod.mk.inj (Option.some.inj hrun)
    exact .inr ⟨nofun, hv⟩

theorem VenueWorld.Exec.has {o : VenueOp} {r : o.Res} (h : VenueWorld.Exec rules o w r w') {x sl : String} (hx : w.db.Has x sl) :
    w'.db.Has x sl := by
  by_cases ho : ∃ s, o = .sql s
  · obtain ⟨s, rfl⟩ := ho
    obtain ⟨-, env, hdb | hdb, -⟩ := h.sql
    · rwa [hdb]
    · rw [hdb]
      exact s.run_has hx
  · rw [h.db fun s hs => ho ⟨s, hs⟩]
    exact hx

/-- A venue that is found has the key. -/
theorem VenueWorld.Exec.found {x : String} {card : VenueCard} (h : VenueWorld.Exec rules (.sql (.getVenue x)) w (.ok (some card)) w') :
    card ∈ w.db.venues.rows ∧ card.id = x := by
  obtain ⟨-, env, -, hok⟩ := h.sql
  have hget : w.db.venue x = some card := Except.ok.inj (congrArg Prod.fst (hok _ rfl))
  obtain ⟨hmem, hid⟩ := Table.get_mem hget
  exact ⟨hmem, by simpa using hid⟩

end Operations

/-! ## The pool -/

abbrev CacheThread := Thread CacheCall VenueOp VenueOp.Res CacheAnswer

abbrev CacheMoment := Moment VenueWorld CacheCall VenueOp VenueOp.Res CacheAnswer

def CardSql.writes : CardSql → Bool
  | getVenue _ | getServices _ | getPhotos _ | getHalls _ | getBySlug _ | listByOwner _ => false
  | _ => true

/-- A write has been answered. -/
def Written (h : List (Event VenueOp VenueOp.Res)) : Prop := ∃ s a, ⟨.sql s, .ok a⟩ ∈ h ∧ s.writes = true

/-- A call has written a venue, and has the copy still to delete. -/
def Owed (db : CardDB) (ts : List CacheThread) (key : CacheKey) : Prop :=
  ∃ t ∈ ts, Written t.did ∧ ∃ x sl, db.Has x sl ∧ Drops x sl key t.rest

/-- The update of a rating has no slug. -/
def CardSql.unnamed : CardSql → VenueCard → Bool
  | updateRating .., _ => true
  | _, r => r.slug == ""

/-- What the operations of a run are to meet.  A read stores what the tables still show, or what is still to be deleted; a write
that takes effect is answered, and so is what its call reads after it; a write that does not name the slug finds no copy under
it; the venues of an owner are all in the list that was read. -/
structure Meets (m : CacheMoment) : Prop where
  fresh : ∀ key v, m.op = .cacheSet key v →
    m.before.world.db.view key = some v ∨ Owed m.before.world.db m.before.threads key
  answered : ∀ s, m.op = .sql s → m.after.db ≠ m.before.world.db → ∃ s a, m.event = ⟨.sql s, .ok a⟩
  reread : Written m.thread.did → Replied m.event
  named : ∀ s, m.op = .sql s → m.after.db ≠ m.before.world.db → ∀ r ∈ m.before.world.db.venues.rows, s.touches r = true →
    s.unnamed r = true → m.before.world.copies (.slug r.slug) = none ∨ Owed m.before.world.db m.before.threads (.slug r.slug)
  listed : ∀ ownerID, m.op = .sql (.suspendByOwner ownerID) → m.after.db ≠ m.before.world.db →
    ∀ r ∈ m.before.world.db.venues.rows, (CardSql.suspendByOwner ownerID).touches r = true →
      ∃ cards, ⟨.sql (.listByOwner ownerID), .ok cards⟩ ∈ m.thread.did ∧ ∃ card ∈ cards, card.id = r.id

/-- A copy that is not what the tables show is still to be deleted. -/
structure CachePool (w : VenueWorld) (ts : List CacheThread) : Prop where
  copies : ∀ key v, w.copies key = some v → w.db.view key = some v ∨ Owed w.db ts key
  careful : ∀ t ∈ ts, t.rest.Along (Careful t.call) t.did
  known : ∀ t ∈ ts, ∀ x sl, CopyKnown t.call t.did x sl → w.db.Has x sl

section Steps

variable {rules : CardRules} {w w' : VenueWorld} {ts₁ ts₂ : List CacheThread} {call : CacheCall}
  {h : List (Event VenueOp VenueOp.Res)} {o : VenueOp} {k : o.Res → VenueProg CacheAnswer} {r : o.Res}

/-- **What is owed stays so until it is done.** -/
theorem Owed.step {key : CacheKey} (howed : Owed w.db (ts₁ ++ ⟨call, h, .call o k⟩ :: ts₂) key)
    (he : VenueWorld.Exec rules o w r w') (ho : o ≠ .cacheDel key) (hread : Written h → Replied ⟨o, r⟩) :
    Owed w'.db (ts₁ ++ ⟨call, h ++ [⟨o, r⟩], k r⟩ :: ts₂) key := by
  obtain ⟨t, ht, hstored, x, sl, hx, hdue⟩ := howed
  have hother : t ∈ ts₁ ∨ t ∈ ts₂ → Owed w'.db (ts₁ ++ ⟨call, h ++ [⟨o, r⟩], k r⟩ :: ts₂) key := by
    intro ht
    refine ⟨t, ?_, hstored, x, sl, he.has hx, hdue⟩
    rcases ht with ht | ht
    · exact List.mem_append_left _ ht
    · exact List.mem_append_right _ (List.mem_cons_of_mem _ ht)
  rcases List.mem_append.1 ht with ht | ht
  · exact hother (.inl ht)
  rcases List.mem_cons.1 ht with rfl | ht
  · obtain ⟨s, a, hmem, hs⟩ := hstored
    refine ⟨_, List.mem_append_right _ List.mem_cons_self, ⟨s, a, List.mem_append_left _ hmem, hs⟩, x, sl, he.has hx, ?_⟩
    refine Prog.Due.step hdue ho ⟨hread ⟨s, a, hmem, hs⟩, fun card hevent => ?_⟩
    obtain ⟨rfl, hr⟩ := Sigma.mk.inj hevent
    obtain rfl := eq_of_heq hr
    obtain ⟨hcard, hid⟩ := he.found
    exact hx.unique hcard hid
  · exact hother (.inr ht)

theorem CopyKnown.step (hknown : ∀ x sl, CopyKnown call h x sl → w.db.Has x sl) (he : VenueWorld.Exec rules o w r w') {x sl : String}
    (hx : CopyKnown call (h ++ [⟨o, r⟩]) x sl) : w'.db.Has x sl := by
  cases hx with
  | given v hv => exact he.has (hknown _ _ (.given v hv))
  | read x card hmem =>
    rcases List.mem_append.1 hmem with hmem | hmem
    · exact he.has (hknown _ _ (.read x card hmem))
    · obtain ⟨rfl, hr⟩ := Sigma.mk.inj (List.mem_singleton.1 hmem)
      obtain rfl := eq_of_heq hr
      obtain ⟨hcard, hid⟩ := he.found
      exact he.has ⟨card, hcard, hid, rfl⟩
  | listed ownerID cards card hmem hcard =>
    rcases List.mem_append.1 hmem with hmem | hmem
    · exact he.has (hknown _ _ (.listed ownerID cards card hmem hcard))
    · obtain ⟨rfl, hr⟩ := Sigma.mk.inj (List.mem_singleton.1 hmem)
      obtain rfl := eq_of_heq hr
      obtain ⟨-, env, -, hok⟩ := he.sql
      have hrows : w.db.venues.select (·.ownerID == ownerID) = cards := Except.ok.inj (congrArg Prod.fst (hok _ rfl))
      rw [← hrows] at hcard
      exact he.has ⟨card, (List.mem_filter.1 hcard).1, rfl, rfl⟩

/-- **Whoever writes a venue deletes its copies**, the one under the slug if it is named. -/
theorem Pays.owes {env : DbEnv} {db db' : CardDB} {s : CardSql} {a : s.Ans} {p : VenueProg CacheAnswer}
    (hpays : Pays call h s a p) (hknown : ∀ x sl, CopyKnown call h x sl → db.Has x sl) (hrun : s.run rules env db = (.ok a, db'))
    {v : VenueCard} (hv : v ∈ db.venues.rows) (ht : s.touches v = true)
    (hlisted : ∀ ownerID, s = .suspendByOwner ownerID →
      ∃ cards, ⟨.sql (.listByOwner ownerID), .ok cards⟩ ∈ h ∧ ∃ card ∈ cards, card.id = v.id) :
    Drops v.id v.slug (.id v.id) p ∧ (s.unnamed v = false → Drops v.id v.slug (.slug v.slug) p) := by
  have hboth : ∀ x, x = v.id → (∃ sl, CopyKnown call h x sl ∧ DropsBoth x sl p) →
      Drops v.id v.slug (.id v.id) p ∧ (v.slug ≠ "" → Drops v.id v.slug (.slug v.slug) p) := by
    rintro _ rfl ⟨sl, hk, hd⟩
    obtain rfl := (hknown _ _ hk).unique hv rfl
    exact hd
  have hslug : s.unnamed v = false → v.slug ≠ "" := by
    intro hs hempty
    cases s <;> simp [CardSql.unnamed, hempty] at hs
  have hnamed : ∀ x, x = v.id → (∃ sl, CopyKnown call h x sl ∧ DropsBoth x sl p) →
      Drops v.id v.slug (.id v.id) p ∧ (s.unnamed v = false → Drops v.id v.slug (.slug v.slug) p) := fun x hx hk =>
    ⟨(hboth x hx hk).1, fun hs => (hboth x hx hk).2 (hslug hs)⟩
  cases s with
  | updateRating x avgRating reviewCount =>
    have hx : x = v.id := by simpa [CardSql.touches, CardSql.venueID] using ht
    subst hx
    exact ⟨hpays v.slug, fun hs => by cases hs⟩
  | suspendByOwner ownerID =>
    obtain ⟨cards, hmem, card, hcard, hid⟩ := hlisted ownerID rfl
    exact hnamed card.id hid ⟨card.slug, .listed ownerID cards card hmem hcard, hpays cards hmem card hcard⟩
  | submitDraftForReview x ownerID =>
    have hx : x = v.id := by
      simp only [CardSql.touches, Bool.and_eq_true, beq_iff_eq] at ht
      exact ht.1.1.symm
    refine hnamed x hx (hpays ?_)
    rintro rfl
    -- a statement that has found no draft has touched none
    simp only [CardSql.run, CardRepo.submitDraftForReview, CardRepo.updateRows] at hrun
    split at hrun
    · cases (Prod.mk.inj hrun).1
    · have hlen := Except.ok.inj (Prod.mk.inj hrun).1
      have hnone := List.eq_nil_of_length_eq_zero (Int.ofNat_eq_zero.1 hlen)
      have hmem : v ∈ db.venues.select fun v => v.id == x && v.ownerID == ownerID && v.status == .draft :=
        List.mem_filter.2 ⟨hv, ht⟩
      rw [hnone] at hmem
      exact absurd hmem List.not_mem_nil
  | create | getVenue | getServices | getPhotos | getHalls | getBySlug | listByOwner =>
    simp [CardSql.touches, CardSql.venueID] at ht
  | setBookingMode => exact hpays.elim
  | update | updateStatus | editMedia | addVenuePhoto | deleteVenuePhoto | setVenueCoverPhoto | replaceVenueServices
  | replaceVenueHalls =>
    exact hnamed _ (by simpa [CardSql.touches, CardSql.venueID] using ht) hpays

theorem CardSql.writes_of_touches {s : CardSql} {v : VenueCard} (h : s.touches v = true) : s.writes = true := by
  cases s <;> first | rfl | simp [touches, venueID] at h

/-- **One operation keeps the pool.** -/
theorem CachePool.perform (hpool : CachePool w (ts₁ ++ ⟨call, h, .call o k⟩ :: ts₂)) (he : VenueWorld.Exec rules o w r w')
    (hmeets : Meets ⟨⟨w, ts₁ ++ ⟨call, h, .call o k⟩ :: ts₂⟩, ⟨call, h, .call o k⟩, o, r, w'⟩) :
    CachePool w' (ts₁ ++ ⟨call, h ++ [⟨o, r⟩], k r⟩ :: ts₂) := by
  have hself : (⟨call, h, .call o k⟩ : CacheThread) ∈ ts₁ ++ ⟨call, h, .call o k⟩ :: ts₂ := by simp
  have hold : ∀ t ∈ ts₁ ++ ⟨call, h ++ [⟨o, r⟩], k r⟩ :: ts₂, t = ⟨call, h ++ [⟨o, r⟩], k r⟩ ∨
      t ∈ ts₁ ++ ⟨call, h, .call o k⟩ :: ts₂ := by
    intro t ht
    simp only [List.mem_append, List.mem_cons] at ht ⊢
    rcases ht with ht | rfl | ht
    · exact .inr (.inl ht)
    · exact .inl rfl
    · exact .inr (.inr (.inr ht))
  refine ⟨fun key v hv => ?_, fun t ht => ?_, fun t ht x sl hk => ?_⟩
  · have hstill : ∀ {key}, o ≠ .cacheDel key → Owed w.db (ts₁ ++ ⟨call, h, .call o k⟩ :: ts₂) key →
        Owed w'.db (ts₁ ++ ⟨call, h ++ [⟨o, r⟩], k r⟩ :: ts₂) key := fun ho howed => howed.step he ho hmeets.reread
    rcases he.copies hv with rfl | ⟨hdel, hv⟩
    · have hdb := he.db fun s hs => nomatch hs
      rcases hmeets.fresh key v rfl with hview | howed
      · exact .inl (hdb ▸ hview)
      · exact .inr (hstill (fun hd => nomatch hd) howed)
    rcases hpool.copies key v hv with hview | howed
    swap
    · exact .inr (hstill hdel howed)
    by_cases hdb : w'.db = w.db
    · exact .inl (hdb ▸ hview)
    obtain ⟨s, rfl⟩ : ∃ s, o = .sql s := by
      by_contra hno
      exact hdb (he.db fun s hs => hno ⟨s, hs⟩)
    obtain ⟨row, hget, -⟩ := Option.map_eq_some_iff.1 hview
    obtain ⟨hrow, hkey⟩ := Table.get_mem hget
    obtain ⟨-, env, hrun, hok⟩ := he.sql
    by_cases ht : s.touches row = true
    swap
    · rw [Bool.not_eq_true] at ht
      rw [hrun.resolve_left hdb, s.run_view hget ht]
      exact .inl hview
    -- the row is written: the call has got its answer, and deletes what is due
    right
    obtain ⟨s', a, hevent⟩ := hmeets.answered s rfl hdb
    obtain ⟨hs, hr⟩ := Sigma.mk.inj hevent
    obtain rfl := VenueOp.sql.inj hs
    obtain rfl := eq_of_heq hr
    have howes := Pays.owes ((hpool.careful _ hself).1 a) (hpool.known _ hself) (hok a rfl) hrow ht
      fun ownerID hs => hmeets.listed ownerID (congrArg VenueOp.sql hs) hdb row hrow (hs ▸ ht)
    have hlast : ∀ key, Drops row.id row.slug key (k (.ok a)) →
        Owed w'.db (ts₁ ++ ⟨call, h ++ [⟨.sql s, .ok a⟩], k (.ok a)⟩ :: ts₂) key := fun key hd =>
      ⟨_, List.mem_append_right _ List.mem_cons_self, ⟨s, a, by simp, CardSql.writes_of_touches ht⟩, row.id, row.slug,
        he.has ⟨row, hrow, rfl, rfl⟩, hd⟩
    cases key with
    | id x =>
      obtain rfl : row.id = x := by simpa [CacheKey.holds] using hkey
      exact hlast _ howes.1
    | slug sl =>
      obtain rfl : row.slug = sl := by simpa [CacheKey.holds] using hkey
      by_cases hu : s.unnamed row = true
      · rcases hmeets.named s rfl hdb row hrow ht hu with hnone | howed
        · cases hnone.symm.trans hv
        · exact hstill hdel howed
      · rw [Bool.not_eq_true] at hu
        exact hlast _ (howes.2 hu)
  · rcases hold t ht with rfl | ht
    · exact (hpool.careful _ hself).2 r
    · exact hpool.careful t ht
  · rcases hold t ht with rfl | ht
    · exact CopyKnown.step (hpool.known _ hself) he hk
    · exact he.has (hpool.known t ht x sl hk)

theorem CachePool.start (hpool : CachePool w ts₁) (hready : call.Ready w) :
    CachePool w (ts₁ ++ [⟨call, [], call.prog rules⟩]) := by
  refine ⟨fun key v hv => ?_, fun t ht => ?_, fun t ht x sl hk => ?_⟩
  · refine (hpool.copies key v hv).imp id ?_
    rintro ⟨t, ht, howed⟩
    exact ⟨t, List.mem_append_left _ ht, howed⟩
  · rcases List.mem_append.1 ht with ht | ht
    · exact hpool.careful t ht
    · rw [List.mem_singleton.1 ht]
      exact call.prog_along rules
  · rcases List.mem_append.1 ht with ht | ht
    · exact hpool.known t ht x sl hk
    · rw [List.mem_singleton.1 ht] at hk
      cases hk with
      | given v hv =>
        obtain rfl : call = .update v := hv
        exact hready
      | read x card hmem => cases hmem
      | listed ownerID cards card hmem => cases hmem

/-- **In a run that meets the conditions, a copy that is not what the tables show is still to be deleted.** -/
theorem cache_pool {w₀ : VenueWorld} {tr : List CacheMoment} {c : Config VenueWorld CacheCall VenueOp VenueOp.Res CacheAnswer}
    (h0 : w₀.Coherent) (h : (cacheSys rules).Trace w₀ tr c) (hmeets : ∀ m ∈ tr, Meets m) : CachePool c.world c.threads := by
  refine h.pool_inv (P := Meets) CachePool ?_ ?_ ?_ ?_ hmeets
  · exact ⟨fun key v hv => .inl (h0 key v hv), fun t ht => (nomatch ht), fun t ht => (nomatch ht)⟩
  · exact fun w ts c hpool hready => hpool.start hready
  · exact fun w w' ts₁ ts₂ c h o k r hpool he hm => hpool.perform he hm
  · rintro w _ ts hpool ⟨later, copies, -, hcopies, rfl⟩
    refine ⟨fun key v hv => ?_, hpool.careful, hpool.known⟩
    rcases hcopies key with hsame | hnone
    · exact hpool.copies key v (hsame ▸ hv)
    · cases hnone.symm.trans hv

end Steps

/-- **When all calls have returned, every copy is what the tables show**, if the run met the conditions. -/
theorem cache_coherent (rules : CardRules) {w₀ : VenueWorld} {tr : List CacheMoment}
    {c : Config VenueWorld CacheCall VenueOp VenueOp.Res CacheAnswer} (h0 : w₀.Coherent) (h : (cacheSys rules).Trace w₀ tr c)
    (hmeets : ∀ m ∈ tr, Meets m) (hdone : ∀ t ∈ c.threads, ∃ a, t.rest = .ret a) : c.world.Coherent := by
  intro key v hv
  rcases (cache_pool h0 h hmeets).copies key v hv with hview | ⟨t, ht, -, x, sl, -, hdue⟩
  · exact hview
  · obtain ⟨a, ha⟩ := hdone t ht
    rw [ha] at hdue
    exact absurd hdue (Prog.not_due_ret a)

/-! ## Ann's bath is rated -/

/-- Her venue, with what copies there are. -/
def annsCopies (copies : CacheKey → Option VenueDetails) : VenueWorld := ⟨annsCards.db, copies, [], fun _ => none, 0⟩

def annsEnv (w : VenueWorld) : VenueEnv := ⟨⟨w.clock, fun _ => annsVenue, id⟩, .none, none, annsVenue⟩

def annsStep (o : VenueOp) (w : VenueWorld) : Option (o.Res × VenueWorld) := w.run plainCards (annsEnv w) o

theorem annsStep_exec (o : VenueOp) (w : VenueWorld) (r : o.Res) (w' : VenueWorld) (h : annsStep o w = some (r, w')) :
    (cacheSys plainCards).exec o w r w' :=
  ⟨annsEnv w, rfl, fun l => .refl l, show isUUID annsVenue = true by decide, h⟩

/-- Her venue as it is shown, with a copy under its key alone. -/
def annsShown : VenueWorld := annsCopies fun key => if key = .id annsVenue then some (annsCards.db.details annsCard) else none

theorem annsShown_slug (s : String) : annsShown.copies (.slug s) = none := by
  have hkey : CacheKey.slug s ≠ .id annsVenue := by
    intro h
    cases h
  simp only [annsShown, annsCopies, if_neg hkey]

theorem annsShown_coherent : annsShown.Coherent := by
  intro key v hv
  by_cases hkey : key = .id annsVenue
  · subst hkey
    rw [← hv]
    rfl
  · cases (if_neg hkey).symm.trans hv

theorem rating_prog : (CacheCall.updateRating annsVenue 5 1).prog plainCards =
    .call (.sql (.updateRating annsVenue 5 1)) fun
      | .error e => .ret (.error e.err)
      | .ok _ => .call (.cacheDel (.id annsVenue)) fun _ => .ret (.ok none) := by
  have hrange : ¬((5 : ℚ) < 0 ∨ (5 : ℚ) < 5) := by decide
  have hcount : ¬(1 : ℤ) < 0 := by decide
  simp only [CacheCall.prog, CacheCall.prog.written, CachedVenue.updateRating, hrange, hcount, if_false]
  rw [CachedVenue.query, Prog.bind_eq, Prog.perform_bind, Prog.bind_call]
  congr 1
  funext r
  cases r with
  | error e => rfl
  | ok n => rfl

/-- Ann's venue is rated, and its copy is deleted. -/
theorem cache_coherent_ann : ∃ tr c, (cacheSys plainCards).Trace annsShown tr c ∧ tr.length = 2 ∧ c.world.Coherent := by
  have hans : (CardSql.run plainCards (annsEnv annsShown).db (.updateRating annsVenue 5 1) annsShown.db).1 = .ok 1 := rfl
  have hrate : annsStep (.sql (.updateRating annsVenue 5 1)) annsShown = some (.ok 1, _) :=
    congrArg some (Prod.ext hans rfl)
  have hstart : (cacheSys plainCards).Trace annsShown [] ⟨annsShown, [⟨.updateRating annsVenue 5 1, [], _⟩]⟩ :=
    Sys.Trace.init.start _ trivial
  rw [show (cacheSys plainCards).prog (.updateRating annsVenue 5 1) = _ from rating_prog] at hstart
  have htr := (hstart.perform _ [] [] (.ok 1) (annsStep_exec _ _ _ _ hrate)).perform _ [] [] ()
    (annsStep_exec (.cacheDel (.id annsVenue)) _ () _ rfl)
  refine ⟨_, _, htr, rfl, cache_coherent plainCards annsShown_coherent htr ?_ ?_⟩
  · intro m hm
    rcases List.mem_pair.1 hm with rfl | rfl
    · constructor
      · exact fun _ _ ho => nomatch ho
      · exact fun _ _ _ => ⟨_, _, rfl⟩
      · rintro ⟨s, a, hmem, -⟩
        cases hmem
      · exact fun _ _ _ r _ _ _ => .inl (annsShown_slug r.slug)
      · exact fun _ ho => nomatch ho
    · constructor
      · exact fun _ _ ho => nomatch ho
      · exact fun _ ho => nomatch ho
      · intro _
        trivial
      · exact fun _ ho => nomatch ho
      · exact fun _ ho => nomatch ho
  · intro t ht
    rw [List.mem_singleton.1 ht]
    exact ⟨_, rfl⟩

/-- The venue is read by its slug, and then it is rated. -/
def ratedAfter : Option (CacheAnswer × VenueWorld) :=
  match ((CacheCall.getBySlug "bath").prog plainCards).tryRun annsStep (annsCopies fun _ => none) with
  | none => none
  | some (_, w) => ((CacheCall.updateRating annsVenue 5 1).prog plainCards).tryRun annsStep w

/-- The copy under the slug, and what the tables show. -/
def slugRatings (x : CacheAnswer × VenueWorld) : Option ℚ × Option ℚ :=
  ((x.2.copies (.slug "bath")).map (·.card.avgRating), (x.2.db.view (.slug "bath")).map (·.card.avgRating))

/-- The copy under the slug is left with the rating of before. -/
theorem rating_stale : ¬ ∀ (rules : CardRules) (w₀ : VenueWorld) (tr : List CacheMoment)
    (c : Config VenueWorld CacheCall VenueOp VenueOp.Res CacheAnswer), w₀.Coherent → (cacheSys rules).Trace w₀ tr c →
    (∀ t ∈ c.threads, ∃ a, t.rest = .ret a) → c.world.Coherent := by
  intro hall
  have hplay : ratedAfter.map slugRatings = some (some 0, some 5) := by decide +kernel
  unfold ratedAfter at hplay
  cases hread : ((CacheCall.getBySlug "bath").prog plainCards).tryRun annsStep (annsCopies fun _ => none) with
  | none =>
    rw [hread] at hplay
    cases hplay
  | some found =>
    obtain ⟨a, w₁⟩ := found
    rw [hread] at hplay
    obtain ⟨⟨b, w₂⟩, hrate, hratings⟩ := Option.map_eq_some_iff.1 hplay
    obtain ⟨tr₁, did₁, ht₁⟩ := Sys.Trace.runs (S := cacheSys plainCards) (fun _ _ _ _ he => he)
      (Prog.runs_of_tryRun annsStep_exec hread) (Sys.Trace.init.start (CacheCall.getBySlug "bath") trivial)
    obtain ⟨tr₂, did₂, ht₂⟩ := Sys.Trace.runs (S := cacheSys plainCards) (fun _ _ _ _ he => he)
      (Prog.runs_of_tryRun annsStep_exec hrate) (ht₁.start (CacheCall.updateRating annsVenue 5 1) trivial)
    have h0 : (annsCopies fun _ => none).Coherent := by
      intro key v hv
      cases hv
    obtain ⟨hcopy, htables⟩ := Prod.mk.inj hratings
    obtain ⟨v, hv, hzero⟩ := Option.map_eq_some_iff.1 hcopy
    have hcoherent := hall plainCards _ tr₂ _ h0 ht₂ (by simp) (.slug "bath") v hv
    rw [hcoherent, Option.map_some, Option.some.injEq, hzero] at htables
    exact absurd htables (by decide)

end Agregator
