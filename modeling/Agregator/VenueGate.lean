import Agregator.VenueDecisions
import Agregator.VenuePlay
/-!
# VenueGate — what a moderator has approved of a listed venue

A venue is listed by an approval or by a resumption only, and what changes its name, its description or its halls takes it off
the list.  The replacement of its services does not.
-/
namespace Agregator

open Rel Conc

variable {rules : CardRules}

/-! ## Listed venues -/

/-- What a moderator is asked to approve. -/
def CardDB.content (db : CardDB) (venueID : String) : Option (String × String) × List VenueService × List VenueHall :=
  ((db.venue venueID).map fun v => (v.name, v.description), db.servicesOf venueID, db.hallsOf venueID)

def CardDB.Listed (db : CardDB) (venueID : String) : Prop := ∃ v, db.venue venueID = some v ∧ v.status = .active

def Changes (venueID : String) (m : CardMoment) : Prop :=
  m.after.db.content venueID ≠ m.before.world.db.content venueID

def Lists (venueID : String) (m : CardMoment) : Prop := ¬ m.before.world.db.Listed venueID ∧ m.after.db.Listed venueID

section Statement

variable {env : DbEnv} {s : CardSql} {db db' : CardDB} {venueID : String}

theorem CardRepo.resetToPendingReview_status {now : Time} {v : VenueCard} :
    (CardRepo.resetToPendingReview now v).status ≠ .active := by
  rw [CardRepo.resetToPendingReview_eq]
  by_cases h : v.status = .active ∨ v.status = .rejected
  · rw [if_pos h]
    exact fun h => nomatch h
  · rw [if_neg h]
    exact fun ha => h (.inl ha)

/-- **A row that is listed after a statement** was so before with its name and description, or has its status from the
statement. -/
theorem CardSql.row_listed {halls : Table venueHallSchema} {r : VenueCard} (h : (s.row rules env halls r).status = .active) :
    (∃ comment moderatedBy, s = .updateStatus r.id .active comment moderatedBy) ∨
      (r.status = .active ∧ s.hallsAt ≠ some r.id ∧
        ((s.row rules env halls r).name, (s.row rules env halls r).description) = (r.name, r.description)) := by
  have hkept : s.hallsAt ≠ some r.id → s.row rules env halls r = r → r.status = .active ∧ s.hallsAt ≠ some r.id ∧
      ((s.row rules env halls r).name, (s.row rules env halls r).description) = (r.name, r.description) := by
    intro hat hr
    rw [hr] at h ⊢
    exact ⟨h, hat, rfl⟩
  cases s with
  | update v =>
    right
    refine hkept (fun hat => by cases hat) ?_
    by_cases hid : (r.id == v.id) = true
    · simp only [row, if_pos hid] at h ⊢
      rcases CardRepo.stored_cases r env.now v with hs | ⟨wh, sl, hs⟩
      · exact hs
      · rw [hs] at h
        exact absurd h CardRepo.resetToPendingReview_status
    · exact if_neg hid
  | updateStatus id status comment moderatedBy =>
    by_cases hid : (r.id == id) = true
    · left
      simp only [row, if_pos hid] at h
      obtain rfl := eq_of_beq hid
      have hst : status = .active := h
      exact ⟨comment, moderatedBy, by rw [hst]⟩
    · exact .inr (hkept (fun hat => by cases hat) (if_neg hid))
  | suspendByOwner ownerID =>
    right
    refine hkept (fun hat => by cases hat) ?_
    by_cases hp : (r.ownerID == ownerID && r.status != .suspended) = true
    · simp only [row, if_pos hp] at h
      cases h
    · exact if_neg hp
  | submitDraftForReview id ownerID =>
    right
    refine hkept (fun hat => by cases hat) ?_
    by_cases hp : (r.id == id && r.ownerID == ownerID && r.status == .draft) = true
    · simp only [row, if_pos hp] at h
      cases h
    · exact if_neg hp
  | updateRating id avgRating reviewCount =>
    right
    by_cases hp : (r.id == id) = true
    · simp only [row, if_pos hp] at h ⊢
      exact ⟨h, (fun hat => by cases hat), trivial⟩
    · exact hkept (fun hat => by cases hat) (if_neg hp)
  | setBookingMode id mode =>
    right
    by_cases hp : (r.id == id) = true
    · simp only [row, if_pos hp] at h ⊢
      exact ⟨h, (fun hat => by cases hat), trivial⟩
    · exact hkept (fun hat => by cases hat) (if_neg hp)
  | editMedia id | addVenuePhoto id | deleteVenuePhoto id | setVenueCoverPhoto id =>
    right
    refine hkept (fun hat => by cases hat) ?_
    by_cases hp : (r.id == id) = true
    · simp only [row, if_pos hp] at h
      exact absurd h CardRepo.resetToPendingReview_status
    · exact if_neg hp
  | replaceVenueHalls id =>
    right
    by_cases hp : (r.id == id) = true
    · simp only [row, if_pos hp] at h
      exact absurd h CardRepo.resetToPendingReview_status
    · exact hkept (fun hat => hp (by rw [Option.some.inj hat]; exact BEq.rfl)) (if_neg hp)
  | _ => exact .inr (hkept (fun hat => by cases hat) rfl)

/-- A listed venue whose content a statement changes while it stays listed has its services replaced. -/
theorem CardSql.Wrote.listed (hw : s.Wrote rules env db db') (h : db'.Listed venueID) :
    (∃ comment moderatedBy, s = .updateStatus venueID .active comment moderatedBy ∧ db'.content venueID = db.content venueID) ∨
      (db.Listed venueID ∧ (s.servicesAt ≠ some venueID → db'.content venueID = db.content venueID)) := by
  obtain ⟨v, hv, hst⟩ := h
  rw [hw.venue] at hv
  obtain ⟨r, hr, rfl⟩ := Option.map_eq_some_iff.1 hv
  have hid : r.id = venueID := by simpa using (Table.get_mem hr).2
  have hcontent : s.hallsAt ≠ some venueID → s.servicesAt ≠ some venueID →
      ((s.row rules env db'.halls r).name, (s.row rules env db'.halls r).description) = (r.name, r.description) →
      db'.content venueID = db.content venueID := by
    intro hhalls hservices hname
    unfold CardDB.content
    rw [hw.venue, hr, hw.halls venueID hhalls, hw.services venueID hservices, Option.map_some, Option.map_some, Option.map_some,
      hname]
  rcases CardSql.row_listed hst with ⟨comment, moderatedBy, rfl⟩ | ⟨hactive, hhalls, hname⟩
  · left
    rw [hid] at hcontent ⊢
    refine ⟨comment, moderatedBy, rfl, hcontent (fun hat => nomatch hat) (fun hat => nomatch hat) ?_⟩
    simp [row, hid, CardRepo.moderated]
  · rw [hid] at hhalls
    exact .inr ⟨⟨r, hr, hactive⟩, fun hservices => hcontent hhalls hservices hname⟩

end Statement

/-! ## Moments -/

/-- **A moment after which a venue is listed** lists it by a decision, or finds it listed and changes nothing of it but, if
anything, the services. -/
theorem CardMoment.listed {m : CardMoment} (he : CardWorld.Exec rules m.op m.before.world m.res m.after)
    (hmay : m.thread.call.May rules m.op) {venueID : String} (h : m.after.db.Listed venueID) :
    (¬ Changes venueID m ∧ ∃ comment moderatedBy, m.op = .sql (.updateStatus venueID .active comment moderatedBy)) ∨
      (m.before.world.db.Listed venueID ∧
        (Changes venueID m → ∃ ownerID services, m.op = .sql (.replaceVenueServices venueID ownerID services))) := by
  have hsame : m.after.db = m.before.world.db → m.before.world.db.Listed venueID ∧
      (Changes venueID m → ∃ ownerID services, m.op = .sql (.replaceVenueServices venueID ownerID services)) := by
    intro hdb
    unfold Changes
    rw [hdb] at h ⊢
    exact ⟨h, fun hc => absurd rfl hc⟩
  rcases he.tables with hdb | ⟨s, env, ho, -, hdb⟩
  · exact .inr (hsame hdb)
  rcases s.run_cases rules env m.before.world.db with hrun | ⟨v, services, halls, rfl, hc⟩ | hw
  · exact .inr (hsame (hdb.trans hrun))
  · rw [← hdb] at hc
    by_cases hid : venueID = env.newID 0
    · -- a card is never entered as listed
      subst hid
      obtain ⟨card, hcard, hst, -⟩ := hc.venue_new
      obtain ⟨v', hv', hactive⟩ := h
      obtain rfl := Option.some.inj (hcard.symm.trans hv')
      rw [ho] at hmay
      exact absurd (hst.symm.trans hactive) hmay
    · have hcontent : m.after.db.content venueID = m.before.world.db.content venueID := by
        unfold CardDB.content
        rw [hc.venue_other hid, hc.services_other hid, hc.halls_other hid]
      unfold CardDB.Listed at h
      rw [hc.venue_other hid] at h
      exact .inr ⟨h, fun hch => absurd hcontent hch⟩
  · rw [← hdb] at hw
    rcases hw.listed h with ⟨comment, moderatedBy, rfl, hcontent⟩ | ⟨hlisted, hcontent⟩
    · exact .inl ⟨fun hch => hch hcontent, comment, moderatedBy, ho⟩
    · refine .inr ⟨hlisted, fun hch => ?_⟩
      by_cases hat : s.servicesAt = some venueID
      · cases s with
        | replaceVenueServices id ownerID services =>
          obtain rfl := Option.some.inj hat
          exact ⟨ownerID, services, ho⟩
        | _ => cases hat
      · exact absurd (hcontent hat) hch

/-- A replacement of services leaves the list alone. -/
theorem CardMoment.listed_services {m : CardMoment} (he : CardWorld.Exec rules m.op m.before.world m.res m.after)
    {venueID ownerID : String} {services : List VenueService}
    (ho : m.op = .sql (.replaceVenueServices venueID ownerID services)) (h : m.before.world.db.Listed venueID) :
    m.after.db.Listed venueID := by
  rcases he.tables with hdb | ⟨s, env, ho', -, hdb⟩
  · rwa [hdb]
  obtain rfl := CardOp.sql.inj (ho'.symm.trans ho)
  rw [hdb]
  rcases (CardSql.replaceVenueServices venueID ownerID services).run_cases rules env m.before.world.db with
    hrun | ⟨v, _, _, heq, -⟩ | hw
  · rwa [hrun]
  · cases heq
  · obtain ⟨v, hv, hst⟩ := h
    exact ⟨v, by rw [hw.venue, hv]; rfl, hst⟩

/-! ## Runs -/

/-- A moderator who approves the venue. -/
def IsApproval (rules : CardRules) (venueID : String) (m : CardMoment) : Prop := ∃ action comment moderatedBy,
  m.thread.call = .moderateVenue venueID action comment moderatedBy ∧ trimSpace (rules.lower action) = "approve"

/-- The call has started after the last change of the venue. -/
def CalledAfter (venueID : String) (tr : List CardMoment) (m : CardMoment) : Prop :=
  ∀ m' ∈ tr, Changes venueID m' → m.thread ∈ m.before.threads.drop m'.before.threads.length

/-- A moderator has listed the venue by an approval that was called for after the last change, and nothing of it has changed
since. -/
def Vetted (rules : CardRules) (venueID : String) (tr : List CardMoment) : Prop :=
  ∃ tr₁ m tr₂, tr = tr₁ ++ m :: tr₂ ∧ IsApproval rules venueID m ∧ Lists venueID m ∧ CalledAfter venueID tr₁ m ∧
    ∀ m' ∈ m :: tr₂, ¬ Changes venueID m'

/-- Nothing of the venue has changed since it was listed at some time. -/
def Stood (venueID : String) (tr : List CardMoment) : Prop :=
  ∃ tr₁ m tr₂, tr = tr₁ ++ m :: tr₂ ∧ m.after.db.Listed venueID ∧ ∀ m' ∈ tr₂, ¬ Changes venueID m'

/-- What lists the venue is an approval called for after the last change, unless the venue stands as it was listed; and its
services are not replaced while it is listed. -/
structure Gated (rules : CardRules) (venueID : String) (tr : List CardMoment) (m : CardMoment) : Prop where
  lists : Lists venueID m → (IsApproval rules venueID m ∧ CalledAfter venueID tr m) ∨ Stood venueID tr
  services : ∀ ownerID services, m.op = .sql (.replaceVenueServices venueID ownerID services) → Changes venueID m →
    ¬ m.before.world.db.Listed venueID

theorem Vetted.extend {venueID : String} {tr tr' : List CardMoment} (h : Vetted rules venueID tr)
    (hs : ∀ m ∈ tr', ¬ Changes venueID m) : Vetted rules venueID (tr ++ tr') := by
  obtain ⟨tr₁, m, tr₂, rfl, happ, hl, hc, hno⟩ := h
  refine ⟨tr₁, m, tr₂ ++ tr', by simp, happ, hl, hc, fun m' hm' => ?_⟩
  rw [← List.cons_append] at hm'
  rcases List.mem_append.1 hm' with hm' | hm'
  · exact hno m' hm'
  · exact hs m' hm'

section Runs

variable {w₀ : CardWorld} {tr : List CardMoment} {c : CardConfig} {venueID : String}

/-- The tables are as the last operation has left them. -/
theorem tables_last (h : (cardSys rules).Trace w₀ tr c) : (tr = [] ∧ c.world.db = w₀.db) ∨
    ∃ tr₁ m, tr = tr₁ ++ [m] ∧ c.world.db = m.after.db := by
  induction h with
  | init => exact .inl ⟨rfl, rfl⟩
  | start c _ _ ih => exact ih
  | perform w' ts₁ ts₂ r _ _ _ => exact .inr ⟨_, _, rfl, rfl⟩
  | env _ he ih => rwa [CardWorld.Passes.tables he]

theorem calls_may (h : (cardSys rules).Trace w₀ tr c) : ∀ m ∈ tr, m.thread.call.May rules m.op :=
  h.prior (P := fun call _ o => call.May rules o) fun call =>
    Prog.All.after ((CardCall.prog_may call).mono fun _ ho _ => ho)

/-- **Only a moderator lists a venue**, who approves or resumes it. -/
theorem lists_decided (h : (cardSys rules).Trace w₀ tr c) : ∀ m ∈ tr, Lists venueID m → ∃ action comment moderatedBy,
    m.thread.call = .moderateVenue venueID action comment moderatedBy ∧
      (trimSpace (rules.lower action) = "approve" ∨ trimSpace (rules.lower action) = "resume") := by
  intro m hm hl
  have hmay := calls_may h m hm
  rcases CardMoment.listed (h.steps m hm).exec hmay hl.2 with ⟨-, comment, moderatedBy, ho⟩ | ⟨hb, -⟩
  · rw [ho] at hmay
    exact hmay
  · exact absurd hb hl.1

/-- What the gate keeps: by induction on the moments before. -/
theorem vetted_of_gated (h : (cardSys rules).Trace w₀ tr c) (h0 : ¬ w₀.db.Listed venueID)
    (hg : ∀ tr₁ m tr₂, tr = tr₁ ++ m :: tr₂ → Gated rules venueID tr₁ m) :
    ∀ (n : ℕ) tr₁ m tr₂, tr₁.length = n → tr = tr₁ ++ m :: tr₂ → m.after.db.Listed venueID →
      Vetted rules venueID (tr₁ ++ [m]) := by
  intro n
  induction n using Nat.strongRecOn with
  | ind n ih =>
    intro tr₁ m tr₂ hn htr hlisted
    have hm : m ∈ tr := by rw [htr]; exact List.mem_append_right _ List.mem_cons_self
    have hgate := hg tr₁ m tr₂ htr
    -- a venue that was listed before and stands as it was has been vetted before
    have hstood : m.before.world.db.Listed venueID → ¬ Changes venueID m → Vetted rules venueID (tr₁ ++ [m]) := by
      intro hb hch
      rcases tables_last (h.before htr) with ⟨-, hdb⟩ | ⟨t, m', rfl, hdb⟩
      · rw [hdb] at hb
        exact absurd hb h0
      · rw [hdb] at hb
        rw [List.append_assoc, List.singleton_append] at htr
        refine (ih t.length ?_ t m' _ rfl htr hb).extend ?_
        · rw [List.length_append, List.length_singleton] at hn
          omega
        · intro m'' hm''
          rwa [List.mem_singleton.1 hm'']
    rcases CardMoment.listed (h.steps m hm).exec (calls_may h m hm) hlisted with ⟨hch, -⟩ | ⟨hb, hservices⟩
    · by_cases hb : m.before.world.db.Listed venueID
      · exact hstood hb hch
      have hl : Lists venueID m := ⟨hb, hlisted⟩
      rcases hgate.lists hl with ⟨happ, hcalled⟩ | ⟨t₁, m₀, t₂, rfl, h₀, hno⟩
      · refine ⟨tr₁, m, [], rfl, happ, hl, hcalled, fun m' hm' => ?_⟩
        rwa [List.mem_singleton.1 hm']
      · rw [List.append_assoc, List.cons_append] at htr
        have hvet := ih t₁.length (by rw [← hn, List.length_append, List.length_cons]; omega) t₁ m₀ _ rfl htr h₀
        have hstill : ∀ m' ∈ t₂ ++ [m], ¬ Changes venueID m' := fun m' hm' => by
          rcases List.mem_append.1 hm' with hm' | hm'
          · exact hno m' hm'
          · rwa [List.mem_singleton.1 hm']
        simpa using hvet.extend hstill
    · refine hstood hb fun hch => ?_
      obtain ⟨ownerID, services, ho⟩ := hservices hch
      exact hgate.services ownerID services ho hch hb

/-- **In a run a listed venue has been vetted at every moment, exactly if what lists it is an approval called for after the
last change, or finds it as it was listed before, and its services are not replaced while it is listed.** -/
theorem gate_iff (h : (cardSys rules).Trace w₀ tr c) (h0 : ¬ w₀.db.Listed venueID) :
    ((∀ tr₁ m tr₂, tr = tr₁ ++ m :: tr₂ → m.after.db.Listed venueID → Vetted rules venueID (tr₁ ++ [m])) ∧
      (c.world.db.Listed venueID → Vetted rules venueID tr)) ↔
    ∀ tr₁ m tr₂, tr = tr₁ ++ m :: tr₂ → Gated rules venueID tr₁ m := by
  constructor
  · rintro ⟨hv, -⟩ tr₁ m tr₂ htr
    have hm : m ∈ tr := by rw [htr]; exact List.mem_append_right _ List.mem_cons_self
    constructor
    · intro hl
      obtain ⟨t, a, t', hsplit, happ, hla, hcalled, hno⟩ := hv tr₁ m tr₂ htr hl.2
      rcases split_snoc hsplit with ⟨rfl, rfl⟩ | ⟨t'', rfl⟩
      · exact .inl ⟨happ, hcalled⟩
      · refine .inr ⟨t, a, t'', rfl, hla.2, fun m' hm' => hno m' (List.mem_cons_of_mem _ ?_)⟩
        rw [List.append_assoc, List.cons_append] at hsplit
        rw [← (List.cons.inj (List.append_cancel_left hsplit)).2]
        exact List.mem_append_left _ hm'
    · intro ownerID services ho hch hb
      obtain ⟨t, a, t', hsplit, -, -, -, hno⟩ :=
        hv tr₁ m tr₂ htr (CardMoment.listed_services (h.steps m hm).exec ho hb)
      rcases split_snoc hsplit with ⟨rfl, rfl⟩ | ⟨t'', rfl⟩
      · exact hno m List.mem_cons_self hch
      · rw [List.append_assoc, List.cons_append] at hsplit
        refine hno m (List.mem_cons_of_mem _ ?_) hch
        rw [← (List.cons.inj (List.append_cancel_left hsplit)).2]
        exact List.mem_append_right _ (List.mem_singleton.2 rfl)
  · intro hg
    refine ⟨fun tr₁ m tr₂ htr => vetted_of_gated h h0 hg _ tr₁ m tr₂ rfl htr, fun hlisted => ?_⟩
    rcases tables_last h with ⟨-, hdb⟩ | ⟨t, m, rfl, hdb⟩
    · rw [hdb] at hlisted
      exact absurd hlisted h0
    · rw [hdb] at hlisted
      exact vetted_of_gated h h0 hg _ t m [] rfl rfl hlisted

end Runs

/-! ## Ann's bath before the moderators -/

instance (db : CardDB) (venueID : String) : Decidable (db.Listed venueID) :=
  decidable_of_iff ((db.venue venueID).any fun v => decide (v.status = .active)) (by
    unfold CardDB.Listed
    rw [Option.any_eq_true]
    simp only [decide_eq_true_eq])

/-- Whether all of a run is an approval of the venue, and changes nothing of it. -/
def onlyApproves (venueID : String) (tr : List CardMoment) : Bool :=
  tr.all fun m => decide (m.after.db.content venueID = m.before.world.db.content venueID) &&
    match m.thread.call with
    | .moderateVenue id action _ _ => id == venueID && action == "approve"
    | _ => false

def approveMoves (i : ℕ) (n : ℕ) : List (Move CardCall CardTurn) :=
  .start (.moderateVenue annsVenue "approve" "" ann) :: List.replicate n (.step i annsTurn)

theorem gate_iff_ann : ∃ tr c, (cardSys plainCards).Trace annsCards tr c ∧ c.world.db.Listed annsVenue ∧
    Vetted plainCards annsVenue tr := by
  obtain ⟨tr, c, ht, hQ⟩ := cards_played annsCards (approveMoves 0 10)
    (Q := fun x => onlyApproves annsVenue x.1 && decide (x.2.world.db.Listed annsVenue)) (by decide +kernel)
  rw [Bool.and_eq_true, decide_eq_true_eq] at hQ
  have hall : ∀ m ∈ tr, ¬ Changes annsVenue m ∧ IsApproval plainCards annsVenue m := by
    intro m hm
    have hm := List.all_eq_true.1 hQ.1 m hm
    rw [Bool.and_eq_true, decide_eq_true_eq] at hm
    refine ⟨fun hc => hc hm.1, ?_⟩
    have hcall := hm.2
    split at hcall
    · rename_i id action comment moderatedBy hcallEq
      rw [Bool.and_eq_true, beq_iff_eq, beq_iff_eq] at hcall
      obtain ⟨rfl, rfl⟩ := hcall
      exact ⟨_, _, _, hcallEq, by decide +kernel⟩
    · cases hcall
  refine ⟨tr, c, ht, hQ.2, ((gate_iff ht (by decide +kernel)).2 fun tr₁ m tr₂ htr => ?_).2 hQ.2⟩
  have hmem : ∀ m' ∈ tr₁, m' ∈ tr := fun m' hm' => by rw [htr]; exact List.mem_append_left _ hm'
  have hm : m ∈ tr := by rw [htr]; exact List.mem_append_right _ List.mem_cons_self
  exact ⟨fun _ => .inl ⟨(hall m hm).2, fun m' hm' hc => absurd hc (hall m' (hmem m' hm')).1⟩,
    fun _ _ _ hc => absurd hc (hall m hm).1⟩

/-- The approval comes while Ann's update is between the card and its services. -/
theorem gate_passed : ¬ ∀ (rules : CardRules) (w₀ : CardWorld) (tr : List CardMoment) (c : CardConfig) (venueID : String),
    ¬ w₀.db.Listed venueID → (cardSys rules).Trace w₀ tr c → c.world.db.Listed venueID → Vetted rules venueID tr := by
  intro hall
  obtain ⟨tr, c, ht, hQ⟩ := cards_played annsCards
    (.start (.updateVenue { id := annsVenue, ownerID := ann, servicesReplace := some [⟨"steam", 60, 500, ""⟩] }) ::
      List.replicate 9 (.step 0 annsTurn) ++ approveMoves 1 5 ++ List.replicate 6 (.step 0 annsTurn))
    (Q := fun x => decide (x.2.world.db.Listed annsVenue) && x.1.getLast?.any fun (m : CardMoment) =>
      decide (m.after.db.content annsVenue ≠ m.before.world.db.content annsVenue)) (by decide +kernel)
  rw [Bool.and_eq_true, decide_eq_true_eq, Option.any_eq_true] at hQ
  obtain ⟨hlisted, m, hlast, hc⟩ := hQ
  obtain ⟨tr₁, a, tr₂, rfl, -, -, -, hno⟩ := hall plainCards annsCards tr c annsVenue (by decide +kernel) ht hlisted
  rw [List.getLast?_append_of_ne_nil _ (List.cons_ne_nil _ _)] at hlast
  rw [decide_eq_true_eq] at hc
  exact hno m (List.mem_of_getLast? hlast) hc

end Agregator
