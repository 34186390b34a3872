import Agregator.VenueWrites
/-!
# VenueDecisions — the calls that list a venue

No call enters a card as listed, and the status of a listed one is written for a moderator who approves or resumes.
-/
namespace Agregator

open Rel Conc

variable {rules : CardRules}

/-- What an operation that enters a card or writes a status has to do with its call. -/
def CardCall.May (rules : CardRules) (call : CardCall) : CardOp → Prop
  | .sql (.create v _ _) => v.status ≠ .active
  | .sql (.updateStatus venueID .active _ _) => ∃ action comment moderatedBy,
      call = .moderateVenue venueID action comment moderatedBy ∧
        (trimSpace (rules.lower action) = "approve" ∨ trimSpace (rules.lower action) = "resume")
  | _ => True

/-- An operation that writes nothing to the tables. -/
def CardOp.Reads : CardOp → Prop
  | .sql (.getVenue _) | .sql (.getServices _) | .sql (.getPhotos _) | .sql (.getHalls _) | .sql (.getBySlug _)
  | .sql (.listByOwner _) => True
  | .sql _ => False
  | _ => True

/-- An operation that neither enters a card nor writes a status. -/
def CardOp.Quiet : CardOp → Prop
  | .sql (.create ..) | .sql (.updateStatus ..) => False
  | _ => True

theorem CardOp.Reads.quiet {o : CardOp} (h : o.Reads) : o.Quiet := by
  unfold CardOp.Quiet
  split
  · exact h
  · exact h
  · trivial

theorem CardOp.reads_quiet {α : Type} {p : CardProg α} (h : p.All CardOp.Reads) : p.All CardOp.Quiet :=
  h.mono fun _ ho => ho.quiet

theorem CardOp.Quiet.may {call : CardCall} {o : CardOp} (h : o.Quiet) : call.May rules o := by
  unfold CardCall.May
  split
  · exact absurd h id
  · exact absurd h id
  · trivial

namespace VenueUseCase

theorem repoGetByID_reads (venueID : String) : (repoGetByID venueID).All CardOp.Reads := by
  refine ⟨trivial, fun card => ?_⟩
  rcases card with e | (_ | card)
  · trivial
  · trivial
  refine ⟨trivial, fun services => ?_⟩
  cases services with
  | error e => trivial
  | ok services =>
    refine ⟨trivial, fun photos => ?_⟩
    cases photos with
    | error e => trivial
    | ok photos =>
      refine ⟨trivial, fun halls => ?_⟩
      cases halls <;> trivial

theorem readVenue_reads (venueID : String) : (readVenue venueID).All CardOp.Reads := by
  refine Prog.All.bind (fun res => ?_) (repoGetByID_reads venueID)
  rcases res with e | (_ | v) <;> trivial

theorem getByID_reads (venueID : String) : (getByID venueID).All CardOp.Reads := by
  refine ⟨trivial, fun flight => ?_⟩
  cases flight with
  | follow n => exact ⟨trivial, fun _ => trivial⟩
  | lead n =>
    have huncached : (getByIDUncached venueID).All CardOp.Reads := by
      refine ⟨trivial, fun hit => ?_⟩
      cases hit with
      | some v => trivial
      | none =>
        show Prog.All _ ((repoGetByID venueID).bind _)
        refine Prog.All.bind (fun res => ?_) (repoGetByID_reads venueID)
        rcases res with e | (_ | v)
        · trivial
        · trivial
        · exact ⟨trivial, fun _ => trivial⟩
    show Prog.All _ ((getByIDUncached venueID).bind _)
    refine Prog.All.bind (fun res => ?_) huncached
    exact ⟨trivial, fun _ => trivial⟩

theorem resolveCoordinates_reads (v : VenueCard) : (resolveCoordinates v).All CardOp.Reads := by
  unfold resolveCoordinates
  split
  · trivial
  · refine ⟨trivial, fun point => ?_⟩
    rcases point with _ | ⟨lat, lng⟩ <;> trivial

theorem update_quiet (v : VenueCard) : (update rules v).All CardOp.Quiet := by
  unfold update
  split
  · trivial
  · refine Prog.All.bind (fun v => ?_) (CardOp.reads_quiet (resolveCoordinates_reads _))
    refine ⟨trivial, fun res => ?_⟩
    cases res with
    | error e => trivial
    | ok n => exact ⟨trivial, fun _ => trivial⟩

theorem ensureVenueOwner_reads (venueID ownerID : String) : (ensureVenueOwner venueID ownerID).All CardOp.Reads := by
  refine Prog.All.bind (fun res => ?_) (readVenue_reads venueID)
  cases res with
  | error e => trivial
  | ok v =>
    simp only
    split <;> trivial

/-- A statement, and what follows of its answer. -/
theorem query_quiet {β : Type} {s : CardSql} {f : Except VenueErr s.Ans → CardProg β} (hs : (CardOp.sql s).Quiet)
    (herr : ∀ e, (f (.error e)).All CardOp.Quiet) (hok : ∀ a, (f (.ok a)).All CardOp.Quiet) :
    ((CardSql.query s).bind f).All CardOp.Quiet := by
  refine ⟨hs, fun res => ?_⟩
  cases res with
  | error e => exact herr e
  | ok a => exact hok a

/-- What is run for the owner, once the venue has been read. -/
theorem owned_quiet {β : Type} {venueID ownerID : String} {f : Except Err VenueDetails → CardProg β}
    (herr : ∀ e, (f (.error e)).All CardOp.Quiet) (hok : ∀ v, (f (.ok v)).All CardOp.Quiet) :
    ((ensureVenueOwner venueID ownerID).bind f).All CardOp.Quiet := by
  refine Prog.All.bind (fun res => ?_) (CardOp.reads_quiet (ensureVenueOwner_reads venueID ownerID))
  cases res with
  | error e => exact herr e
  | ok v => exact hok v

theorem replaceVenueServices_quiet (venueID ownerID : String) (services : List VenueService) :
    (replaceVenueServices venueID ownerID services).All CardOp.Quiet := by
  unfold replaceVenueServices
  split
  · trivial
  · exact owned_quiet (fun _ => trivial) fun _ =>
      query_quiet trivial (fun _ => trivial) fun _ => ⟨trivial, fun _ => trivial⟩

theorem replaceVenueHalls_quiet (venueID ownerID : String) (items : List VenueHallUpsert) :
    (replaceVenueHalls venueID ownerID items).All CardOp.Quiet := by
  refine owned_quiet (fun _ => trivial) fun v => ?_
  show Prog.All _ (if maxVenueHalls < items.length then _ else _)
  split
  · trivial
  · exact query_quiet trivial (fun _ => trivial) fun _ => ⟨trivial, fun _ => trivial⟩

theorem editPhotos_quiet (venueID ownerID : String) {s : CardSql} (hs : (CardOp.sql s).Quiet) (writeErr : VenueErr → Err) :
    (editPhotos venueID ownerID s writeErr).All CardOp.Quiet :=
  owned_quiet (fun _ => trivial) fun _ => query_quiet hs (fun _ => trivial) fun _ => ⟨trivial, fun _ => trivial⟩

theorem submitVenueForReview_quiet (venueID ownerID : String) :
    (submitVenueForReview rules venueID ownerID).All CardOp.Quiet := by
  refine Prog.All.bind (fun res => ?_) (CardOp.reads_quiet (readVenue_reads venueID))
  cases res with
  | error e => trivial
  | ok v =>
    simp only
    split
    · trivial
    split
    · trivial
    refine ⟨trivial, fun n => ?_⟩
    cases n with
    | error e => trivial
    | ok n =>
      show Prog.All _ (if n = 0 then _ else _)
      split
      · trivial
      refine Prog.All.bind (fun res => ?_) (CardOp.reads_quiet (readVenue_reads venueID))
      cases res with
      | error e => trivial
      | ok v => exact ⟨trivial, fun _ => trivial⟩

theorem dropCached_quiet : ∀ venues : List VenueCard, (dropCached venues).All CardOp.Quiet
  | [] => trivial
  | _ :: venues => ⟨trivial, fun _ => dropCached_quiet venues⟩

theorem suspendByOwner_quiet (ownerID : String) : (suspendByOwner ownerID).All CardOp.Quiet := by
  refine ⟨trivial, fun venues => ?_⟩
  cases venues with
  | error e => trivial
  | ok venues =>
    refine ⟨trivial, fun n => ?_⟩
    cases n with
    | error e => trivial
    | ok n =>
      show Prog.All _ ((dropCached venues).bind _)
      refine Prog.All.bind (fun _ => ?_) (dropCached_quiet venues)
      trivial

theorem updateRating_quiet (venueID : String) (avgRating : ℚ) (reviewCount : ℤ) :
    (updateRating venueID avgRating reviewCount).All CardOp.Quiet := by
  unfold updateRating
  split
  · trivial
  split
  · trivial
  · exact query_quiet trivial (fun _ => trivial) fun _ => ⟨trivial, fun _ => trivial⟩

theorem setBookingMode_quiet (venueID : String) (mode : BookingMode) : (setBookingMode venueID mode).All CardOp.Quiet := by
  refine ⟨trivial, fun n => ?_⟩
  rcases n with e | n
  · cases e <;> trivial
  · trivial

end VenueUseCase

/-- What the service returns of a use case does not matter. -/
theorem bind_ret_quiet {α β : Type} {p : CardProg α} {f : α → β} (hp : p.All CardOp.Quiet) :
    (p.bind fun r => (.ret (f r) : CardProg β)).All CardOp.Quiet := by
  refine Prog.All.bind (fun _ => ?_) hp
  trivial

theorem CardServer.servicesReplaced_quiet (req : UpdateVenueRequest) (ownerID : String) :
    (match req.servicesReplace with
      | none => (.ret (.ok ()) : CardProg (Except Err Unit))
      | some items => VenueUseCase.replaceVenueServices req.id ownerID (replacedServices items)).All CardOp.Quiet := by
  split
  · trivial
  · exact VenueUseCase.replaceVenueServices_quiet _ _ _

theorem CardServer.updateLists_quiet (req : UpdateVenueRequest) (ownerID : String) :
    (updateLists req ownerID).All CardOp.Quiet := by
  refine Prog.All.bind (fun res => ?_) (servicesReplaced_quiet req ownerID)
  cases res with
  | error e => trivial
  | ok u =>
    simp only
    split
    · trivial
    split
    · trivial
    refine Prog.All.bind (fun res => ?_) (VenueUseCase.replaceVenueHalls_quiet _ _ _)
    cases res <;> trivial

theorem CardServer.updateVenue_quiet (req : UpdateVenueRequest) : (updateVenue rules req).All CardOp.Quiet := by
  have hread : ∀ {f : Except Err (Option VenueDetails) → CardProg (Except Err Unit)}, (∀ res, (f res).All CardOp.Quiet) →
      ((VenueUseCase.getByID req.id).bind f).All CardOp.Quiet :=
    fun hf => Prog.All.bind hf (CardOp.reads_quiet (VenueUseCase.getByID_reads req.id))
  unfold updateVenue
  split
  · trivial
  refine hread fun res => ?_
  rcases res with e | (_ | existing)
  · trivial
  · trivial
  simp only
  split
  · trivial
  refine Prog.All.bind (fun res => ?_) (VenueUseCase.update_quiet _)
  cases res with
  | error e => trivial
  | ok u =>
    refine Prog.All.bind (fun res => ?_) (updateLists_quiet req existing.card.ownerID)
    cases res with
    | error e => trivial
    | ok u =>
      refine hread fun res => ?_
      rcases res with e | (_ | v) <;> trivial

/-! ### Those that enter a card or write a status -/

theorem normalizeCard_status {verify : VenueCard → Except Err VenueCard} (hv : ∀ v v', verify v = .ok v' → v'.status = v.status)
    {v v' : VenueCard} (h : normalizeCard rules verify v = .ok v') : v'.status = v.status := by
  unfold normalizeCard at h
  split at h
  · cases h
  split at h
  · cases h
  split at h
  · cases h
  rename_i v₁ h₁
  split at h
  · cases h
  rename_i v₂ h₂
  split at h
  · cases h
  cases h
  unfold normalizeVenuePayoutProfile at h₂
  simp only at h₂
  split at h₂
  · cases h₂
    exact hv v v₁ h₁
  · cases h₂

theorem validateVenueVerificationCore_status {v v' : VenueCard} (h : validateVenueVerificationCore rules v = .ok v') :
    v'.status = v.status := by
  unfold validateVenueVerificationCore at h
  simp only at h
  repeat' split at h
  all_goals cases h
  rfl

theorem VenueUseCase.repoCreate_may {call : CardCall} {v : VenueCard} {services : List VenueService} {halls : List VenueHall}
    (hv : v.status ≠ .active) : (repoCreate rules v services halls).All (call.May rules) := by
  refine ⟨trivial, fun res => ?_⟩
  show Prog.All _ (if _ then _ else _)
  split
  · exact ⟨trivial, fun id => ⟨hv, fun _ => trivial⟩⟩
  · exact ⟨hv, fun _ => trivial⟩

theorem VenueUseCase.create_may {call : CardCall} {v : VenueCard} (services : List VenueService) (halls : List VenueHall)
    (hv : v.status ≠ .active) : (create rules v services halls).All (call.May rules) := by
  have hquiet : ∀ {α : Type} {p : CardProg α}, p.All CardOp.Quiet → p.All (call.May rules) :=
    fun hp => hp.mono fun _ ho => ho.may
  unfold create
  split
  · trivial
  rename_i v₁ h₁
  split
  · trivial
  split
  · trivial
  have hcoords : ∀ {f : VenueCard → CardProg (Except Err Unit)}, (∀ v, v.status ≠ .active → (f v).All (call.May rules)) →
      ((resolveCoordinates v₁).bind f).All (call.May rules) := by
    intro f hf
    have hv₁ : v₁.status ≠ .active := by
      rw [normalizeCard_status (fun v v' => validateVenueVerificationCore_status) h₁]
      exact hv
    unfold resolveCoordinates
    split
    · exact hf _ hv₁
    · refine ⟨trivial, fun point => ?_⟩
      rcases point with _ | ⟨lat, lng⟩
      · exact hf _ hv₁
      · exact hf _ hv₁
  refine hcoords fun v hv => ?_
  refine Prog.All.bind (fun res => ?_) (repoCreate_may hv)
  cases res with
  | error e => trivial
  | ok v => exact ⟨trivial, fun _ => trivial⟩

theorem VenueUseCase.moderate_may (venueID action comment moderatedBy : String) :
    (moderate rules venueID action comment moderatedBy).All
      ((CardCall.moderateVenue venueID action comment moderatedBy).May rules) := by
  have hread : ∀ {f : Except Err VenueDetails → CardProg (Except Err Unit)},
      (∀ res, (f res).All ((CardCall.moderateVenue venueID action comment moderatedBy).May rules)) →
      ((readVenue venueID).bind f).All ((CardCall.moderateVenue venueID action comment moderatedBy).May rules) :=
    fun hf => Prog.All.bind hf ((readVenue_reads venueID).mono fun _ ho => ho.quiet.may)
  refine hread fun res => ?_
  cases res with
  | error e => trivial
  | ok existing =>
    simp only
    split
    · trivial
    rename_i status hstatus
    split
    · trivial
    refine ⟨?_, fun res => ?_⟩
    · cases status with
      | active =>
        refine ⟨action, comment, moderatedBy, rfl, ?_⟩
        unfold newStatus at hstatus
        by_cases ha : trimSpace (rules.lower action) = "approve"
        · exact .inl ha
        by_cases hr : trimSpace (rules.lower action) = "resume"
        · exact .inr hr
        rw [if_neg ha] at hstatus
        split at hstatus
        · split at hstatus <;> cases hstatus
        split at hstatus
        · split at hstatus <;> cases hstatus
        cases hstatus
      | _ => trivial
    · cases res with
      | error e => trivial
      | ok n =>
        refine hread fun res => ?_
        cases res with
        | error e => trivial
        | ok v => exact ⟨trivial, fun _ => trivial⟩

/-- **A card is never entered as listed, and the status of a listed one is written for a moderator who approves or resumes.** -/
theorem CardCall.prog_may (call : CardCall) : (call.prog rules).All (call.May rules) := by
  have hquiet : ∀ {p : CardProg (Except Err Unit)}, p.All CardOp.Quiet → p.All (call.May rules) :=
    fun hp => hp.mono fun _ ho => ho.may
  have hbad : ∀ {id msg : String} {p : CardProg (Except Err Unit)}, p.All (call.May rules) →
      (badID id msg p).All (call.May rules) := by
    intro id msg p hp
    unfold badID
    split
    · trivial
    · exact hp
  have howned : ∀ {venueID ownerID : String} {p : CardProg (Except Err Unit)}, p.All CardOp.Quiet →
      (owned venueID ownerID p).All (call.May rules) := fun hp => hbad (hbad (hquiet (bind_ret_quiet hp)))
  have hedit : ∀ {venueID ownerID : String} {s : CardSql} {writeErr : VenueErr → Err}, (CardOp.sql s).Quiet →
      (VenueUseCase.editPhotos venueID ownerID s writeErr).All CardOp.Quiet :=
    fun hs => VenueUseCase.editPhotos_quiet _ _ hs _
  cases call with
  | getVenue venueID => exact hbad (hquiet (bind_ret_quiet (CardOp.reads_quiet (VenueUseCase.getByID_reads venueID))))
  | createVenue req =>
    show Prog.All _ (CardServer.createVenue rules req)
    unfold CardServer.createVenue
    split
    · trivial
    · refine Prog.All.bind (fun _ => ?_) (VenueUseCase.create_may _ _ ?_)
      · trivial
      · cases hd : req.startAsDraft <;> simp [CardServer.newCard, hd]
  | updateVenue req => exact hquiet (CardServer.updateVenue_quiet req)
  | submitVenueForReview venueID ownerID =>
    exact hbad (hbad (hquiet (bind_ret_quiet (VenueUseCase.submitVenueForReview_quiet venueID ownerID))))
  | moderateVenue venueID action comment moderatedBy =>
    refine hbad (hbad (Prog.All.bind (fun _ => ?_) (VenueUseCase.moderate_may venueID action comment moderatedBy)))
    trivial
  | suspendVenuesByOwner ownerID => exact hbad (hquiet (bind_ret_quiet (VenueUseCase.suspendByOwner_quiet ownerID)))
  | addVenuePhoto venueID ownerID url =>
    refine howned ?_
    split
    · trivial
    · exact hedit (s := .addVenuePhoto _ _ _) trivial
  | deleteVenuePhoto venueID ownerID photoID => exact howned (hedit (s := .deleteVenuePhoto _ _ _) trivial)
  | setVenueCoverPhoto venueID ownerID photoID => exact howned (hedit (s := .setVenueCoverPhoto _ _ _) trivial)
  | editMedia venueID ownerID => exact howned (hedit (s := .editMedia _ _) trivial)
  | updateVenueRating venueID avgRating reviewCount =>
    exact hbad (hquiet (bind_ret_quiet (VenueUseCase.updateRating_quiet venueID avgRating reviewCount)))
  | setBookingMode venueID mode => exact hbad (hquiet (bind_ret_quiet (VenueUseCase.setBookingMode_quiet venueID mode)))

end Agregator
