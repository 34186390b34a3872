import Agregator.VenueDecisions
import Agregator.VenuePlay
/-!
# VenueMerge — two updates of one card

An update reads a card, writes what its request sets into the copy and stores the whole copy.  What it does not set it stores
as it has read it, so it keeps what another update has stored exactly if the copy is not stale in those columns.
-/
namespace Agregator

open Rel Conc

variable {rules : CardRules}

/-! ## The columns of a request -/

/-- The columns of a card that a request can set. -/
inductive VenueField where
  | name | description | address | city | latitude | longitude | priceFrom | priceWeekend | capacity | amenities | workingHours
  | phone | legalEntityName | inn | ogrn | publicListingURL | verificationNote | socialLinks | payoutLegalForm
deriving DecidableEq, Repr

inductive VenueValue where
  | text (s : String)
  | int (n : ℤ)
  | deg (q : ℚ)
  | list (l : List String)
deriving DecidableEq, Repr

/-- A text, rewritten. -/
def VenueValue.mapText (g : String → String) : VenueValue → VenueValue
  | text s => text (g s)
  | v => v

namespace VenueField

/-- The value of a column in a card. -/
def read (v : VenueCard) : VenueField → VenueValue
  | name => .text v.name
  | description => .text v.description
  | address => .text v.address
  | city => .text v.city
  | latitude => .deg v.latitude
  | longitude => .deg v.longitude
  | priceFrom => .int v.priceFrom
  | priceWeekend => .int v.priceWeekend
  | capacity => .int v.capacity
  | amenities => .list v.amenities
  | workingHours => .text v.workingHours
  | phone => .text v.phone
  | legalEntityName => .text v.legalEntityName
  | inn => .text v.inn
  | ogrn => .text v.ogrn
  | publicListingURL => .text v.publicListingURL
  | verificationNote => .text v.verificationNote
  | socialLinks => .text v.socialLinks
  | payoutLegalForm => .text v.payoutLegalForm

/-- What is stored of a text that is to be JSON. -/
def jsonText (rules : CardRules) (s : String) : Option VenueValue := (rules.jsonb (if s = "" then "{}" else s)).map .text

/-- What a store of the card writes to a column. -/
def written (rules : CardRules) (v : VenueCard) : VenueField → Option VenueValue
  | workingHours => jsonText rules v.workingHours
  | socialLinks => jsonText rules v.socialLinks
  | f => some (f.read v)

/-- The columns that a replacement of the halls writes as well. -/
def ofHalls : VenueField → Bool
  | priceFrom | priceWeekend | capacity | amenities => true
  | _ => false

/-- The columns whose texts are normalised. -/
def normalised : VenueField → Bool
  | legalEntityName | publicListingURL | verificationNote | inn | ogrn | payoutLegalForm | workingHours | socialLinks => true
  | _ => false

/-- The column holds what a request has given for it, as the service normalises it: texts of the owner's block are trimmed and
numbers reduced to their digits unless the whole block is empty, and a point that is no point is looked up. -/
def Takes (rules : CardRules) (f : VenueField) (a b : VenueValue) : Prop :=
  match f with
  | latitude | longitude => b = a ∨ a = .deg 0
  | legalEntityName | publicListingURL | verificationNote => b = a.mapText trimSpace ∨ (a.mapText trimSpace = .text "" ∧ b = a)
  | inn | ogrn => b = a.mapText normalizeDigits ∨ (a.mapText normalizeDigits = .text "" ∧ b = a)
  | payoutLegalForm => b = a.mapText fun s => trimSpace (rules.lower s)
  | workingHours => ∃ s, a = .text s ∧ jsonText rules s = some b
  | socialLinks => ∃ s, a = .text s ∧ jsonText rules (trimSpace s) = some b
  | _ => b = a

end VenueField

namespace UpdateVenueRequest

variable (req : UpdateVenueRequest)

/-- The value that the request gives for a column. -/
def gives : VenueField → Option VenueValue
  | .name => req.name.map .text
  | .description => req.description.map .text
  | .address => req.address.map .text
  | .city => req.city.map .text
  | .latitude => req.latitude.map .deg
  | .longitude => req.longitude.map .deg
  | .priceFrom => req.priceFrom.map .int
  | .priceWeekend => req.priceWeekend.map .int
  | .capacity => req.capacity.map .int
  | .amenities => if req.amenities = [] then none else some (.list req.amenities)
  | .workingHours => req.workingHours.map .text
  | .phone => req.phone.map .text
  | .legalEntityName => req.legalEntityName.map .text
  | .inn => req.inn.map .text
  | .ogrn => req.ogrn.map .text
  | .publicListingURL => req.publicListingURL.map .text
  | .verificationNote => req.verificationNote.map .text
  | .socialLinks => req.socialLinks.map .text
  | .payoutLegalForm => req.payoutLegalForm.map .text

/-- Whether the column is set: by a value, or with the halls. -/
def sets (f : VenueField) : Bool := (req.gives f).isSome || (req.hallsReplace.isSome && f.ofHalls)

end UpdateVenueRequest

/-! ## What an update makes of the card it has read -/

/-- The card is one that the update can store, whatever it has read and the address is looked up to. -/
def UpdateVenueRequest.Stores (rules : CardRules) (req : UpdateVenueRequest) (u : VenueCard) : Prop :=
  ∃ existing v, normalizeCard rules (validateVenueVerificationForUpdate rules) (CardServer.patch req existing) = .ok v ∧
    (u = v ∨ (v.latitude = 0 ∧ v.longitude = 0 ∧ ∃ lat lng, u = { v with latitude := lat, longitude := lng }))

theorem normalizeCard_ok {verify : VenueCard → Except Err VenueCard} {v v' : VenueCard} (h : normalizeCard rules verify v = .ok v') :
    ∃ w sl, verify v = .ok w ∧ normalizeSocialLinksJSON rules w.socialLinks = .ok sl ∧
      v' = { w with payoutLegalForm := trimSpace (rules.lower w.payoutLegalForm), socialLinks := sl } := by
  unfold normalizeCard at h
  split at h
  · cases h
  split at h
  · cases h
  split at h
  · cases h
  rename_i w hw
  split at h
  · cases h
  rename_i w' hw'
  split at h
  · cases h
  rename_i sl hsl
  cases h
  unfold normalizeVenuePayoutProfile at hw'
  simp only at hw'
  split at hw'
  · cases hw'
    exact ⟨w, sl, hw, hsl, rfl⟩
  · cases hw'

/-- The owner's block as it is normalised. -/
def ownerBlock (v : VenueCard) : VenueCard :=
  { v with
    legalEntityName := trimSpace v.legalEntityName, inn := normalizeDigits v.inn, ogrn := normalizeDigits v.ogrn
    publicListingURL := trimSpace v.publicListingURL, verificationNote := trimSpace v.verificationNote }

theorem validateVenueVerificationCore_ok {v w : VenueCard} (h : validateVenueVerificationCore rules v = .ok w) :
    w = ownerBlock v := by
  unfold validateVenueVerificationCore at h
  simp only at h
  repeat' split at h
  all_goals cases h
  rfl

theorem validateVenueVerificationForUpdate_ok {v w : VenueCard} (h : validateVenueVerificationForUpdate rules v = .ok w) :
    w = ownerBlock v ∨ (w = v ∧ normalizeDigits v.inn = "" ∧ trimSpace v.legalEntityName = "" ∧
      trimSpace v.publicListingURL = "" ∧ normalizeDigits v.ogrn = "" ∧ trimSpace v.verificationNote = "") := by
  unfold validateVenueVerificationForUpdate at h
  split at h
  · rename_i hempty
    cases h
    exact .inr ⟨rfl, hempty⟩
  · exact .inl (validateVenueVerificationCore_ok h)

theorem normalizeSocialLinksJSON_ok {raw sl : String} (h : normalizeSocialLinksJSON rules raw = .ok sl) :
    (if sl = "" then "{}" else sl) = if trimSpace raw = "" then "{}" else trimSpace raw := by
  unfold normalizeSocialLinksJSON at h
  simp only at h
  by_cases hs : trimSpace raw = ""
  · rw [if_pos hs] at h ⊢
    cases h
    rfl
  · rw [if_neg hs] at h ⊢
    repeat' split at h
    all_goals cases h
    rw [if_neg hs]

/-- The patched card has what the request gives. -/
theorem read_patch {req : UpdateVenueRequest} {f : VenueField} {a : VenueValue} (h : req.gives f = some a) (v : VenueCard) :
    f.read (CardServer.patch req v) = a := by
  cases f
  case amenities =>
    unfold UpdateVenueRequest.gives at h
    simp only at h
    by_cases ha : req.amenities = []
    · rw [if_pos ha] at h
      cases h
    · rw [if_neg ha] at h
      cases h
      simp only [VenueField.read, CardServer.patch, if_neg ha]
  all_goals
    obtain ⟨x, hx, rfl⟩ := Option.map_eq_some_iff.1 h
    simp only [VenueField.read, CardServer.patch, hx, Option.getD_some]

/-- **The normalised card takes what the patched one has.** -/
theorem takes_normalized {p v : VenueCard} (h : normalizeCard rules (validateVenueVerificationForUpdate rules) p = .ok v)
    (f : VenueField) {b : VenueValue} (hb : f.written rules v = some b) : f.Takes rules (f.read p) b := by
  obtain ⟨w, sl, hw, hsl, rfl⟩ := normalizeCard_ok h
  have hread : f.normalised = false →
      f.read { w with payoutLegalForm := trimSpace (rules.lower w.payoutLegalForm), socialLinks := sl } = f.read p := by
    intro hn
    rcases validateVenueVerificationForUpdate_ok hw with rfl | ⟨rfl, -⟩
    · cases f <;> first | exact absurd hn (by decide) | simp only [VenueField.read, ownerBlock]
    · cases f <;> first | exact absurd hn (by decide) | simp only [VenueField.read]
  have hsome : ∀ {x y : VenueValue}, some x = some y → y = x := fun h => (Option.some.inj h).symm
  by_cases hn : f.normalised = false
  · have hval := hread hn
    cases f
    case latitude | longitude => exact .inl ((hsome hb).trans hval)
    all_goals first | exact absurd hn (by decide) | exact (hsome hb).trans hval
  clear hread
  cases f
  case legalEntityName =>
    rcases validateVenueVerificationForUpdate_ok hw with rfl | ⟨rfl, -, hempty, -⟩
    · exact .inl (hsome hb)
    · exact .inr ⟨congrArg VenueValue.text hempty, hsome hb⟩
  case publicListingURL =>
    rcases validateVenueVerificationForUpdate_ok hw with rfl | ⟨rfl, -, -, hempty, -⟩
    · exact .inl (hsome hb)
    · exact .inr ⟨congrArg VenueValue.text hempty, hsome hb⟩
  case verificationNote =>
    rcases validateVenueVerificationForUpdate_ok hw with rfl | ⟨rfl, -, -, -, -, hempty⟩
    · exact .inl (hsome hb)
    · exact .inr ⟨congrArg VenueValue.text hempty, hsome hb⟩
  case inn =>
    rcases validateVenueVerificationForUpdate_ok hw with rfl | ⟨rfl, hempty, -⟩
    · exact .inl (hsome hb)
    · exact .inr ⟨congrArg VenueValue.text hempty, hsome hb⟩
  case ogrn =>
    rcases validateVenueVerificationForUpdate_ok hw with rfl | ⟨rfl, -, -, -, hempty, -⟩
    · exact .inl (hsome hb)
    · exact .inr ⟨congrArg VenueValue.text hempty, hsome hb⟩
  case payoutLegalForm =>
    rcases validateVenueVerificationForUpdate_ok hw with rfl | ⟨rfl, -⟩
    · exact hsome hb
    · exact hsome hb
  case workingHours =>
    rcases validateVenueVerificationForUpdate_ok hw with rfl | ⟨rfl, -⟩
    · exact ⟨_, rfl, hb⟩
    · exact ⟨_, rfl, hb⟩
  case socialLinks =>
    have hraw : w.socialLinks = p.socialLinks := by
      rcases validateVenueVerificationForUpdate_ok hw with rfl | ⟨rfl, -⟩ <;> rfl
    rw [hraw] at hsl
    unfold VenueField.written VenueField.jsonText at hb
    rw [normalizeSocialLinksJSON_ok hsl] at hb
    exact ⟨_, rfl, hb⟩
  all_goals exact absurd rfl hn

/-- **A store takes what its request gives.** -/
theorem UpdateVenueRequest.Stores.takes {req : UpdateVenueRequest} {u : VenueCard} (h : req.Stores rules u) {f : VenueField}
    {a b : VenueValue} (ha : req.gives f = some a) (hb : f.written rules u = some b) : f.Takes rules a b := by
  obtain ⟨existing, v, hn, hu⟩ := h
  rw [← read_patch ha existing]
  rcases hu with rfl | ⟨hlat, hlng, lat, lng, rfl⟩
  · exact takes_normalized hn f hb
  · by_cases hf : f = .latitude
    · subst hf
      rcases takes_normalized hn .latitude rfl with heq | hzero
      · exact .inr (heq.symm.trans (congrArg VenueValue.deg hlat))
      · exact .inr hzero
    by_cases hf' : f = .longitude
    · subst hf'
      rcases takes_normalized hn .longitude rfl with heq | hzero
      · exact .inr (heq.symm.trans (congrArg VenueValue.deg hlng))
      · exact .inr hzero
    have hsame : f.written rules { v with latitude := lat, longitude := lng } = f.written rules v := by
      cases f <;> first | rfl | contradiction
    rw [hsame] at hb
    exact takes_normalized hn f hb

/-! ## One statement -/

section Statement

variable {env : DbEnv} {s : CardSql} {db db' : CardDB}

theorem CardRepo.read_edited {v r : VenueCard} {now : Time} {workingHours socialLinks : String}
    (hw : rules.jsonb (if v.workingHours = "" then "{}" else v.workingHours) = some workingHours)
    (hs : rules.jsonb (if v.socialLinks = "" then "{}" else v.socialLinks) = some socialLinks) (f : VenueField) :
    f.written rules v = some (f.read (CardRepo.edited now v workingHours socialLinks r)) := by
  unfold CardRepo.edited
  rw [CardRepo.resetToPendingReview_keeps (VenueField.read · f) (fun _ _ => by cases f <;> rfl)]
  cases f
  case workingHours => exact congrArg (Option.map VenueValue.text) hw
  case socialLinks => exact congrArg (Option.map VenueValue.text) hs
  all_goals rfl

/-- A store writes what it is given. -/
theorem CardRepo.update_written {v r : VenueCard} (h : (CardRepo.update rules env v db).2 ≠ db) (f : VenueField) :
    f.written rules v = some (f.read (CardRepo.stored rules env.now v r)) := by
  unfold CardRepo.update at h
  split at h
  · rename_i workingHours socialLinks hw hs
    rw [CardRepo.stored_eq r hw hs]
    exact CardRepo.read_edited hw hs f
  · exact absurd rfl h

/-- **No statement but a store writes the columns**, and the replacement of the halls those of the halls. -/
theorem CardSql.row_read {halls : Table venueHallSchema} {r : VenueCard} (hu : ∀ v, s = .update v → v.id ≠ r.id)
    {f : VenueField} (hh : s.hallsAt = some r.id → f.ofHalls = false) : f.read (s.row rules env halls r) = f.read r := by
  have hpending : ∀ v, f.read (CardRepo.resetToPendingReview env.now v) = f.read v :=
    CardRepo.resetToPendingReview_keeps (VenueField.read · f) (fun _ _ => by cases f <;> rfl) env.now
  have hite : ∀ {p : Bool} {x : VenueCard}, f.read x = f.read r → f.read (if p then x else r) = f.read r := by
    intro p x hx
    cases p
    · rfl
    · exact hx
  cases s with
  | update v =>
    have hne : ¬ (r.id == v.id) = true := by
      rw [beq_iff_eq]
      exact fun h => hu v rfl h.symm
    simp only [row, if_neg hne]
  | editMedia | addVenuePhoto | deleteVenuePhoto | setVenueCoverPhoto => exact hite (hpending _)
  | replaceVenueHalls venueID =>
    by_cases hid : (r.id == venueID) = true
    · have hno := hh (congrArg some (eq_of_beq hid).symm)
      simp only [row, if_pos hid]
      rw [hpending]
      cases f <;> first | rfl | cases hno
    · simp only [row, if_neg hid]
  | updateStatus | suspendByOwner | submitDraftForReview | updateRating | setBookingMode =>
    exact hite (by cases f <;> rfl)
  | _ => rfl

end Statement

/-! ## What an update does -/

abbrev CardHistory := List (Event CardOp CardOp.Res)

/-- The services that the request asks for, as they are stored. -/
def UpdateVenueRequest.services (req : UpdateVenueRequest) : Option (List VenueService) :=
  req.servicesReplace.map fun items => (CardServer.replacedServices items).map fun s =>
    { s with name := trimSpace s.name, description := trimSpace s.description }

/-- What an update may do: it stores a card of its request, and replaces what the request asks for. -/
def UpdateDoes (rules : CardRules) (req : UpdateVenueRequest) : CardOp → Prop
  | .sql (.update u) => req.Stores rules u
  | .sql (.replaceVenueServices venueID _ services) => venueID = req.id ∧ req.services = some services
  | .sql (.replaceVenueHalls venueID _ _) => venueID = req.id ∧ req.hallsReplace.isSome = true
  | o => o.Reads

/-- What is behind an update that has succeeded. -/
structure UpdateDone (req : UpdateVenueRequest) (h : CardHistory) : Prop where
  stored : ∃ u n, (⟨.sql (.update u), .ok n⟩ : Event CardOp CardOp.Res) ∈ h
  services : req.services ≠ none → ∃ ownerID services,
    (⟨.sql (.replaceVenueServices req.id ownerID services), .ok ()⟩ : Event CardOp CardOp.Res) ∈ h
  halls : req.hallsReplace ≠ none → ∃ ownerID items,
    (⟨.sql (.replaceVenueHalls req.id ownerID items), .ok ()⟩ : Event CardOp CardOp.Res) ∈ h

theorem CardOp.Reads.updateDoes {req : UpdateVenueRequest} {o : CardOp} (ho : o.Reads) : UpdateDoes rules req o := by
  unfold UpdateDoes
  split
  · exact absurd ho id
  · exact absurd ho id
  · exact absurd ho id
  · exact ho

/-- A read, in an update. -/
theorem CardOp.reads_obeys {α : Type} {req : UpdateVenueRequest} :
    ∀ {p : CardProg α} {h : CardHistory}, p.All CardOp.Reads →
      p.Obeys (fun _ => UpdateDoes rules req) (fun h' _ => h <+: h') h
  | .ret _, _, _ => List.prefix_rfl
  | .call _ _, h, hp => ⟨hp.1.updateDoes, fun r => (CardOp.reads_obeys (hp.2 r)).mono fun _ _ hq =>
      (List.prefix_append h _).trans hq⟩

theorem UpdateDone.grows {req : UpdateVenueRequest} {h h' : CardHistory} (hd : UpdateDone req h) (hh : h <+: h') :
    UpdateDone req h' := by
  obtain ⟨⟨u, n, hu⟩, hs, hl⟩ := hd
  refine ⟨⟨u, n, hh.subset hu⟩, fun hr => ?_, fun hr => ?_⟩
  · obtain ⟨ownerID, services, hm⟩ := hs hr
    exact ⟨ownerID, services, hh.subset hm⟩
  · obtain ⟨ownerID, items, hm⟩ := hl hr
    exact ⟨ownerID, items, hh.subset hm⟩

namespace VenueUseCase

theorem resolveCoordinates_obeys {req : UpdateVenueRequest} {h : CardHistory} (v : VenueCard) :
    (resolveCoordinates v).Obeys (fun _ => UpdateDoes rules req) (fun _ u =>
      u = v ∨ (v.latitude = 0 ∧ v.longitude = 0 ∧ ∃ lat lng, u = { v with latitude := lat, longitude := lng })) h := by
  unfold resolveCoordinates
  split
  · exact .inl rfl
  · rename_i hzero
    push Not at hzero
    refine ⟨trivial, fun point => ?_⟩
    rcases point with _ | ⟨lat, lng⟩
    · exact .inl rfl
    · exact .inr ⟨hzero.1, hzero.2.1, lat, lng, rfl⟩

theorem update_obeys {req : UpdateVenueRequest} {h : CardHistory} (existing : VenueCard) :
    (update rules (CardServer.patch req existing)).Obeys (fun _ => UpdateDoes rules req)
      (fun h' res => res = .ok () → ∃ u n, (⟨.sql (.update u), .ok n⟩ : Event CardOp CardOp.Res) ∈ h') h := by
  unfold update
  split
  · exact fun heq => nomatch heq
  rename_i v hv
  refine Prog.Obeys.bind ((resolveCoordinates_obeys v).mono fun h' u hu => ?_)
  refine ⟨⟨existing, v, hv, hu⟩, fun res => ?_⟩
  cases res with
  | error e => exact fun heq => nomatch heq
  | ok n =>
    refine ⟨trivial, fun _ _ => ⟨u, n, ?_⟩⟩
    simp

theorem replaceVenueServices_obeys {req : UpdateVenueRequest} {h : CardHistory} (ownerID : String) {items : List CardServiceItem}
    (hr : req.servicesReplace = some items) :
    (replaceVenueServices req.id ownerID (CardServer.replacedServices items)).Obeys (fun _ => UpdateDoes rules req)
      (fun h' res => h <+: h' ∧ (res = .ok () → ∃ ownerID services,
        (⟨.sql (.replaceVenueServices req.id ownerID services), .ok ()⟩ : Event CardOp CardOp.Res) ∈ h')) h := by
  have hasks : req.services = some ((CardServer.replacedServices items).map fun s =>
      { s with name := trimSpace s.name, description := trimSpace s.description }) := by
    unfold UpdateVenueRequest.services
    rw [hr, Option.map_some]
  unfold replaceVenueServices
  split
  · exact ⟨List.prefix_rfl, fun heq => nomatch heq⟩
  refine Prog.Obeys.bind ((CardOp.reads_obeys (ensureVenueOwner_reads req.id ownerID)).mono fun h' res hq => ?_)
  cases res with
  | error e => exact ⟨hq, fun heq => nomatch heq⟩
  | ok v =>
    refine ⟨⟨rfl, hasks⟩, fun res => ?_⟩
    cases res with
    | error e => exact ⟨hq.trans (List.prefix_append _ _), fun heq => nomatch heq⟩
    | ok u =>
      refine ⟨trivial, fun _ => ⟨?_, fun _ => ⟨ownerID, _, List.mem_append_left _ (List.mem_append_right _
        (List.mem_singleton.2 rfl))⟩⟩⟩
      rw [List.append_assoc]
      exact hq.trans (List.prefix_append _ _)

theorem replaceVenueHalls_obeys {req : UpdateVenueRequest} {h : CardHistory} (hr : req.hallsReplace.isSome = true)
    (ownerID : String) (items : List VenueHallUpsert) :
    (replaceVenueHalls req.id ownerID items).Obeys (fun _ => UpdateDoes rules req) (fun h' res => h <+: h' ∧ (res = .ok () →
      ∃ ownerID items, (⟨.sql (.replaceVenueHalls req.id ownerID items), .ok ()⟩ : Event CardOp CardOp.Res) ∈ h')) h := by
  refine Prog.Obeys.bind ((CardOp.reads_obeys (ensureVenueOwner_reads req.id ownerID)).mono fun h' res hq => ?_)
  cases res with
  | error e => exact ⟨hq, fun heq => nomatch heq⟩
  | ok v =>
    show Prog.Obeys _ _ _ (if maxVenueHalls < items.length then _ else _)
    split
    · exact ⟨hq, fun heq => nomatch heq⟩
    refine ⟨⟨rfl, hr⟩, fun res => ?_⟩
    cases res with
    | error e => exact ⟨hq.trans (List.prefix_append _ _), fun heq => nomatch heq⟩
    | ok u =>
      refine ⟨trivial, fun _ => ⟨?_, fun _ => ⟨ownerID, items, List.mem_append_left _ (List.mem_append_right _
        (List.mem_singleton.2 rfl))⟩⟩⟩
      rw [List.append_assoc]
      exact hq.trans (List.prefix_append _ _)

end VenueUseCase

theorem CardServer.servicesReplaced_obeys {req : UpdateVenueRequest} {h : CardHistory} (ownerID : String) :
    (match req.servicesReplace with
      | none => (Prog.ret (Except.ok ()) : CardProg (Except Err Unit))
      | some items => VenueUseCase.replaceVenueServices req.id ownerID (replacedServices items)).Obeys
      (fun _ => UpdateDoes rules req)
      (fun h' (res : Except Err Unit) => h <+: h' ∧ (res = Except.ok () → req.services ≠ none → ∃ ownerID services,
        (⟨.sql (.replaceVenueServices req.id ownerID services), .ok ()⟩ : Event CardOp CardOp.Res) ∈ h')) h := by
  split
  · rename_i hnone
    refine ⟨List.prefix_rfl, fun _ hs => absurd ?_ hs⟩
    unfold UpdateVenueRequest.services
    rw [hnone, Option.map_none]
  · rename_i items hsome
    refine (VenueUseCase.replaceVenueServices_obeys ownerID hsome).mono fun h' res hq => ?_
    exact ⟨hq.1, fun hres _ => hq.2 hres⟩

theorem CardServer.updateLists_obeys {req : UpdateVenueRequest} {h : CardHistory} (ownerID : String) :
    (updateLists req ownerID).Obeys (fun _ => UpdateDoes rules req) (fun h' res => h <+: h' ∧ (res = .ok () →
      (req.services ≠ none → ∃ ownerID services,
        (⟨.sql (.replaceVenueServices req.id ownerID services), .ok ()⟩ : Event CardOp CardOp.Res) ∈ h') ∧
      (req.hallsReplace ≠ none → ∃ ownerID items,
        (⟨.sql (.replaceVenueHalls req.id ownerID items), .ok ()⟩ : Event CardOp CardOp.Res) ∈ h'))) h := by
  refine Prog.Obeys.bind ((servicesReplaced_obeys ownerID).mono fun h₁ res hq => ?_)
  cases res with
  | error e => exact ⟨hq.1, fun heq => by cases heq⟩
  | ok u =>
    simp only
    split
    · rename_i hnone
      exact ⟨hq.1, fun _ => ⟨hq.2 rfl, fun hs => absurd hnone hs⟩⟩
    · rename_i items hsome
      split
      · exact ⟨hq.1, fun heq => by cases heq⟩
      refine Prog.Obeys.bind ((VenueUseCase.replaceVenueHalls_obeys (by rw [hsome]; rfl) ownerID _).mono fun h₂ res hq₂ => ?_)
      cases res with
      | error e => exact ⟨hq.1.trans hq₂.1, fun heq => by cases heq⟩
      | ok u =>
        refine ⟨hq.1.trans hq₂.1, fun _ => ⟨fun hs => ?_, fun _ => hq₂.2 rfl⟩⟩
        obtain ⟨ownerID, services, hm⟩ := hq.2 rfl hs
        exact ⟨ownerID, services, hq₂.1.subset hm⟩

theorem CardServer.updateVenue_obeys (req : UpdateVenueRequest) : (updateVenue rules req).Obeys (fun _ => UpdateDoes rules req)
    (fun h res => res = .ok () → UpdateDone req h) [] := by
  unfold updateVenue
  split
  · exact fun heq => nomatch heq
  refine Prog.Obeys.bind ((CardOp.reads_obeys (VenueUseCase.getByID_reads req.id)).mono fun h₁ res _ => ?_)
  rcases res with e | (_ | existing)
  · exact fun heq => nomatch heq
  · exact fun heq => nomatch heq
  simp only
  split
  · exact fun heq => nomatch heq
  refine Prog.Obeys.bind ((VenueUseCase.update_obeys existing.card).mono fun h₂ res hq₂ => ?_)
  cases res with
  | error e => exact fun heq => nomatch heq
  | ok u =>
    refine Prog.Obeys.bind ((updateLists_obeys existing.card.ownerID).mono fun h₃ res hq₃ => ?_)
    cases res with
    | error e => exact fun heq => nomatch heq
    | ok u =>
      have hdone : UpdateDone req h₃ := by
        obtain ⟨u, n, hu⟩ := hq₂ rfl
        exact ⟨⟨u, n, hq₃.1.subset hu⟩, (hq₃.2 rfl).1, (hq₃.2 rfl).2⟩
      refine Prog.Obeys.bind ((CardOp.reads_obeys (VenueUseCase.getByID_reads req.id)).mono fun h₄ res hq₄ => ?_)
      rcases res with e | (_ | v)
      · exact fun heq => nomatch heq
      · exact fun heq => nomatch heq
      · exact fun _ => hdone.grows hq₄

/-! ## Two updates -/

/-- Two requests on a venue that is stored, with nothing in common, and both have succeeded. -/
structure BothUpdated (w₀ : CardWorld) (c : CardConfig) (req₁ req₂ : UpdateVenueRequest) : Prop where
  same : req₂.id = req₁.id
  stored : w₀.db.venue req₁.id ≠ none
  columns : ∀ f, ¬ (req₁.sets f = true ∧ req₂.sets f = true)
  services : req₁.services = none ∨ req₂.services = none
  threads : ∃ h₁ h₂, c.threads = [⟨.updateVenue req₁, h₁, .ret (.ok ())⟩, ⟨.updateVenue req₂, h₂, .ret (.ok ())⟩]

/-- What is stored of a request: its columns but those its halls have given, its services, and its halls as it has left them. -/
structure UpdateKept (rules : CardRules) (req : UpdateVenueRequest) (tr : List CardMoment) (db : CardDB) : Prop where
  columns : ∀ f a, req.gives f = some a → (req.hallsReplace.isSome && f.ofHalls) = false →
    ∃ v, db.venue req.id = some v ∧ f.Takes rules a (f.read v)
  services : ∀ services, req.services = some services → ∃ newID, db.servicesOf req.id = CardRepo.serviceRows newID req.id services
  halls : req.hallsReplace ≠ none → ∃ m ∈ tr, m.thread.call = .updateVenue req ∧
    (∃ ownerID items, m.op = .sql (.replaceVenueHalls req.id ownerID items)) ∧ db.hallsOf req.id = m.after.db.hallsOf req.id

/-- What neither request sets is as it was. -/
structure Untouched (req₁ req₂ : UpdateVenueRequest) (db db' : CardDB) : Prop where
  columns : ∀ f, req₁.sets f = false → req₂.sets f = false →
    (db'.venue req₁.id).map (VenueField.read · f) = (db.venue req₁.id).map (VenueField.read · f)
  services : req₁.services = none → req₂.services = none → db'.servicesOf req₁.id = db.servicesOf req₁.id
  halls : req₁.hallsReplace = none → req₂.hallsReplace = none → db'.hallsOf req₁.id = db.hallsOf req₁.id

/-- A store writes the columns that its request does not set as they stand. -/
def StoresFresh (rules : CardRules) (m : CardMoment) : Prop :=
  ∀ req u, m.thread.call = .updateVenue req → m.op = .sql (.update u) → u.id = req.id ∧
    ∀ r, m.before.world.db.venue req.id = some r → ∀ f, req.sets f = false → f.written rules u = some (f.read r)

section Moment

variable {m : CardMoment} {req : UpdateVenueRequest}

theorem CardWorld.Exec.sql_ok {s : CardSql} {w w' : CardWorld} {a : s.Ans} (h : CardWorld.Exec rules (.sql s) w (.ok a) w') :
    ∃ env, (∀ l, (env.order l).Perm l) ∧ s.run rules env w.db = (.ok a, w'.db) := by
  obtain ⟨env, -, horder, -, hrun⟩ := h
  obtain ⟨hres, hw⟩ := Prod.mk.inj (Option.some.inj hrun)
  refine ⟨env.db, horder, @Fault.of_ok _ _ _ _ id _ _ _ env.fault _ ?_⟩
  rw [← hw]
  exact Prod.ext hres rfl

/-- **What an operation of an update does to a column**: nothing, or what its request sets. -/
theorem CardMoment.column (he : CardWorld.Exec rules m.op m.before.world m.res m.after) (hdo : UpdateDoes rules req m.op)
    (hcall : m.thread.call = .updateVenue req) (hfresh : StoresFresh rules m) {r : VenueCard}
    (hr : m.before.world.db.venue req.id = some r) (f : VenueField) : ∃ r', m.after.db.venue req.id = some r' ∧
      (f.read r' = f.read r ∨ (req.sets f = true ∧ ((∃ u, req.Stores rules u ∧ f.written rules u = some (f.read r')) ∨
        (req.hallsReplace.isSome && f.ofHalls) = true))) := by
  have hid : r.id = req.id := by simpa using (Table.get_mem hr).2
  by_cases hsame : m.after.db = m.before.world.db
  · exact ⟨r, by rw [hsame]; exact hr, .inl rfl⟩
  rcases he.tables with hdb | ⟨s, env, ho, -, hdb⟩
  · exact absurd hdb hsame
  rw [hdb] at hsame ⊢
  rcases s.run_cases rules env m.before.world.db with hrun | ⟨v, services, halls, rfl, -⟩ | hw
  · exact absurd hrun hsame
  · rw [ho] at hdo
    exact absurd hdo id
  refine ⟨_, by rw [hw.venue, hr]; rfl, ?_⟩
  by_cases hu : ∃ u, s = .update u
  · obtain ⟨u, rfl⟩ := hu
    obtain ⟨huid, hkept⟩ := hfresh req u hcall ho
    have hrow : CardSql.row rules env ((CardSql.update u).run rules env m.before.world.db).2.halls (.update u) r =
        CardRepo.stored rules env.now u r := if_pos (by rw [hid, huid]; exact BEq.rfl)
    have hwritten := CardRepo.update_written (r := r) hsame f
    rw [hrow]
    by_cases hset : req.sets f = true
    · rw [ho] at hdo
      exact .inr ⟨hset, .inl ⟨u, hdo, hwritten⟩⟩
    · rw [hkept r hr f (by simpa using hset)] at hwritten
      exact .inl (Option.some.inj hwritten).symm
  by_cases hhalls : s.hallsAt = some r.id → f.ofHalls = false
  · exact .inl (CardSql.row_read (fun u hs _ => hu ⟨u, hs⟩) hhalls)
  · push Not at hhalls
    obtain ⟨hat, hof⟩ := hhalls
    cases s with
    | replaceVenueHalls venueID ownerID items =>
      rw [ho] at hdo
      have hboth : (req.hallsReplace.isSome && f.ofHalls) = true := by
        rw [hdo.2, Bool.true_and]
        simpa using hof
      exact .inr ⟨by rw [UpdateVenueRequest.sets, hboth, Bool.or_true], .inr hboth⟩
    | _ => cases hat

/-- A store that has been answered has written what it was given. -/
theorem CardMoment.stored {u : VenueCard} {n : ℤ} {w w' : CardWorld} (he : CardWorld.Exec rules (.sql (.update u)) w (.ok n) w')
    {r : VenueCard} (hr : w.db.venue u.id = some r) (f : VenueField) :
    ∃ r', w'.db.venue u.id = some r' ∧ f.written rules u = some (f.read r') := by
  obtain ⟨env, -, hrun⟩ := he.sql_ok
  have hid : r.id = u.id := by simpa using (Table.get_mem hr).2
  have hupdate : CardRepo.update rules env u w.db = (.ok n, w'.db) := hrun
  unfold CardRepo.update at hupdate
  split at hupdate
  · rename_i workingHours socialLinks hw hs
    refine ⟨CardRepo.edited env.now u workingHours socialLinks r, ?_, CardRepo.read_edited hw hs f⟩
    unfold CardRepo.updateRows at hupdate
    split at hupdate
    · cases hupdate
    · rename_i venues hu
      rw [← (Prod.mk.inj hupdate).2]
      show venues.get (·.id == u.id) = _
      rw [Table.get_update hu]
      · have hget : w.db.venues.get (·.id == u.id) = some r := hr
        rw [hget, Option.map_some, if_pos (by rw [hid]; exact BEq.rfl)]
      · intro x
        unfold CardRepo.edited
        rw [CardRepo.resetToPendingReview_keeps (fun v => v.id == u.id) fun _ _ => rfl]
  · cases hupdate

theorem CardRepo.replaceVenueServices_rows {env : DbEnv} {venueID ownerID : String} {services : List VenueService}
    {db db' : CardDB} (h : replaceVenueServices env venueID ownerID services db = (.ok (), db')) :
    db'.servicesOf venueID = serviceRows env.newID venueID services := by
  unfold replaceVenueServices at h
  split at h
  · cases h
  split at h
  · cases h
  rename_i services' hi
  rw [← (Prod.mk.inj h).2]
  unfold CardDB.servicesOf
  rw [select_insertAll hi]
  have hnone : (db.services.delete (·.venueID == venueID)).select (·.venueID == venueID) = [] := by
    refine List.filter_eq_nil_iff.2 fun r hr => ?_
    simpa using (List.mem_filter.1 hr).2
  rw [hnone, List.nil_append]
  refine List.filter_eq_self.2 fun r hr => ?_
  obtain ⟨⟨s, k⟩, -, rfl⟩ := List.mem_map.1 hr
  simp

/-- A transaction that fails leaves the tables alone. -/
theorem CardRepo.replaceVenueServices_error {env : DbEnv} {venueID ownerID : String} {services : List VenueService} {db : CardDB}
    (h : (replaceVenueServices env venueID ownerID services db).1 ≠ .ok ()) :
    (replaceVenueServices env venueID ownerID services db).2 = db := by
  unfold replaceVenueServices at h ⊢
  split
  · rfl
  · rename_i hcheck
    rw [hcheck] at h
    split
    · rfl
    · rename_i hi
      simp only [hi] at h
      exact absurd rfl h

/-- What an operation of an update does to the services. -/
theorem CardMoment.services (he : CardWorld.Exec rules m.op m.before.world m.res m.after) (hdo : UpdateDoes rules req m.op) :
    m.after.db.servicesOf req.id = m.before.world.db.servicesOf req.id ∨ ∃ services newID, req.services = some services ∧
      m.after.db.servicesOf req.id = CardRepo.serviceRows newID req.id services := by
  rcases he.tables with hdb | ⟨s, env, ho, -, hdb⟩
  · exact .inl (by rw [hdb])
  rw [hdb]
  rcases s.run_cases rules env m.before.world.db with hrun | ⟨v, services, halls, rfl, -⟩ | hw
  · exact .inl (by rw [hrun])
  · rw [ho] at hdo
    exact absurd hdo id
  by_cases hat : s.servicesAt = some req.id
  · cases s with
    | replaceVenueServices venueID ownerID services =>
      rw [ho] at hdo
      obtain ⟨rfl, hasks⟩ := hdo
      cases hres : (CardRepo.replaceVenueServices env req.id ownerID services m.before.world.db).1 with
      | error e =>
        refine .inl (congrArg (CardDB.servicesOf · req.id) (CardRepo.replaceVenueServices_error ?_))
        rw [hres]
        exact fun heq => nomatch heq
      | ok u => exact .inr ⟨services, env.newID, hasks, CardRepo.replaceVenueServices_rows (Prod.ext hres rfl)⟩
    | _ => cases hat
  · exact .inl (hw.services req.id hat)

/-- What an operation of an update does to the halls. -/
theorem CardMoment.halls (he : CardWorld.Exec rules m.op m.before.world m.res m.after) (hdo : UpdateDoes rules req m.op) :
    m.after.db.hallsOf req.id = m.before.world.db.hallsOf req.id ∨ (req.hallsReplace ≠ none ∧
      ∃ ownerID items, m.op = .sql (.replaceVenueHalls req.id ownerID items)) := by
  rcases he.tables with hdb | ⟨s, env, ho, -, hdb⟩
  · exact .inl (by rw [hdb])
  rw [hdb]
  rcases s.run_cases rules env m.before.world.db with hrun | ⟨v, services, halls, rfl, -⟩ | hw
  · exact .inl (by rw [hrun])
  · rw [ho] at hdo
    exact absurd hdo id
  by_cases hat : s.hallsAt = some req.id
  · cases s with
    | replaceVenueHalls venueID ownerID items =>
      rw [ho] at hdo ⊢
      obtain ⟨rfl, hasks⟩ := hdo
      exact .inr ⟨Option.isSome_iff_ne_none.1 hasks, ownerID, items, rfl⟩
    | _ => cases hat
  · exact .inl (hw.halls req.id hat)

end Moment

/-! ## Runs of two updates -/

section Runs

variable {w₀ : CardWorld} {tr : List CardMoment} {c : CardConfig} {req₁ req₂ : UpdateVenueRequest}

/-- The operations of a run of two updates are those of the two. -/
theorem BothUpdated.moments (hb : BothUpdated w₀ c req₁ req₂) (h : (cardSys rules).Trace w₀ tr c) : ∀ m ∈ tr,
    ∃ req, (req = req₁ ∨ req = req₂) ∧ req.id = req₁.id ∧ m.thread.call = .updateVenue req ∧ UpdateDoes rules req m.op := by
  have hprior : ∀ m ∈ tr, ∀ req, m.thread.call = .updateVenue req → UpdateDoes rules req m.op := by
    refine h.prior (P := fun call _ o => ∀ req, call = .updateVenue req → UpdateDoes rules req o) fun call => ?_
    cases call with
    | updateVenue req =>
      refine (@CardServer.updateVenue_obeys rules req).after.mono fun _ o ho req' heq => ?_
      cases heq
      exact ho
    | _ => exact Prog.All.after (Prog.All.of_forall (fun _ _ _ heq => nomatch heq) _)
  intro m hm
  obtain ⟨h₁, h₂, hthreads⟩ := hb.threads
  obtain ⟨t, ht, hcall, -⟩ := h.lasting m hm
  rw [hthreads] at ht
  rcases List.mem_cons.1 ht with rfl | ht
  · exact ⟨req₁, .inl rfl, rfl, hcall.symm, hprior m hm req₁ hcall.symm⟩
  · rw [List.mem_singleton.1 ht] at hcall
    exact ⟨req₂, .inr rfl, hb.same, hcall.symm, hprior m hm req₂ hcall.symm⟩

theorem BothUpdated.done (hb : BothUpdated w₀ c req₁ req₂) (h : (cardSys rules).Trace w₀ tr c) : ∀ req, req = req₁ ∨ req = req₂ →
    ∃ t ∈ c.threads, t.call = .updateVenue req ∧ UpdateDone req t.did := by
  have hends := h.reach.ends (Q := fun call did res => ∀ req, call = .updateVenue req → res = .ok () → UpdateDone req did)
    fun call => by
      cases call with
      | updateVenue req =>
        refine (@CardServer.updateVenue_obeys rules req).ends.mono fun _ res hres req' heq => ?_
        cases heq
        exact hres
      | _ => exact Prog.Ends.of_forall (fun _ _ _ heq => CardCall.noConfusion heq) _ _
  obtain ⟨h₁, h₂, hthreads⟩ := hb.threads
  rw [hthreads] at hends ⊢
  rintro req (rfl | rfl)
  · exact ⟨_, List.mem_cons_self, rfl, hends _ List.mem_cons_self _ rfl rfl⟩
  · exact ⟨_, by simp, rfl, hends ⟨.updateVenue req, h₂, .ret (.ok ())⟩ (by simp) _ rfl rfl⟩

/-- A venue that is stored stays so. -/
theorem venue_stays (h : (cardSys rules).Trace w₀ tr c) {venueID : String} (h0 : w₀.db.venue venueID ≠ none) :
    c.world.db.venue venueID ≠ none := by
  refine h.keeps (P := fun m => m.Step (cardSys rules)) (F := fun w => w.db.venue venueID ≠ none) h.steps ?_ ?_ (.inr h0)
  · intro m hm hv
    rcases hm.exec.tables with hdb | ⟨s, env, ho, -, hdb⟩
    · rwa [hdb]
    rw [hdb]
    rcases s.run_cases rules env m.before.world.db with hrun | ⟨v, services, halls, rfl, hc⟩ | hw
    · rwa [hrun]
    · by_cases hid : venueID = env.newID 0
      · subst hid
        exact absurd hc.fresh hv
      · rwa [hc.venue_other hid]
    · rw [hw.venue]
      exact fun hnone => hv (Option.map_eq_none_iff.1 hnone)
  · intro w w' he hv
    rwa [CardWorld.Passes.tables he]

/-- **What every store of the two leaves of a column, the run leaves of it**, from the start or from any moment on. -/
theorem BothUpdated.column_stays (hb : BothUpdated w₀ c req₁ req₂) (h : (cardSys rules).Trace w₀ tr c)
    (hfresh : ∀ m ∈ tr, StoresFresh rules m) {f : VenueField} {P : VenueValue → Prop}
    (hstep : ∀ req, (req = req₁ ∨ req = req₂) → req.sets f = true → ∀ a b : VenueValue,
      ((∃ u, req.Stores rules u ∧ f.written rules u = some b) ∨ (req.hallsReplace.isSome && f.ofHalls) = true) → P a → P b)
    (hstart : (∃ m ∈ tr, ∃ v, m.after.db.venue req₁.id = some v ∧ P (f.read v)) ∨
      ∃ v, w₀.db.venue req₁.id = some v ∧ P (f.read v)) :
    ∃ v, c.world.db.venue req₁.id = some v ∧ P (f.read v) := by
  refine h.keeps (P := fun m => m ∈ tr) (F := fun w => ∃ v, w.db.venue req₁.id = some v ∧ P (f.read v)) (fun _ hm => hm) ?_ ?_
    hstart
  · rintro m hm ⟨v, hv, hP⟩
    obtain ⟨req, hreq, hid, hcall, hdo⟩ := hb.moments h m hm
    rw [← hid] at hv ⊢
    obtain ⟨v', hv', hval⟩ := CardMoment.column (h.steps m hm).exec hdo hcall (hfresh m hm) hv f
    refine ⟨v', hv', ?_⟩
    rcases hval with hsame | ⟨hsets, hval⟩
    · rwa [hsame]
    · exact hstep req hreq hsets _ _ hval hP
  · rintro w w' he ⟨v, hv, hP⟩
    exact ⟨v, by rwa [CardWorld.Passes.tables he], hP⟩

/-- The moment of an operation that an update has behind it. -/
theorem BothUpdated.moment (h : (cardSys rules).Trace w₀ tr c) {req : UpdateVenueRequest} {t : CardThread} (ht : t ∈ c.threads)
    (hcall : t.call = .updateVenue req) {o : CardOp} {r : o.Res} (hr : (⟨o, r⟩ : Event CardOp CardOp.Res) ∈ t.did) :
    ∃ m ∈ tr, m.thread.call = .updateVenue req ∧ m.op = o ∧ CardWorld.Exec rules o m.before.world r m.after := by
  obtain ⟨m, hm, hmcall, -, hevent, hexec⟩ := h.performing ht hr
  exact ⟨m, hm, hmcall.trans hcall, congrArg Sigma.fst hevent, hexec⟩

/-- **What one of the two requests has stored stays**: the other stores its columns as they stand. -/
theorem BothUpdated.kept (hb : BothUpdated w₀ c req₁ req₂) (h : (cardSys rules).Trace w₀ tr c)
    (hfresh : ∀ m ∈ tr, StoresFresh rules m) {req other : UpdateVenueRequest}
    (hreq : (req = req₁ ∧ other = req₂) ∨ (req = req₂ ∧ other = req₁)) : UpdateKept rules req tr c.world.db := by
  have hmem : req = req₁ ∨ req = req₂ := hreq.imp And.left And.left
  have hid : req.id = req₁.id := by
    rcases hmem with rfl | rfl
    · rfl
    · exact hb.same
  have hothers : ∀ r, r = req₁ ∨ r = req₂ → r = req ∨ r = other := by
    rcases hreq with ⟨rfl, rfl⟩ | ⟨rfl, rfl⟩
    · exact fun r hr => hr
    · exact fun r hr => hr.symm
  have hdisjoint : ∀ f, req.sets f = true → other.sets f = true → False := by
    intro f h₁ h₂
    rcases hreq with ⟨rfl, rfl⟩ | ⟨rfl, rfl⟩
    · exact hb.columns f ⟨h₁, h₂⟩
    · exact hb.columns f ⟨h₂, h₁⟩
  obtain ⟨t, ht, hcall, hdone⟩ := hb.done h req hmem
  refine ⟨fun f a ha hno => ?_, fun services hs => ?_, fun hh => ?_⟩
  · have hsets : req.sets f = true := by rw [UpdateVenueRequest.sets, ha]; rfl
    rw [hid]
    refine hb.column_stays h hfresh (P := f.Takes rules a) ?_ (.inl ?_)
    · intro r hr hrsets a' b hval _
      rcases hothers r hr with rfl | rfl
      · rcases hval with ⟨u, hu, hw⟩ | hhalls
        · exact hu.takes ha hw
        · rw [hno] at hhalls
          cases hhalls
      · exact absurd hrsets (hdisjoint f hsets)
    · obtain ⟨u, n, hu⟩ := hdone.stored
      obtain ⟨m, hm, hmcall, ho, hexec⟩ := BothUpdated.moment h ht hcall hu
      obtain ⟨tr₁, tr₂, htr⟩ := List.append_of_mem hm
      obtain ⟨huid, -⟩ := hfresh m hm req u hmcall ho
      obtain ⟨r, hr⟩ := Option.ne_none_iff_exists'.1 (venue_stays (h.before htr) hb.stored)
      rw [← hid, ← huid] at hr
      obtain ⟨r', hr', hwritten⟩ := CardMoment.stored hexec hr f
      obtain ⟨req', -, -, hcall', hdo⟩ := hb.moments h m hm
      cases hcall'.symm.trans hmcall
      rw [ho] at hdo
      exact ⟨m, hm, r', by rw [← hid, ← huid]; exact hr', hdo.takes ha hwritten⟩
  · obtain ⟨ownerID, services', hmemdid⟩ := hdone.services (by rw [hs]; exact Option.some_ne_none _)
    obtain ⟨m, hm, hmcall, ho, hexec⟩ := BothUpdated.moment h ht hcall hmemdid
    refine h.keeps (P := fun m => m ∈ tr)
      (F := fun w => ∃ newID, w.db.servicesOf req.id = CardRepo.serviceRows newID req.id services) (fun _ hm => hm) ?_ ?_
      (.inl ⟨m, hm, ?_⟩)
    · rintro m' hm' ⟨newID, hrows⟩
      obtain ⟨r, hr, hrid, -, hdo⟩ := hb.moments h m' hm'
      have hserve := CardMoment.services (h.steps m' hm').exec hdo
      rw [hrid, ← hid] at hserve
      rcases hserve with hsame | ⟨services₂, newID₂, hasks, hrows₂⟩
      · exact ⟨newID, by rw [hsame, hrows]⟩
      · rcases hothers r hr with rfl | rfl
        · obtain rfl := Option.some.inj (hs.symm.trans hasks)
          exact ⟨newID₂, hrows₂⟩
        · have hnone : req.services = none ∨ r.services = none := by
            rcases hreq with ⟨rfl, rfl⟩ | ⟨rfl, rfl⟩
            · exact hb.services
            · exact hb.services.symm
          rcases hnone with hnone | hnone
          · rw [hnone] at hs
            cases hs
          · rw [hnone] at hasks
            cases hasks
    · rintro w w' he ⟨newID, hrows⟩
      exact ⟨newID, by rwa [CardWorld.Passes.tables he]⟩
    · obtain ⟨env, -, hrun⟩ := hexec.sql_ok
      obtain ⟨req', -, -, hcall', hdo⟩ := hb.moments h m hm
      cases hcall'.symm.trans hmcall
      rw [ho] at hdo
      obtain rfl := Option.some.inj (hs.symm.trans hdo.2)
      exact ⟨env.newID, CardRepo.replaceVenueServices_rows hrun⟩
  · obtain ⟨ownerID, items, hmemdid⟩ := hdone.halls hh
    obtain ⟨m, hm, hmcall, ho, -⟩ := BothUpdated.moment h ht hcall hmemdid
    refine h.keeps (P := fun m => m ∈ tr) (F := fun w => ∃ m ∈ tr, m.thread.call = .updateVenue req ∧
      (∃ ownerID items, m.op = .sql (.replaceVenueHalls req.id ownerID items)) ∧
      w.db.hallsOf req.id = m.after.db.hallsOf req.id) (fun _ hm => hm) ?_ ?_ (.inl ⟨m, hm, m, hm, hmcall, ⟨_, _, ho⟩, rfl⟩)
    · rintro m' hm' ⟨m₀, hm₀, hcall₀, ho₀, hrows⟩
      obtain ⟨r, hr, hrid, hrcall, hdo⟩ := hb.moments h m' hm'
      have hhalls := CardMoment.halls (h.steps m' hm').exec hdo
      rw [hrid, ← hid] at hhalls
      rcases hhalls with hsame | ⟨hasks, ownerID', items', ho'⟩
      · exact ⟨m₀, hm₀, hcall₀, ho₀, hsame.trans hrows⟩
      · rcases hothers r hr with rfl | rfl
        · exact ⟨m', hm', hrcall, ⟨_, _, ho'⟩, rfl⟩
        · have hsets : ∀ r : UpdateVenueRequest, r.hallsReplace ≠ none → r.sets .priceFrom = true := fun r hr => by
            rw [UpdateVenueRequest.sets, Option.isSome_iff_ne_none.2 hr, Bool.or_eq_true]
            exact .inr rfl
          exact absurd (hsets r hasks) (hdisjoint .priceFrom (hsets req hh))
    · rintro w w' he hex
      rwa [CardWorld.Passes.tables he]

end Runs

/-! ## Two updates of Ann's bath -/

def newDescription : UpdateVenueRequest := { id := annsVenue, ownerID := ann, description := some "new" }

def newPhone : UpdateVenueRequest := { id := annsVenue, ownerID := ann, phone := some "123" }

/-- Whether both have succeeded. -/
def bothReturned (c : CardConfig) : Bool :=
  match c.threads with
  | [⟨.updateVenue req₁, _, .ret (.ok ())⟩, ⟨.updateVenue req₂, _, .ret (.ok ())⟩] => req₁ == newDescription && req₂ == newPhone
  | _ => false

theorem bothUpdated_of_returned {c : CardConfig} (h : bothReturned c = true) : BothUpdated annsCards c newDescription newPhone := by
  refine ⟨rfl, by decide +kernel, fun f => by cases f <;> decide, .inl rfl, ?_⟩
  unfold bothReturned at h
  split at h
  · rename_i req₁ h₁ req₂ h₂ hthreads
    rw [Bool.and_eq_true, beq_iff_eq, beq_iff_eq] at h
    obtain ⟨rfl, rfl⟩ := h
    exact ⟨h₁, h₂, hthreads⟩
  · cases h

/-- Whether a store writes the columns that its request does not set as they stand. -/
def storesFresh (m : CardMoment) : Bool :=
  match m.thread.call, m.op with
  | .updateVenue req, .sql (.update u) => u.id == req.id &&
    (m.before.world.db.venue req.id).all fun r =>
      [VenueField.name, .description, .address, .city, .latitude, .longitude, .priceFrom, .priceWeekend, .capacity, .amenities,
        .workingHours, .phone, .legalEntityName, .inn, .ogrn, .publicListingURL, .verificationNote, .socialLinks,
        .payoutLegalForm].all fun f => req.sets f || f.written plainCards u == some (f.read r)
  | _, _ => true

theorem storesFresh_sound {m : CardMoment} (h : storesFresh m = true) : StoresFresh plainCards m := by
  intro req u hcall ho
  unfold storesFresh at h
  rw [hcall, ho] at h
  simp only [Bool.and_eq_true, beq_iff_eq] at h
  refine ⟨h.1, fun r hr f hf => ?_⟩
  have hall := h.2
  rw [hr, Option.all_some, List.all_eq_true] at hall
  have hone := hall f (by cases f <;> simp)
  simpa [hf] using hone

end Agregator
