import Mathlib.Data.List.Infix
import Agregator.ConcPlay
import Agregator.ConcSql
import Agregator.VenueCard
/-!
# VenueCalls — the calls on the card of a venue

The entry points that read and write a card, over the tables, the cache of cards and the group that lets one read of a card
serve all who ask for it meanwhile.  The history of the decisions, the notices and the cached lists are written besides and
decide nothing.
-/
namespace Agregator

open Rel Conc

/-! ## Operations -/

/-- A card with what hangs on it. -/
structure VenueDetails where
  card : VenueCard
  services : List VenueService
  photos : List VenuePhoto
  halls : List VenueHall
deriving DecidableEq, Repr

/-- What a read of a card is to do: to make it, or to wait for one under way. -/
inductive Flight where
  | lead (n : ℕ)
  | follow (n : ℕ)
deriving DecidableEq, Repr

inductive CardOp where
  | sql (s : CardSql)
  | cacheGet (venueID : String)
  | cacheSet (v : VenueDetails)
  | cacheDel (venueID : String)
  | enter (venueID : String)
  | leave (venueID : String) (n : ℕ) (res : Except Err (Option VenueDetails))
  | await (n : ℕ)
  | geocode (query : String)
  | uuid

@[reducible] def CardOp.Res : CardOp → Type
  | sql s => Except VenueErr s.Ans
  | cacheGet _ => Option VenueDetails
  | enter _ => Flight
  | await _ => Except Err (Option VenueDetails)
  | geocode _ => Option (ℚ × ℚ)
  | uuid => String
  | _ => Unit

abbrev CardProg := Prog CardOp CardOp.Res

/-- The tables, the cached cards, and the reads under way and done. -/
structure CardWorld where
  db : CardDB
  cache : String → Option VenueDetails
  flights : List (Option (Except Err (Option VenueDetails)))
  flying : String → Option ℕ
  clock : Time

/-- What the environment has in store for an operation. -/
structure CardEnv where
  db : DbEnv
  fault : Fault VenueErr
  hit : Bool
  point : Option (ℚ × ℚ)
  newID : String

/-- An operation, if it can be performed: a read under way is waited for. -/
def CardWorld.run (rules : CardRules) (env : CardEnv) : (o : CardOp) → CardWorld → Option (o.Res × CardWorld)
  | .sql s, w =>
    let (r, db) := env.fault.apply id (s.run rules env.db) w.db
    some (r, { w with db := db })
  | .cacheGet venueID, w => some (if env.hit then w.cache venueID else none, w)
  | .cacheSet v, w => some ((), if env.hit then { w with cache := Function.update w.cache v.card.id (some v) } else w)
  | .cacheDel venueID, w => some ((), if env.hit then { w with cache := Function.update w.cache venueID none } else w)
  | .enter venueID, w =>
    match w.flying venueID with
    | some n => some (.follow n, w)
    | none => some (.lead w.flights.length,
        { w with flights := w.flights ++ [none], flying := Function.update w.flying venueID (some w.flights.length) })
  | .leave venueID n res, w =>
    some ((), { w with flights := w.flights.set n (some res), flying := Function.update w.flying venueID none })
  | .await n, w =>
    match w.flights[n]? with
    | some (some res) => some (res, w)
    | _ => none
  | .geocode _, w => some (env.point, w)
  | .uuid, w => some (env.newID, w)

def CardWorld.Exec (rules : CardRules) (o : CardOp) (w : CardWorld) (r : o.Res) (w' : CardWorld) : Prop :=
  ∃ env : CardEnv, env.db.now = w.clock ∧ (∀ l, (env.db.order l).Perm l) ∧ isUUID env.newID = true ∧
    w.run rules env o = some (r, w')

/-- Time passes, and cards drop out of the cache. -/
def CardWorld.Passes (w w' : CardWorld) : Prop :=
  ∃ later cache, w.clock ≤ later ∧ (∀ venueID, cache venueID = w.cache venueID ∨ cache venueID = none) ∧
    w' = { w with clock := later, cache := cache }

abbrev CardSql.query (s : CardSql) : CardProg (Except VenueErr s.Ans) := Prog.perform (CardOp.sql s)

open CardSql (query)

/-! ## Errors -/

/-- The text of an error of the repository. -/
def VenueErr.err : VenueErr → Err
  | .venueNotFound => .plain "venue not found"
  | .ownershipMismatch => .plain "venue ownership mismatch"
  | .hallNotFound => .plain "hall not found"
  | .hallNotInVenue => .plain "hall does not belong to venue"
  | .hallNameRequired => .plain "hall name is required"
  | .slotUnavailable => .plain "slot unavailable"
  | .modeHasReservations => .plain "booking mode has upcoming reservations"
  | .other e => e

def venueNotFound : Err := .status .notFound "площадка не найдена"

def notVenueOwner : Err := .status .permissionDenied "нет прав на управление площадкой"

def invalidVenue (msg : String) : Err := .status .invalidArgument msg

/-- `venueWriteGuardErr`, and the error itself where the guard has none. -/
def venueWriteGuardErr : VenueErr → Err
  | .venueNotFound => venueNotFound
  | .ownershipMismatch => notVenueOwner
  | e => e.err

/-! ## The checks of a card -/

def normalizeDigits (s : String) : String := String.ofList (s.toList.filter Char.isDigit)

def listingHostOk (rules : CardRules) (rawURL : String) : Except Err Unit :=
  match rules.url rawURL with
  | none => .error (invalidVenue "укажите ссылку на карточку заведения в Яндекс.Картах, 2ГИС или аналоге (https://...)")
  | some (scheme, host, hostname) =>
    if (scheme ≠ "https" ∧ scheme ≠ "http") ∨ host = "" then
      .error (invalidVenue "укажите ссылку на карточку заведения в Яндекс.Картах, 2ГИС или аналоге (https://...)")
    else if "localhost".toList <:+: (rules.lower hostname).toList ∨ "127.".toList <+: (rules.lower hostname).toList then
      .error (invalidVenue "недопустимый адрес ссылки")
    else .ok ()

def validateVenueVerificationCore (rules : CardRules) (v : VenueCard) : Except Err VenueCard :=
  let legal := trimSpace v.legalEntityName
  let inn := normalizeDigits v.inn
  let ogrn := normalizeDigits v.ogrn
  let rawURL := trimSpace v.publicListingURL
  let note := trimSpace v.verificationNote
  if legal.length < 3 then
    .error (invalidVenue "укажите полное наименование ИП или юрлица как в ЕГРЮЛ/ЕГРИП (не менее 3 символов)")
  else if 500 < legal.length then .error (invalidVenue "наименование юрлица слишком длинное")
  else if inn.length ≠ 10 ∧ inn.length ≠ 12 then
    .error (invalidVenue "ИНН должен содержать 10 цифр (организация) или 12 цифр (ИП)")
  else if inn.length = 10 ∧ ogrn.length ≠ 13 then
    .error (invalidVenue "для юридического лица укажите ОГРН — ровно 13 цифр (проверка по ЕГРЮЛ)")
  else if inn.length = 12 ∧ ogrn.length ≠ 15 then
    .error (invalidVenue "для ИП укажите ОГРНИП — ровно 15 цифр (проверка по ЕГРИП)")
  else
    match listingHostOk rules rawURL with
    | .error e => .error e
    | .ok () =>
      if 2000 < note.length then .error (invalidVenue "комментарий для модерации слишком длинный")
      else .ok { v with
        legalEntityName := legal, inn := inn, ogrn := ogrn, publicListingURL := rawURL, verificationNote := note }

/-- An empty block of an older card is left as it is. -/
def validateVenueVerificationForUpdate (rules : CardRules) (v : VenueCard) : Except Err VenueCard :=
  if normalizeDigits v.inn = "" ∧ trimSpace v.legalEntityName = "" ∧ trimSpace v.publicListingURL = "" ∧
      normalizeDigits v.ogrn = "" ∧ trimSpace v.verificationNote = "" then .ok v
  else validateVenueVerificationCore rules v

def validateVenueCoordinates (lat lng : ℚ) : Except Err Unit :=
  if lat < -90 ∨ 90 < lat ∨ lng < -180 ∨ 180 < lng then
    .error (invalidVenue "некорректные координаты: широта -90..90, долгота -180..180")
  else .ok ()

def validateVenueType (t : String) : Except Err Unit :=
  if t = "banya" ∨ t = "sauna" ∨ t = "hammam" then .ok ()
  else .error (invalidVenue "тип заведения: banya, sauna или hammam")

def normalizeVenuePayoutProfile (rules : CardRules) (v : VenueCard) : Except Err VenueCard :=
  let plf := trimSpace (rules.lower v.payoutLegalForm)
  if payoutLegalForms.contains plf then .ok { v with payoutLegalForm := plf }
  else .error (invalidVenue "payout_legal_form: ip, ooo, self_employed или gph")

def maxSocialLinksJSONBytes : ℕ := 4000

def normalizeSocialLinksJSON (rules : CardRules) (raw : String) : Except Err String :=
  let s := trimSpace raw
  if s = "" then .ok "{}"
  else if maxSocialLinksJSONBytes < s.utf8ByteSize then .error (invalidVenue "соцсети: слишком много данных")
  else
    match rules.json s with
    | none => .error (invalidVenue "соцсети: неверный JSON")
    | some false => .error (invalidVenue "соцсети: ожидается JSON-объект")
    | some true => .ok s

/-- The checks that `Create` and `Update` share, with the block of the owner checked by `verify`. -/
def normalizeCard (rules : CardRules) (verify : VenueCard → Except Err VenueCard) (v : VenueCard) : Except Err VenueCard :=
  match validateVenueType v.type with
  | .error e => .error e
  | .ok () =>
    match validateVenueCoordinates v.latitude v.longitude with
    | .error e => .error e
    | .ok () =>
      match verify v with
      | .error e => .error e
      | .ok v =>
        match normalizeVenuePayoutProfile rules v with
        | .error e => .error e
        | .ok v =>
          match normalizeSocialLinksJSON rules v.socialLinks with
          | .error e => .error e
          | .ok sl => .ok { v with socialLinks := sl }

def validateVenueDraftReadyForReview (rules : CardRules) (v : VenueDetails) : Except Err Unit :=
  match validateVenueVerificationCore rules v.card with
  | .error e => .error e
  | .ok _ =>
    if v.photos.isEmpty then .error (invalidVenue "добавьте хотя бы одно фото карточки заведения")
    else if (v.halls.any fun h => trimSpace h.name != "" && decide (0 < h.priceFrom)) = false then
      .error (invalidVenue "укажите название и цену за час хотя бы для одного зала")
    else if (trimSpace v.card.description).length < 40 then
      .error (invalidVenue "опишите заведение: не менее 40 символов (примерно 2–3 предложения)")
    else .ok ()

/-! ## The use case -/

namespace VenueUseCase

/-- The row first, then what hangs on it, statement by statement. -/
def repoGetByID (venueID : String) : CardProg (Except Err (Option VenueDetails)) := do
  match ← query (.getVenue venueID) with
  | .error e => return .error e.err
  | .ok none => return .ok none
  | .ok (some card) =>
    match ← query (.getServices venueID) with
    | .error e => return .error e.err
    | .ok services =>
      match ← query (.getPhotos venueID) with
      | .error e => return .error e.err
      | .ok photos =>
        match ← query (.getHalls venueID) with
        | .error e => return .error e.err
        | .ok halls => return .ok (some ⟨card, services, photos, halls⟩)

/-- A read of a venue there is to be. -/
def readVenue (venueID : String) : CardProg (Except Err VenueDetails) := do
  match ← repoGetByID venueID with
  | .error e => return .error e
  | .ok none => return .error venueNotFound
  | .ok (some v) => return .ok v

def getByIDUncached (venueID : String) : CardProg (Except Err (Option VenueDetails)) := do
  match ← Prog.perform (CardOp.cacheGet venueID) with
  | some v => return .ok (some v)
  | none =>
    match ← repoGetByID venueID with
    | .ok (some v) => do
      Prog.perform (CardOp.cacheSet v)
      return .ok (some v)
    | res => return res

def getByID (venueID : String) : CardProg (Except Err (Option VenueDetails)) := do
  match ← Prog.perform (CardOp.enter venueID) with
  | .follow n => Prog.perform (CardOp.await n)
  | .lead n => do
    let res ← getByIDUncached venueID
    Prog.perform (CardOp.leave venueID n res)
    return res

/-- An owner without coordinates gets those of the address, if they can be found. -/
def resolveCoordinates (v : VenueCard) : CardProg VenueCard := do
  if v.latitude ≠ 0 ∨ v.longitude ≠ 0 ∨ trimSpace v.address = "" then return v
  else
    let city := trimSpace v.city
    match ← Prog.perform (CardOp.geocode (if city = "" then trimSpace v.address else city ++ ", " ++ trimSpace v.address)) with
    | none => return v
    | some (lat, lng) => return { v with latitude := lat, longitude := lng }

def maxVenueHalls : ℕ := 15

def maxVenueServices : ℕ := 50

def maxServiceDurationMin : ℤ := 10080

def trimHalls (halls : List VenueHall) : Except Err (List VenueHall) :=
  if halls.any fun h => trimSpace h.name == "" then .error (invalidVenue "каждый зал должен иметь название")
  else .ok (halls.map fun h => { h with name := trimSpace h.name })

/-- `repo.Create`: a name that is taken gets a slug of its own. -/
def repoCreate (rules : CardRules) (v : VenueCard) (services : List VenueService) (halls : List VenueHall) :
    CardProg (Except Err VenueCard) := do
  let slug := rules.slug v.name
  let taken := fun (r : Except VenueErr (Option VenueCard)) => match r with | .ok (some _) => true | _ => false
  let insert := fun slug => (query (.create { v with slug := slug } services halls)).bind fun r =>
    .ret (match r with | .error e => .error e.err | .ok v => .ok v)
  (query (.getBySlug slug)).bind fun r =>
    if taken r then (Prog.perform CardOp.uuid).bind fun id => insert (slug ++ "-" ++ String.ofList (id.toList.take 8))
    else insert slug

def create (rules : CardRules) (v : VenueCard) (services : List VenueService) (halls : List VenueHall) :
    CardProg (Except Err Unit) := do
  match normalizeCard rules (validateVenueVerificationCore rules) v with
  | .error e => return .error e
  | .ok v =>
    if maxVenueHalls < halls.length then return .error (invalidVenue "превышен лимит залов")
    else
      match trimHalls halls with
      | .error e => return .error e
      | .ok halls => do
        let v ← resolveCoordinates v
        match ← repoCreate rules v services halls with
        | .error e => return .error e
        | .ok v => do
          Prog.perform (CardOp.cacheDel v.id)
          return .ok ()

def update (rules : CardRules) (v : VenueCard) : CardProg (Except Err Unit) := do
  match normalizeCard rules (validateVenueVerificationForUpdate rules) v with
  | .error e => return .error e
  | .ok v => do
    let v ← resolveCoordinates v
    match ← query (.update v) with
    | .error e => return .error e.err
    | .ok _ => do
      Prog.perform (CardOp.cacheDel v.id)
      return .ok ()

def checkService (s : VenueService) : Except Err Unit :=
  if trimSpace s.name = "" then .error (invalidVenue "укажите название услуги")
  else if 255 < (trimSpace s.name).length then .error (invalidVenue "название услуги слишком длинное")
  else if s.price < 0 then .error (invalidVenue "некорректная цена услуги")
  else if s.durationMin < 0 ∨ maxServiceDurationMin < s.durationMin then
    .error (invalidVenue "некорректная длительность услуги")
  else .ok ()

def checkServices (services : List VenueService) : Except Err Unit :=
  if maxVenueServices < services.length then .error (invalidVenue "превышен лимит услуг")
  else services.forM checkService

/-- `ensureVenueOwner`. -/
def ensureVenueOwner (venueID ownerID : String) : CardProg (Except Err VenueDetails) := do
  match ← readVenue venueID with
  | .error e => return .error e
  | .ok v => if v.card.ownerID ≠ ownerID then return .error notVenueOwner else return .ok v

def replaceVenueServices (venueID ownerID : String) (services : List VenueService) : CardProg (Except Err Unit) := do
  match checkServices services with
  | .error e => return .error e
  | .ok () =>
    match ← ensureVenueOwner venueID ownerID with
    | .error e => return .error e
    | .ok _ =>
      match ← query (.replaceVenueServices venueID ownerID (services.map fun s =>
          { s with name := trimSpace s.name, description := trimSpace s.description })) with
      | .error e => return .error (venueWriteGuardErr e)
      | .ok () => do
        Prog.perform (CardOp.cacheDel venueID)
        return .ok ()

def hallsErr : VenueErr → Err
  | .hallNameRequired => invalidVenue "каждый зал должен иметь название"
  | .hallNotFound | .hallNotInVenue => invalidVenue "некорректный идентификатор зала"
  | e => venueWriteGuardErr e

def replaceVenueHalls (venueID ownerID : String) (items : List VenueHallUpsert) : CardProg (Except Err Unit) := do
  match ← ensureVenueOwner venueID ownerID with
  | .error e => return .error e
  | .ok _ =>
    if maxVenueHalls < items.length then return .error (invalidVenue "превышен лимит залов")
    else
      match ← query (.replaceVenueHalls venueID ownerID items) with
      | .error e => return .error (hallsErr e)
      | .ok () => do
        Prog.perform (CardOp.cacheDel venueID)
        return .ok ()

/-- The edits of photos and videos: the owner is checked, then the transaction is run. -/
def editPhotos (venueID ownerID : String) (s : CardSql) (writeErr : VenueErr → Err) : CardProg (Except Err Unit) := do
  match ← ensureVenueOwner venueID ownerID with
  | .error e => return .error e
  | .ok _ =>
    match ← query s with
    | .error e => return .error (writeErr e)
    | .ok _ => do
      Prog.perform (CardOp.cacheDel venueID)
      return .ok ()

def photosErr (e : VenueErr) : Err :=
  if e = CardRepo.photosLimit then invalidVenue "достигнут лимит фотографий"
  else if e = CardRepo.photoNotFound then .status .notFound "фото не найдено"
  else venueWriteGuardErr e

def notSubmittable : Err := .status .notFound "площадка не найдена или не является черновиком"

def submitVenueForReview (rules : CardRules) (venueID ownerID : String) : CardProg (Except Err Unit) := do
  match ← readVenue venueID with
  | .error e => return .error e
  | .ok v =>
    if v.card.ownerID ≠ ownerID ∨ v.card.status ≠ .draft then return .error notSubmittable
    else
      match validateVenueDraftReadyForReview rules v with
      | .error e => return .error e
      | .ok () =>
        match ← query (.submitDraftForReview venueID ownerID) with
        | .error e => return .error e.err
        | .ok n =>
          if n = 0 then return .error notSubmittable
          else
            match ← readVenue venueID with
            | .error e => return .error e
            | .ok _ => do
              Prog.perform (CardOp.cacheDel venueID)
              return .ok ()

/-- The status an action leads to. -/
def newStatus (old : VenueStatus) (action : String) : Except Err VenueStatus :=
  if action = "approve" then
    if old ≠ .pendingReview ∧ old ≠ .rejected then
      .error (invalidVenue "одобрение доступно только для заявок на проверке или отклонённых карточек")
    else .ok .active
  else if action = "reject" then
    if old ≠ .pendingReview then .error (invalidVenue "отклонение доступно только для заявок на проверке") else .ok .rejected
  else if action = "suspend" then
    if old ≠ .active then .error (invalidVenue "приостановка доступна только для активных заведений") else .ok .suspended
  else if action = "resume" then
    if old ≠ .suspended then .error (invalidVenue "возобновление доступно только для приостановленных заведений")
    else .ok .active
  else .error (invalidVenue "неизвестное действие модерации")

/-- `Moderate`, on what the action and the comment come to. -/
def moderateAs (venueID action comment moderatedBy : String) : CardProg (Except Err Unit) := do
  match ← readVenue venueID with
  | .error e => return .error e
  | .ok existing =>
    match newStatus existing.card.status action with
    | .error e => return .error e
    | .ok status =>
      if (action = "reject" ∨ action = "suspend") ∧ comment = "" then
        return .error (invalidVenue "комментарий обязателен для этого действия")
      else
        match ← query (.updateStatus venueID status comment moderatedBy) with
        | .error e => return .error e.err
        | .ok _ =>
          match ← readVenue venueID with
          | .error e => return .error e
          | .ok _ => do
            Prog.perform (CardOp.cacheDel venueID)
            return .ok ()

def moderate (rules : CardRules) (venueID action comment moderatedBy : String) : CardProg (Except Err Unit) :=
  moderateAs venueID (trimSpace (rules.lower action)) (trimSpace comment) moderatedBy

def dropCached : List VenueCard → CardProg Unit
  | [] => .ret ()
  | v :: vs => (Prog.perform (CardOp.cacheDel v.id)).bind fun () => dropCached vs

def suspendByOwner (ownerID : String) : CardProg (Except Err Unit) := do
  match ← query (.listByOwner ownerID) with
  | .error e => return .error e.err
  | .ok venues =>
    match ← query (.suspendByOwner ownerID) with
    | .error e => return .error e.err
    | .ok _ => do
      dropCached venues
      return .ok ()

def updateRating (venueID : String) (avgRating : ℚ) (reviewCount : ℤ) : CardProg (Except Err Unit) := do
  if avgRating < 0 ∨ 5 < avgRating then return .error (invalidVenue "средняя оценка должна быть в диапазоне 0–5")
  else if reviewCount < 0 then return .error (invalidVenue "количество отзывов не может быть отрицательным")
  else
    match ← query (.updateRating venueID avgRating reviewCount) with
    | .error e => return .error e.err
    | .ok _ => do
      Prog.perform (CardOp.cacheDel venueID)
      return .ok ()

/-- `SetBookingMode`, asked for by a member of the venue. -/
def setBookingMode (venueID : String) (mode : BookingMode) : CardProg (Except Err Unit) := do
  match ← query (.setBookingMode venueID mode) with
  | .error .modeHasReservations =>
    return .error (.status .failedPrecondition "нельзя сменить режим бронирования: есть предстоящие брони или блокировки")
  | .error e => return .error e.err
  | .ok _ => return .ok ()

end VenueUseCase

/-! ## The server -/

structure CardServiceItem where
  name : String
  durationMin : ℤ
  price : ℤ
  description : String
deriving DecidableEq, Repr

structure VenueHallInput where
  id : String
  name : String
  priceFrom : ℤ
  priceWeekend : ℤ
  capacity : ℤ
  amenities : List String
  description : String
  steamType : String
deriving DecidableEq, Repr

structure CreateVenueRequest where
  ownerID : String
  name : String
  type : String
  description : String
  address : String
  city : String
  latitude : ℚ
  longitude : ℚ
  priceFrom : ℤ
  priceWeekend : ℤ
  capacity : ℤ
  amenities : List String
  workingHours : String
  phone : String
  legalEntityName : String
  inn : String
  ogrn : String
  publicListingURL : String
  verificationNote : String
  socialLinks : String
  payoutLegalForm : String
  startAsDraft : Bool
  services : List CardServiceItem
  halls : List VenueHallInput
deriving DecidableEq, Repr

/-- What is not set is left as it is; no amenities are none set. -/
structure UpdateVenueRequest where
  id : String
  ownerID : String
  name : Option String := none
  description : Option String := none
  address : Option String := none
  latitude : Option ℚ := none
  longitude : Option ℚ := none
  priceFrom : Option ℤ := none
  priceWeekend : Option ℤ := none
  capacity : Option ℤ := none
  amenities : List String := []
  workingHours : Option String := none
  phone : Option String := none
  city : Option String := none
  legalEntityName : Option String := none
  inn : Option String := none
  ogrn : Option String := none
  publicListingURL : Option String := none
  verificationNote : Option String := none
  socialLinks : Option String := none
  payoutLegalForm : Option String := none
  servicesReplace : Option (List CardServiceItem) := none
  hallsReplace : Option (List VenueHallInput) := none
deriving DecidableEq, Repr

namespace CardServer

def internalErr : Err := .status .internal "internal error"

/-- An error of a call that carries no status is kept from the caller. -/
def errStatus (err : Err) : Err := if err.code = .unknown then internalErr else err

def answer (r : Except Err Unit) : Except Err Unit :=
  match r with
  | .error e => .error (errStatus e)
  | .ok () => .ok ()

def newCard (req : CreateVenueRequest) : VenueCard where
  id := ""
  ownerID := req.ownerID
  status := if req.startAsDraft then .draft else .pendingReview
  isActive := true
  moderationComment := ""
  moderatedAt := none
  moderatedBy := ""
  bookingMode := .whole
  priceFrom := req.priceFrom
  priceWeekend := req.priceWeekend
  capacity := req.capacity
  amenities := req.amenities
  updatedAt := 0
  slug := ""
  name := req.name
  type := req.type
  description := req.description
  address := req.address
  city := req.city
  latitude := req.latitude
  longitude := req.longitude
  workingHours := req.workingHours
  phone := req.phone
  avgRating := 0
  reviewCount := 0
  legalEntityName := req.legalEntityName
  inn := req.inn
  ogrn := req.ogrn
  publicListingURL := req.publicListingURL
  verificationNote := req.verificationNote
  socialLinks := req.socialLinks
  payoutLegalForm := req.payoutLegalForm

def itemToDomain (it : CardServiceItem) : VenueService := ⟨"", "", it.name, it.durationMin, it.price, it.description, 0⟩

def hallProtoInputToDomain (it : VenueHallInput) : VenueHall :=
  ⟨"", "", it.name, it.priceFrom, it.priceWeekend, it.capacity, it.amenities, 0, it.description, it.steamType, 0⟩

def createVenue (rules : CardRules) (req : CreateVenueRequest) : CardProg (Except Err Unit) :=
  if isUUID req.ownerID = false then .ret (.error (invalidVenue "invalid owner_id"))
  else (VenueUseCase.create rules (newCard req) (req.services.map itemToDomain) (req.halls.map hallProtoInputToDomain)).bind
    fun r => .ret (answer r)

/-- The card with what the request sets. -/
def patch (req : UpdateVenueRequest) (v : VenueCard) : VenueCard :=
  { v with
    name := req.name.getD v.name
    description := req.description.getD v.description
    address := req.address.getD v.address
    latitude := req.latitude.getD v.latitude
    longitude := req.longitude.getD v.longitude
    priceFrom := req.priceFrom.getD v.priceFrom
    priceWeekend := req.priceWeekend.getD v.priceWeekend
    capacity := req.capacity.getD v.capacity
    amenities := if req.amenities = [] then v.amenities else req.amenities
    workingHours := req.workingHours.getD v.workingHours
    phone := req.phone.getD v.phone
    city := req.city.getD v.city
    legalEntityName := req.legalEntityName.getD v.legalEntityName
    inn := req.inn.getD v.inn
    ogrn := req.ogrn.getD v.ogrn
    publicListingURL := req.publicListingURL.getD v.publicListingURL
    verificationNote := req.verificationNote.getD v.verificationNote
    socialLinks := req.socialLinks.getD v.socialLinks
    payoutLegalForm := req.payoutLegalForm.getD v.payoutLegalForm }

def replacedServices (items : List CardServiceItem) : List VenueService :=
  (items.filter fun it => trimSpace it.name != "").map fun it =>
    ⟨"", "", trimSpace it.name, it.durationMin, it.price, trimSpace it.description, 0⟩

/-- `hallProtoInputsToUpserts`: a key that is none is refused. -/
def hallProtoInputsToUpserts : List VenueHallInput → Option (List VenueHallUpsert)
  | [] => some []
  | it :: items =>
    let sid := trimSpace it.id
    if sid ≠ "" ∧ isUUID sid = false then none
    else (hallProtoInputsToUpserts items).map fun ups =>
      ⟨if sid = "" then none else some sid, it.name, it.priceFrom, it.priceWeekend, it.capacity, it.amenities, it.description,
        it.steamType⟩ :: ups

/-- The services and the halls of a request, after the card itself. -/
def updateLists (req : UpdateVenueRequest) (ownerID : String) : CardProg (Except Err Unit) := do
  match ← (match req.servicesReplace with
    | none => .ret (.ok ())
    | some items => VenueUseCase.replaceVenueServices req.id ownerID (replacedServices items)) with
  | .error e => return .error (errStatus e)
  | .ok () =>
    match req.hallsReplace with
    | none => return .ok ()
    | some items =>
      match hallProtoInputsToUpserts items with
      | none => return .error (invalidVenue "invalid hall id")
      | some ups =>
        match ← VenueUseCase.replaceVenueHalls req.id ownerID ups with
        | .error e => return .error (errStatus e)
        | .ok () => return .ok ()

def updateVenue (rules : CardRules) (req : UpdateVenueRequest) : CardProg (Except Err Unit) := do
  if isUUID req.id = false then return .error (invalidVenue "invalid venue id")
  else
    match ← VenueUseCase.getByID req.id with
    | .error _ => return .error internalErr
    | .ok none => return .error (.status .notFound "venue not found")
    | .ok (some existing) =>
      if req.ownerID ≠ existing.card.ownerID then return .error (.status .permissionDenied "not the venue owner")
      else
        match ← VenueUseCase.update rules (patch req existing.card) with
        | .error e => return .error (errStatus e)
        | .ok () =>
          match ← updateLists req existing.card.ownerID with
          | .error e => return .error e
          | .ok () =>
            match ← VenueUseCase.getByID req.id with
            | .error _ => return .error internalErr
            | .ok none => return .error (.status .notFound "venue not found")
            | .ok (some _) => return .ok ()

end CardServer

/-- A request to the service, on what concerns the cards. -/
inductive CardCall where
  | getVenue (venueID : String)
  | createVenue (req : CreateVenueRequest)
  | updateVenue (req : UpdateVenueRequest)
  | submitVenueForReview (venueID ownerID : String)
  | moderateVenue (venueID action comment moderatedBy : String)
  | suspendVenuesByOwner (ownerID : String)
  | addVenuePhoto (venueID ownerID url : String)
  | deleteVenuePhoto (venueID ownerID photoID : String)
  | setVenueCoverPhoto (venueID ownerID photoID : String)
  | editMedia (venueID ownerID : String)
  | updateVenueRating (venueID : String) (avgRating : ℚ) (reviewCount : ℤ)
  | setBookingMode (venueID : String) (mode : BookingMode)

namespace CardCall

def badID (id : String) (msg : String) (p : CardProg (Except Err Unit)) : CardProg (Except Err Unit) :=
  if isUUID id = false then .ret (.error (invalidVenue msg)) else p

def owned (venueID ownerID : String) (p : CardProg (Except Err Unit)) : CardProg (Except Err Unit) :=
  badID venueID "invalid venue_id" (badID ownerID "invalid owner_id" (p.bind fun r => .ret (CardServer.answer r)))

def prog (rules : CardRules) : CardCall → CardProg (Except Err Unit)
  | getVenue venueID => badID venueID "invalid venue id" ((VenueUseCase.getByID venueID).bind fun r =>
      .ret (match r with
        | .error _ => .error CardServer.internalErr
        | .ok none => .error (.status .notFound "venue not found")
        | .ok (some _) => .ok ()))
  | createVenue req => CardServer.createVenue rules req
  | updateVenue req => CardServer.updateVenue rules req
  | submitVenueForReview venueID ownerID => badID venueID "invalid venue id" (badID ownerID "invalid owner_id"
      ((VenueUseCase.submitVenueForReview rules venueID ownerID).bind fun r => .ret (CardServer.answer r)))
  | moderateVenue venueID action comment moderatedBy =>
    badID venueID "invalid venue_id" (badID moderatedBy "invalid moderated_by: admin user ID required"
      ((VenueUseCase.moderate rules venueID action comment moderatedBy).bind fun r => .ret (CardServer.answer r)))
  | suspendVenuesByOwner ownerID => badID ownerID "invalid owner_id"
      ((VenueUseCase.suspendByOwner ownerID).bind fun r => .ret (CardServer.answer r))
  | addVenuePhoto venueID ownerID url => owned venueID ownerID
      (if trimSpace url = "" then .ret (.error (invalidVenue "url is required"))
      else VenueUseCase.editPhotos venueID ownerID (.addVenuePhoto venueID ownerID (trimSpace url)) VenueUseCase.photosErr)
  | deleteVenuePhoto venueID ownerID photoID => owned venueID ownerID
      (VenueUseCase.editPhotos venueID ownerID (.deleteVenuePhoto venueID ownerID photoID) VenueUseCase.photosErr)
  | setVenueCoverPhoto venueID ownerID photoID => owned venueID ownerID
      (VenueUseCase.editPhotos venueID ownerID (.setVenueCoverPhoto venueID ownerID photoID) VenueUseCase.photosErr)
  | editMedia venueID ownerID => owned venueID ownerID
      (VenueUseCase.editPhotos venueID ownerID (.editMedia venueID ownerID) venueWriteGuardErr)
  | updateVenueRating venueID avgRating reviewCount => badID venueID "invalid venue_id"
      ((VenueUseCase.updateRating venueID avgRating reviewCount).bind fun r =>
        .ret (match r with | .error _ => .error CardServer.internalErr | .ok () => .ok ()))
  | setBookingMode venueID mode => badID venueID "invalid venue_id"
      ((VenueUseCase.setBookingMode venueID mode).bind fun r => .ret (CardServer.answer r))

end CardCall

/-- Any number of requests at once. -/
def cardSys (rules : CardRules) : Sys CardWorld CardCall CardOp CardOp.Res (Except Err Unit) where
  prog := CardCall.prog rules
  ready _ _ := True
  exec := CardWorld.Exec rules
  env := CardWorld.Passes

abbrev CardMoment := Moment CardWorld CardCall CardOp CardOp.Res (Except Err Unit)

abbrev CardConfig := Config CardWorld CardCall CardOp CardOp.Res (Except Err Unit)

abbrev CardThread := Thread CardCall CardOp CardOp.Res (Except Err Unit)

end Agregator
