import Mathlib.Algebra.Order.Field.Rat
import Agregator.AuthStore
import Agregator.ConcSql
import Agregator.MasterDomain
/-!
# MasterProfile — the profile of a master, its edits and its moderation

The row of a master with its services and credentials, the statements on it, and `UpdateMyProfile`, `SubmitForReview`,
`Moderate` and `SuspendByUser` over them.  A statement here is a transaction that holds the row from its first statement on.
The distance between two points, the shape of a JSON text and the quotes of a message are taken as given.
-/
namespace Agregator

open Rel Conc

/-! ## The profile -/

/-- A circle the master does not travel to. -/
structure ExcludeZone where
  id : String
  latitude : ℚ
  longitude : ℚ
  radiusKm : ℚ
  label : String
deriving DecidableEq, Repr

structure MasterCredential where
  kind : String
  title : String
  issuer : String
  year : ℤ
  sortOrder : ℤ
deriving DecidableEq, Repr

structure MasterProfile extends Master where
  userID : String
  displayName : String
  bio : String
  phone : String
  city : String
  workFormat : String
  travelRadiusKm : ℤ
  travelBaseLatitude : Option ℚ
  travelBaseLongitude : Option ℚ
  travelExcludeZones : List ExcludeZone
  experienceYears : ℤ
  specializations : List String
  availabilityJSON : String
  payoutBankName : String
  payoutBIK : String
  payoutSettlementAccount : String
  payoutCorrespondentAccount : String
  payoutVerificationStatus : String
  credentials : List MasterCredential
  moderationComment : String
  moderatedBy : Option String
  moderatedAt : Option Time
  updatedAt : Time
deriving DecidableEq, Repr

def masterStatuses : List String := ["draft", "pending_review", "needs_revision", "active", "rejected", "suspended"]

def masterProfileSchema : Schema MasterProfile where
  check r := isUUID r.id && isUUID r.userID && masterStatuses.contains r.status &&
    ["venue", "mobile", "both"].contains r.workFormat
  clash a b := a.id == b.id || a.userID == b.userID
  clash_comm a b := by
    rw [Bool.beq_comm (a := a.id), Bool.beq_comm (a := a.userID)]

abbrev ProfileTable := Table masterProfileSchema

/-- The errors the usecase tells apart, and the others. -/
inductive ProfileErr where
  | notFound
  | moderationConflict
  | submitNotAllowed
  | pg (sqlState : String)
deriving DecidableEq, Repr

def ProfileErr.ofViolation : Violation → ProfileErr
  | .check => .pg "23514"
  | .unique => .pg "23505"

/-- What a caller sees. -/
def ProfileErr.toErr : ProfileErr → Err
  | .notFound => .plain "not found"
  | .moderationConflict => .plain "moderation conflict: status changed by another moderator"
  | .submitNotAllowed => .plain "profile cannot be submitted from its current status"
  | .pg sqlState => .plain ("ERROR: (SQLSTATE " ++ sqlState ++ ")")

/-! ## The statements -/

namespace ProfileRepo

def getByUserID (userID : String) (t : ProfileTable) : Option MasterProfile := t.get (·.userID == userID)

def getByID (id : String) (t : ProfileTable) : Option MasterProfile := t.get (·.id == id)

def updateRows (p : MasterProfile → Bool) (f : MasterProfile → MasterProfile) (t : ProfileTable) :
    Except ProfileErr Bool × ProfileTable :=
  match t.update p f with
  | .error v => (.error (.ofViolation v), t)
  | .ok t' => (.ok (t.get p).isSome, t')

/-- The row an edit writes: every column but the identity, and the lists it replaces. -/
def written (now : Time) (m : MasterProfile) (services : Option (List MasterService)) (credentials : Option (List MasterCredential))
    (r : MasterProfile) : MasterProfile :=
  { m with
    id := r.id
    userID := r.userID
    services := services.getD r.services
    credentials := credentials.getD r.credentials
    updatedAt := now }

/-- `UpdateProfileWithAssociations`. -/
def updateProfile (now : Time) (m : MasterProfile) (services : Option (List MasterService))
    (credentials : Option (List MasterCredential)) (t : ProfileTable) : Except ProfileErr Unit × ProfileTable :=
  match updateRows (·.id == m.id) (written now m services credentials) t with
  | (.error err, t') => (.error err, t')
  | (.ok false, t') => (.error .notFound, t')
  | (.ok true, t') => (.ok (), t')

def suspended (now : Time) (r : MasterProfile) : MasterProfile :=
  { r with status := "suspended", moderatedAt := some now, updatedAt := now }

def suspendByUser (now : Time) (userID : String) (t : ProfileTable) : Except ProfileErr Bool × ProfileTable :=
  updateRows (fun r => r.userID == userID && r.status != "suspended") (suspended now) t

def moderated (now : Time) (status comment moderatorID : String) (r : MasterProfile) : MasterProfile :=
  { r with
    status := status
    moderationComment := comment
    moderatedBy := some moderatorID
    moderatedAt := some now
    updatedAt := now }

/-- `ModerateAtomic`: the row is locked and looked at before it is written. -/
def moderateAtomic (now : Time) (id expected status comment moderatorID : String) (t : ProfileTable) :
    Except ProfileErr Unit × ProfileTable :=
  match getByID id t with
  | none => (.error .notFound, t)
  | some r =>
    if r.status ≠ expected then (.error .moderationConflict, t)
    else
      match updateRows (·.id == id) (moderated now status comment moderatorID) t with
      | (.error err, t') => (.error err, t')
      | (.ok _, t') => (.ok (), t')

def submittable : List String := ["draft", "needs_revision", "rejected"]

def submitted (now : Time) (r : MasterProfile) : MasterProfile :=
  { r with status := "pending_review", moderationComment := "", moderatedBy := none, moderatedAt := none, updatedAt := now }

/-- `SubmitForReviewAtomic`. -/
def submitForReviewAtomic (now : Time) (id : String) (t : ProfileTable) : Except ProfileErr Unit × ProfileTable :=
  match updateRows (fun r => r.id == id && submittable.contains r.status) (submitted now) t with
  | (.error err, t') => (.error err, t')
  | (.ok false, t') => (.error .submitNotAllowed, t')
  | (.ok true, t') => (.ok (), t')

end ProfileRepo

inductive ProfileSql where
  | getByUserID (userID : String)
  | getByID (id : String)
  | updateProfile (m : MasterProfile) (services : Option (List MasterService)) (credentials : Option (List MasterCredential))
  | suspendByUser (userID : String)
  | moderateAtomic (id expected status comment moderatorID : String)
  | submitForReviewAtomic (id : String)
deriving DecidableEq, Repr

@[reducible] def ProfileSql.Ans : ProfileSql → Type
  | getByUserID _ | getByID _ => Option MasterProfile
  | suspendByUser _ => Bool
  | _ => Unit

def ProfileSql.run (now : Time) : (s : ProfileSql) → ProfileTable → Except ProfileErr s.Ans × ProfileTable
  | getByUserID userID, t => (.ok (ProfileRepo.getByUserID userID t), t)
  | getByID id, t => (.ok (ProfileRepo.getByID id t), t)
  | updateProfile m services credentials, t => ProfileRepo.updateProfile now m services credentials t
  | suspendByUser userID, t => ProfileRepo.suspendByUser now userID t
  | moderateAtomic id expected status comment moderatorID, t =>
    ProfileRepo.moderateAtomic now id expected status comment moderatorID t
  | submitForReviewAtomic id, t => ProfileRepo.submitForReviewAtomic now id t

def profileRules : SqlRules ProfileErr ProfileTable ProfileSql.Ans := ⟨ProfileSql.run, isUUID⟩

abbrev ProfileOp := SqlOp ProfileSql

abbrev ProfileProg := Prog ProfileOp (SqlOp.Res ProfileErr ProfileSql.Ans)

abbrev ProfileSql.query (s : ProfileSql) : ProfileProg (Except ProfileErr s.Ans) := Prog.perform (SqlOp.sql s)

/-! ## The checks of an edit -/

structure MasterServiceUpsert where
  name : String
  description : String
  durationMin : ℤ
  price : ℤ
deriving DecidableEq, Repr

/-- `text` are the letters, `quote` is `%q`, `isJSONObject` tells the texts of JSON objects, and `outside lat lon z r` whether
the circle `z` leaves that of radius `r`. -/
structure ProfileRules where
  text : CaseRules
  quote : String → String
  isJSONObject : String → Bool
  outside : ℚ → ℚ → ExcludeZone → ℤ → Bool

structure UpdateMasterInput where
  displayName : Option String := none
  bio : Option String := none
  phone : Option String := none
  city : Option String := none
  workFormat : Option String := none
  travelRadiusKm : Option ℤ := none
  travelBaseLatitude : Option ℚ := none
  travelBaseLongitude : Option ℚ := none
  experienceYears : Option ℤ := none
  hourlyRate : Option ℤ := none
  priceWeekend : Option ℤ := none
  availabilityJSON : Option String := none
  servicesReplace : Option (List MasterServiceUpsert) := none
  credentialsReplace : Option (List MasterCredential) := none
  specializations : Option (List String) := none
  payoutLegalForm : Option String := none
  payoutLegalName : Option String := none
  payoutINN : Option String := none
  payoutKPP : Option String := none
  payoutOGRN : Option String := none
  payoutOGRNIP : Option String := none
  payoutBankName : Option String := none
  payoutBIK : Option String := none
  payoutSettlementAccount : Option String := none
  payoutCorrespondentAccount : Option String := none
  payoutVerificationStatus : Option String := none
  travelExcludeZones : Option (List ExcludeZone) := none
deriving DecidableEq, Repr

namespace MasterUseCase

def invalid {α : Type} (msg : String) : Except Err α := .error (.status .invalidArgument msg)

def maxServicesPerMaster : ℕ := 50
def maxServiceName : ℕ := 200
def maxServiceDescription : ℕ := 5000
def maxCredentialsPerMaster : ℕ := 50
def maxCredentialTitle : ℕ := 200
def maxCredentialIssuer : ℕ := 200
def minCredentialYear : ℤ := 1900
def maxCredentialYear : ℤ := 2100
def maxSpecializations : ℕ := 20
def maxSpecializationLength : ℕ := 100
def maxTravelExcludeZones : ℕ := 20

def validateMasterService (it : MasterServiceUpsert) (i : ℕ) : Except Err Unit :=
  let name := trimSpace it.name
  let item := "service[" ++ toString i ++ "]: "
  if name = "" then invalid (item ++ "name is required")
  else if maxServiceName < name.length then invalid (item ++ "name exceeds " ++ toString maxServiceName ++ " characters")
  else if maxServiceDescription < (trimSpace it.description).length then
    invalid (item ++ "description exceeds " ++ toString maxServiceDescription ++ " characters")
  else if it.durationMin < 0 then invalid (item ++ "duration_min must be non-negative")
  else if it.price < 0 then invalid (item ++ "price must be non-negative")
  else .ok ()

def validateMasterServices (items : List MasterServiceUpsert) : Except Err Unit :=
  if maxServicesPerMaster < items.length then
    invalid ("too many services: " ++ toString items.length ++ " provided, max " ++ toString maxServicesPerMaster)
  else items.zipIdx.forM fun (it, i) => validateMasterService it i

/-- The item as it is to be stored. -/
def validateMasterCredential (R : ProfileRules) (it : MasterCredential) (i : ℕ) : Except Err MasterCredential :=
  let kind := if trimSpace it.kind = "" then "certificate" else trimSpace it.kind
  let item := "credential[" ++ toString i ++ "]: "
  let title := trimSpace it.title
  let issuer := trimSpace it.issuer
  if kind ≠ "certificate" ∧ kind ≠ "award" then invalid (item ++ "invalid kind " ++ R.quote kind)
  else if title = "" then invalid (item ++ "title is required")
  else if maxCredentialTitle < title.length then
    invalid (item ++ "title exceeds " ++ toString maxCredentialTitle ++ " characters")
  else if maxCredentialIssuer < issuer.length then
    invalid (item ++ "issuer exceeds " ++ toString maxCredentialIssuer ++ " characters")
  else if it.year ≠ 0 ∧ (it.year < minCredentialYear ∨ maxCredentialYear < it.year) then
    invalid (item ++ "year must be between " ++ toString minCredentialYear ++ " and " ++ toString maxCredentialYear)
  else .ok ⟨kind, title, issuer, it.year, i⟩

def validateMasterCredentials (R : ProfileRules) (items : List MasterCredential) : Except Err (List MasterCredential) :=
  if maxCredentialsPerMaster < items.length then
    invalid ("too many credentials: " ++ toString items.length ++ " provided, max " ++ toString maxCredentialsPerMaster)
  else items.zipIdx.mapM fun (it, i) => validateMasterCredential R it i

def normalizeDigits (s : String) : String := String.ofList ((trimSpace s).toList.filter Char.isDigit)

/-- Eleven digits that start with 7, or nothing. -/
def normalizeRussianMobileDigits (phone : String) : String :=
  let d := ((trimSpace phone).toList.filter Char.isDigit)
  if d.length = 11 then
    if d.head? = some '8' then String.ofList ('7' :: d.tail)
    else if d.head? = some '7' then String.ofList d
    else ""
  else if d.length = 10 then String.ofList ('7' :: d)
  else ""

def needsTravelBaseForFormat (workFormat : String) : Bool :=
  let f := trimSpace (toLower workFormat)
  f == "mobile" || f == "both"

def clearTravelFieldsForVenue (m : MasterProfile) : MasterProfile :=
  if m.workFormat = "venue" then
    { m with travelBaseLatitude := none, travelBaseLongitude := none, travelRadiusKm := 0, travelExcludeZones := [] }
  else m

def validateTravelBaseForProfile (m : MasterProfile) : Except Err Unit :=
  if needsTravelBaseForFormat m.workFormat = false then .ok ()
  else if m.travelRadiusKm ≤ 0 then .ok ()
  else
    match m.travelBaseLatitude, m.travelBaseLongitude with
    | some lat, some lon =>
      if lat < -90 ∨ 90 < lat ∨ lon < -180 ∨ 180 < lon then invalid "некорректные координаты метки на карте" else .ok ()
    | _, _ => invalid "поставьте метку на карте (точка отсчёта километража)"

def validateTravelExcludeZone (z : ExcludeZone) (i : ℕ) : Except Err Unit :=
  let zone := "зона " ++ toString (i + 1) ++ ": "
  if trimSpace z.id = "" then invalid (zone ++ "отсутствует id")
  else if z.latitude < -90 ∨ 90 < z.latitude ∨ z.longitude < -180 ∨ 180 < z.longitude then
    invalid (zone ++ "некорректные координаты")
  else if 0 < z.radiusKm ∧ (z.radiusKm < 1 / 10 ∨ 50 < z.radiusKm) then invalid (zone ++ "радиус от 0.1 до 50 км")
  else .ok ()

def validateTravelExcludeZones (zones : List ExcludeZone) : Except Err Unit :=
  if maxTravelExcludeZones < zones.length then
    invalid ("не более " ++ toString maxTravelExcludeZones ++ " зон, куда не выезжаете")
  else zones.zipIdx.forM fun (z, i) => validateTravelExcludeZone z i

def validateTravelExcludeZonesInsideTravelRadius (R : ProfileRules) (m : MasterProfile) : Except Err Unit :=
  match m.travelBaseLatitude, m.travelBaseLongitude with
  | some lat, some lon =>
    if m.travelRadiusKm ≤ 0 then .ok ()
    else m.travelExcludeZones.zipIdx.forM fun (z, i) =>
      if R.outside lat lon z m.travelRadiusKm then
        invalid ("зона «куда не выезжаю» " ++ toString (i + 1) ++
          ": круг должен целиком помещаться в зону выезда от метки (" ++ toString m.travelRadiusKm ++
          " км по карте); уменьшите радиус зоны или перенесите центр ближе к метке")
      else .ok ()
  | _, _ => .ok ()

def validateTravelExcludeZonesForProfile (R : ProfileRules) (m : MasterProfile) : Except Err Unit :=
  if needsTravelBaseForFormat m.workFormat = false then .ok ()
  else do
    validateTravelExcludeZones m.travelExcludeZones
    validateTravelExcludeZonesInsideTravelRadius R m

def hasAnyPayoutData (m : MasterProfile) : Bool :=
  [m.payoutLegalForm, m.payoutLegalName, m.payoutINN, m.payoutKPP, m.payoutOGRN, m.payoutOGRNIP, m.payoutBankName, m.payoutBIK,
    m.payoutSettlementAccount, m.payoutCorrespondentAccount].any (trimSpace · != "")

def payoutProfileErr (m : MasterProfile) : Option String :=
  match m.validatePayoutProfile with
  | .error err => some err.message
  | .ok () => none

/-! ### The fields an edit checks -/

/-- A phone that is there is not taken away. -/
def editPhone (m : MasterProfile) : Option String → Except Err String
  | none => .ok m.phone
  | some phone =>
    let normalized := normalizeRussianMobileDigits phone
    if trimSpace phone = "" then
      if m.phone ≠ "" then invalid "нельзя удалить номер телефона — укажите новый номер" else .ok m.phone
    else if normalized = "" then invalid "укажите полный номер телефона в формате +7 (999) 123-45-67"
    else .ok normalized

def editWorkFormat (m : MasterProfile) : Option String → Except Err String
  | none => .ok m.workFormat
  | some workFormat =>
    let wf := trimSpace workFormat
    if wf ≠ "venue" ∧ wf ≠ "mobile" ∧ wf ≠ "both" then invalid "invalid work_format" else .ok wf

def editTravelBase (m : MasterProfile) : Option ℚ → Option ℚ → Except Err (Option ℚ × Option ℚ)
  | none, none => .ok (m.travelBaseLatitude, m.travelBaseLongitude)
  | some lat, some lon => .ok (some lat, some lon)
  | _, _ => invalid "укажите широту и долготу метки на карте вместе"

def editSpecializations (m : MasterProfile) : Option (List String) → Except Err (List String)
  | none => .ok m.specializations
  | some specs =>
    if maxSpecializations < specs.length then
      invalid ("specializations must not exceed " ++ toString maxSpecializations ++ " items")
    else if specs.any (maxSpecializationLength < ·.length) then
      invalid ("each specialization must not exceed " ++ toString maxSpecializationLength ++ " characters")
    else .ok specs

def editAvailability (R : ProfileRules) (m : MasterProfile) : Option String → Except Err String
  | none => .ok m.availabilityJSON
  | some json =>
    let s := if trimSpace json = "" then "{}" else trimSpace json
    if R.isJSONObject s then .ok s else invalid "availability_json: must be a JSON object"

def editLegalForm (m : MasterProfile) : Option String → Except Err String
  | none => .ok m.payoutLegalForm
  | some form =>
    let v := normalizePayoutLegalForm form
    if ["", "ip", "ooo", "individual", "self_employed"].contains v then .ok v else invalid "invalid payout_legal_form"

def editVerification (m : MasterProfile) : Option String → Except Err String
  | none => .ok m.payoutVerificationStatus
  | some status =>
    let v := trimSpace (toLower status)
    if v = "" then .ok "unverified"
    else if ["unverified", "pending", "verified", "rejected"].contains v then .ok v
    else invalid "invalid payout_verification_status"

/-- The payout fields that make the profile be checked. -/
def touchesPayout (inp : UpdateMasterInput) : Bool :=
  [inp.payoutLegalForm, inp.payoutLegalName, inp.payoutINN, inp.payoutKPP, inp.payoutOGRN, inp.payoutOGRNIP, inp.payoutBankName,
    inp.payoutBIK, inp.payoutSettlementAccount, inp.payoutCorrespondentAccount].any Option.isSome

/-- The profile with the fields of the request. -/
def applyFields (R : ProfileRules) (inp : UpdateMasterInput) (m : MasterProfile) : Except Err MasterProfile := do
  let phone ← editPhone m inp.phone
  let workFormat ← editWorkFormat m inp.workFormat
  let (lat, lon) ← editTravelBase m inp.travelBaseLatitude inp.travelBaseLongitude
  let specializations ← editSpecializations m inp.specializations
  let availabilityJSON ← editAvailability R m inp.availabilityJSON
  let legalForm ← editLegalForm m inp.payoutLegalForm
  let verification ← editVerification m inp.payoutVerificationStatus
  .ok { m with
    displayName := (inp.displayName.map trimSpace).getD m.displayName
    bio := (inp.bio.map trimSpace).getD m.bio
    phone := phone
    city := (inp.city.map fun s => R.text.lower (trimSpace s)).getD m.city
    workFormat := workFormat
    travelRadiusKm := inp.travelRadiusKm.getD m.travelRadiusKm
    travelBaseLatitude := lat
    travelBaseLongitude := lon
    travelExcludeZones := inp.travelExcludeZones.getD m.travelExcludeZones
    experienceYears := inp.experienceYears.getD m.experienceYears
    specializations := specializations
    hourlyRate := inp.hourlyRate.getD m.hourlyRate
    priceWeekend := inp.priceWeekend.getD m.priceWeekend
    availabilityJSON := availabilityJSON
    payoutLegalForm := legalForm
    payoutLegalName := (inp.payoutLegalName.map trimSpace).getD m.payoutLegalName
    payoutINN := (inp.payoutINN.map normalizeDigits).getD m.payoutINN
    payoutKPP := (inp.payoutKPP.map normalizeDigits).getD m.payoutKPP
    payoutOGRN := (inp.payoutOGRN.map normalizeDigits).getD m.payoutOGRN
    payoutOGRNIP := (inp.payoutOGRNIP.map normalizeDigits).getD m.payoutOGRNIP
    payoutBankName := (inp.payoutBankName.map trimSpace).getD m.payoutBankName
    payoutBIK := (inp.payoutBIK.map normalizeDigits).getD m.payoutBIK
    payoutSettlementAccount := (inp.payoutSettlementAccount.map normalizeDigits).getD m.payoutSettlementAccount
    payoutCorrespondentAccount := (inp.payoutCorrespondentAccount.map normalizeDigits).getD m.payoutCorrespondentAccount
    payoutVerificationStatus := verification }

/-- An edit of a profile that is published goes to the moderators. -/
def resubmit (m : MasterProfile) : MasterProfile :=
  if m.status = "active" then
    { m with status := "pending_review", moderationComment := "", moderatedBy := none, moderatedAt := none }
  else m

/-- What an edit may not say of a master who does not travel. -/
def checkVenueFormat (inp : UpdateMasterInput) (m : MasterProfile) : Except Err Unit :=
  if m.workFormat ≠ "venue" then .ok ()
  else if inp.travelRadiusKm.any (· != 0) then invalid "travel_radius_km не применимо для формата venue"
  else if inp.travelBaseLatitude.isSome || inp.travelBaseLongitude.isSome then
    invalid "travel_base_lat/lng не применимо для формата venue"
  else if inp.travelExcludeZones.any (· != []) then invalid "travel_exclude_zones не применимо для формата venue"
  else .ok ()

/-- The profile that is to be written, and the credentials. -/
def edit (R : ProfileRules) (inp : UpdateMasterInput) (m : MasterProfile) :
    Except Err (MasterProfile × Option (List MasterCredential)) := do
  let m ← applyFields R inp m
  if let (true, some msg) := (touchesPayout inp && hasAnyPayoutData m, payoutProfileErr m) then invalid msg
  let m := resubmit m
  checkVenueFormat inp m
  let m := clearTravelFieldsForVenue m
  validateTravelBaseForProfile m
  validateTravelExcludeZonesForProfile R m
  if let some items := inp.servicesReplace then validateMasterServices items
  match inp.credentialsReplace with
  | none => .ok (m, none)
  | some items =>
    let credentials ← validateMasterCredentials R items
    .ok (m, some credentials)

/-! ### The calls -/

abbrev getByUserID (userID : String) : ProfileProg (Except ProfileErr (Option MasterProfile)) :=
  ProfileSql.query (.getByUserID userID)

abbrev getByID (id : String) : ProfileProg (Except ProfileErr (Option MasterProfile)) := ProfileSql.query (.getByID id)

/-- What a read of the profile makes of the answer of a call. -/
def reread (userID : String) : ProfileProg (Except Err (Option MasterProfile)) := do
  match ← getByUserID userID with
  | .error err => return .error err.toErr
  | .ok m => return .ok m

/-- The services that take the place of those there are, each under an identifier of its own. -/
def newServices : List MasterServiceUpsert → ProfileProg (List MasterService)
  | [] => return []
  | it :: items => do
    let id ← Prog.perform SqlOp.fresh
    let services ← newServices items
    return ⟨id, it.price⟩ :: services

def replacedServices : Option (List MasterServiceUpsert) → ProfileProg (Option (List MasterService))
  | none => return none
  | some items => do
    let services ← newServices items
    return some services

def updateMyProfile (R : ProfileRules) (userID : String) (inp : UpdateMasterInput) :
    ProfileProg (Except Err (Option MasterProfile)) := do
  match ← getByUserID userID with
  | .error err => return .error err.toErr
  | .ok none => return .error (.status .notFound "master profile not found")
  | .ok (some m) =>
    match edit R inp m with
    | .error err => return .error err
    | .ok (m, credentials) =>
      let services ← replacedServices inp.servicesReplace
      match ← ProfileSql.query (.updateProfile m services credentials) with
      | .error err => return .error err.toErr
      | .ok () => reread userID

def validateReadyForReview (R : ProfileRules) (m : MasterProfile) : Except Err Unit :=
  if trimSpace m.displayName = "" then invalid "укажите имя или отображаемое имя"
  else if trimSpace m.city = "" then invalid "укажите город"
  else if m.phone = "" then invalid "укажите полный номер телефона в формате +7 (999) 123-45-67"
  else if (trimSpace m.bio).length < 20 then invalid "описание должно быть не короче 20 символов"
  else if m.services = [] then invalid "добавьте хотя бы одну услугу"
  else do
    if let some msg := payoutProfileErr m then invalid msg
    validateTravelBaseForProfile m
    validateTravelExcludeZonesForProfile R m

def submitForReview (R : ProfileRules) (userID : String) : ProfileProg (Except Err (Option MasterProfile)) := do
  match ← getByUserID userID with
  | .error err => return .error err.toErr
  | .ok none => return .error (.status .notFound "master profile not found")
  | .ok (some m) =>
    if m.status = "pending_review" then return .ok (some m)
    else if ProfileRepo.submittable.contains m.status = false then
      return .error (.status .invalidArgument ("profile cannot be submitted in current status: " ++ m.status))
    else
      match validateReadyForReview R m with
      | .error err => return .error err
      | .ok () =>
        match ← ProfileSql.query (.submitForReviewAtomic m.id) with
        | .ok () => reread userID
        | .error err => if err = .submitNotAllowed then reread userID else return .error err.toErr

def maxCommentLen : ℕ := 1000

/-- The status an action leads to. -/
def newStatus (m : MasterProfile) (action comment : String) : Except Err String :=
  if ["request_revision", "reject", "suspend"].contains action && comment == "" then
    invalid "comment is required for this action"
  else if action = "approve" then
    if m.status ≠ "pending_review" ∧ m.status ≠ "suspended" then invalid ("approve is not allowed from status " ++ m.status)
    else
      match payoutProfileErr m with
      | some msg => invalid ("cannot approve: payout profile is incomplete — " ++ msg)
      | none => .ok "active"
  else if action = "request_revision" then
    if m.status ≠ "pending_review" ∧ m.status ≠ "suspended" then
      invalid ("request_revision is not allowed from status " ++ m.status)
    else .ok "needs_revision"
  else if action = "reject" then
    if m.status ≠ "pending_review" then invalid "reject is only allowed from pending_review" else .ok "rejected"
  else if action = "suspend" then
    if m.status ≠ "active" then invalid "suspend is only allowed from active" else .ok "suspended"
  else invalid ("unknown action: " ++ action)

def moderationErr : ProfileErr → Err
  | .notFound => .status .notFound "master not found"
  | .moderationConflict =>
    .status .aborted "moderation conflict: the master status was changed by another moderator — please refresh and retry"
  | err => err.toErr

/-- The call on what the action and the comment come to. -/
def moderateAs (masterID moderatorID action comment : String) : ProfileProg (Except Err MasterProfile) := do
  if maxCommentLen < comment.length then
    return .error (.status .invalidArgument "comment must not exceed 1000 characters")
  else
    match ← getByID masterID with
    | .error err => return .error err.toErr
    | .ok none => return .error (.status .notFound "master not found")
    | .ok (some m) =>
      match newStatus m action comment with
      | .error err => return .error err
      | .ok status =>
        match ← ProfileSql.query (.moderateAtomic masterID m.status status comment moderatorID) with
        | .error err => return .error (moderationErr err)
        | .ok () =>
          match ← getByID masterID with
          | .error err => return .error err.toErr
          | .ok none => return .error (.status .notFound "master not found after status update")
          | .ok (some updated) => return .ok updated

def moderate (R : ProfileRules) (masterID moderatorID action comment : String) : ProfileProg (Except Err MasterProfile) :=
  moderateAs masterID moderatorID (trimSpace (R.text.lower action)) (trimSpace comment)

def suspendByUser (userID : String) : ProfileProg (Except Err Bool) := do
  match ← ProfileSql.query (.suspendByUser userID) with
  | .error err => return .error err.toErr
  | .ok suspended => return .ok suspended

end MasterUseCase

end Agregator
