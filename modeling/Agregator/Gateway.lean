import Agregator.BookUsecase
/-!
# Gateway — what the handlers of the gateway share

The entries of the error catalog and how an error of a service becomes one, query parameters, the claims of a caller and the roles
a route asks for, and who manages a venue in the eyes of the CRM service.
-/
namespace Agregator

/-- The value of an `int32` conversion. -/
def int32 (x : ℤ) : ℤ := Int.bmod x (2 ^ 32)

/-! ## Errors on the way to the caller -/

structure Entry where
  http : ℕ
  code : String
  message : String
deriving DecidableEq, Repr

namespace Entry

def withMessage (e : Entry) (msg : String) : Entry := if trimSpace msg = "" then e else { e with message := trimSpace msg }

def authUnauthorized : Entry := ⟨401, "GATEWAY.AUTH.UNAUTHORIZED", "Требуется авторизация"⟩

def requestInvalidQuery : Entry := ⟨400, "GATEWAY.REQUEST.INVALID_QUERY", "Некорректные параметры запроса"⟩

def upstreamInvalidArgument : Entry := ⟨400, "GATEWAY.UPSTREAM.INVALID_ARGUMENT", "Некорректный запрос"⟩

def upstreamNotFound : Entry := ⟨404, "GATEWAY.UPSTREAM.NOT_FOUND", "Не найдено"⟩

def upstreamAlreadyExists : Entry := ⟨409, "GATEWAY.UPSTREAM.ALREADY_EXISTS", "Конфликт"⟩

def upstreamUnauthenticated : Entry := ⟨401, "GATEWAY.UPSTREAM.UNAUTHENTICATED", "Требуется авторизация"⟩

def upstreamPermissionDenied : Entry := ⟨403, "GATEWAY.UPSTREAM.PERMISSION_DENIED", "Доступ запрещён"⟩

def upstreamUnavailable : Entry := ⟨503, "GATEWAY.UPSTREAM.UNAVAILABLE", "Сервис временно недоступен"⟩

def upstreamFailedPrecondition : Entry := ⟨409, "GATEWAY.UPSTREAM.FAILED_PRECONDITION", "Условие не выполнено"⟩

def upstreamInternal : Entry := ⟨500, "GATEWAY.UPSTREAM.INTERNAL", "Внутренняя ошибка сервиса"⟩

def upstreamUnknown : Entry := ⟨500, "GATEWAY.UPSTREAM.UNKNOWN", "Ошибка сервиса"⟩

/-- `FromGRPC`, and whether the text of the error is passed on. -/
def fromGRPC : Code → Option (Entry × Bool)
  | .invalidArgument => some (upstreamInvalidArgument, true)
  | .notFound => some (upstreamNotFound, true)
  | .alreadyExists => some (upstreamAlreadyExists, true)
  | .unauthenticated => some (upstreamUnauthenticated, true)
  | .permissionDenied => some (upstreamPermissionDenied, true)
  | .unavailable => some (upstreamUnavailable, false)
  | .failedPrecondition => some (upstreamFailedPrecondition, true)
  | .internal => some (upstreamInternal, false)
  | .unknown => some (upstreamUnknown, false)
  | _ => none

end Entry

namespace Err

/-- The code and the message of an error of the database, `ERROR: message (SQLSTATE code)`. -/
def pgError (e : Err) : Option (String × String) :=
  let text := e.text.toList
  let suffix := text.drop (text.length - 17)
  if e.code = .unknown ∧ text.take 7 = "ERROR: ".toList ∧ suffix.take 11 = " (SQLSTATE ".toList then
    some (String.ofList ((suffix.drop 11).take 5), String.ofList ((text.drop 7).take (text.length - 24)))
  else none

/-- `PgErrorUnaryInterceptor`. -/
def pgErrToStatus (e : Err) : Err :=
  match e.pgError with
  | none => e
  | some (code, msg) =>
    if code ∈ ["22P02", "22023", "22007", "22008"] then .status .invalidArgument ("invalid argument: " ++ msg)
    else if code = "23505" then .status .alreadyExists "already exists"
    else e

/-- `GRPCErrorToHTTP`. -/
def toHTTP (e : Err) : Entry :=
  match Entry.fromGRPC e.code with
  | none => .upstreamUnknown
  | some (ent, forward) => if forward then ent.withMessage e.message else ent

end Err

/-! ## Query parameters -/

def queryInt (key raw : String) (dflt min max : ℤ) : Except Entry ℤ :=
  let raw := trimSpace raw
  if raw = "" then .ok dflt
  else
    match atoi raw with
    | some v =>
      if v < min ∨ 0 < max ∧ max < v then
        .error (Entry.requestInvalidQuery.withMessage ("параметр «" ++ key ++ "» должен быть целым числом"))
      else .ok v
    | none => .error (Entry.requestInvalidQuery.withMessage ("параметр «" ++ key ++ "» должен быть целым числом"))

theorem queryInt_range {key raw : String} {dflt min max v : ℤ} (h : queryInt key raw dflt min max = .ok v)
    (hdflt : min ≤ dflt ∧ dflt ≤ max) (hmax : 0 < max) : min ≤ v ∧ v ≤ max := by
  unfold queryInt at h
  dsimp only at h
  by_cases hraw : trimSpace raw = ""
  · rw [if_pos hraw] at h
    cases h
    exact hdflt
  · rw [if_neg hraw] at h
    cases ha : atoi (trimSpace raw) with
    | none =>
      rw [ha] at h
      cases h
    | some x =>
      rw [ha] at h
      dsimp only at h
      by_cases hx : x < min ∨ 0 < max ∧ max < x
      · rw [if_pos hx] at h
        cases h
      · rw [if_neg hx] at h
        cases h
        omega

/-! ## Who manages a venue -/

inductive StaffRole where
  | manager
  | staff
deriving DecidableEq, Repr

def StaffRole.string : StaffRole → String
  | manager => "manager"
  | staff => "staff"

/-- The venues and their staff, as the CRM service reads them. -/
structure CRMDB where
  venues : List (String × String)
  venueStaff : List (String × String × StaffRole)

namespace CRMDB

variable (crm : CRMDB)

/-- The row of a query over `venues` and the `venue_staff` of one user. -/
def managementAccess (venueID userID : String) : String :=
  match crm.venues.find? fun v => v.1 == venueID with
  | none => ""
  | some (_, ownerID) =>
    if ownerID = userID then "owner"
    else
      match crm.venueStaff.find? fun s => s.1 == venueID && s.2.1 == userID with
      | some (_, _, role) => role.string
      | none => ""

def parseUUIDArg (raw field : String) : Except Err String :=
  if isUUID raw then .ok raw else .error (invalidArgument ("invalid " ++ field))

def getManagementAccess (venueID userID : String) : Except Err String := do
  let venueID ← parseUUIDArg venueID "venue_id"
  let userID ← parseUUIDArg userID "user_id"
  return crm.managementAccess venueID userID

end CRMDB

/-! ## Callers -/

/-- The claims of a token. -/
structure Caller where
  userID : String
  role : String
deriving DecidableEq, Repr

/-- `RequireRole` of the owner's cabinet. -/
def ownerCabinet (role : String) : Bool := role ∈ ["user", "venue_owner", "master"]

end Agregator
