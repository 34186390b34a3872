import Mathlib.Data.Int.Notation
/-!
# SvcErr — errors, times and identifiers of the services

A Go error is its gRPC status code, its text and whether it wraps `provider.ErrTransient`; `fmt.Errorf` with `%w` keeps
the code and the mark.  An identifier is a string, empty when unset.  A `UUID` column takes the text of a UUID only; the
services pass on the spelling the database prints, so that spelling is the one recognised here.
-/
namespace Agregator

/-- Seconds.  A `time.Time` that may be zero is an `Option Time`. -/
abbrev Time := ℤ

/-- The gRPC status codes, but for `OK`. -/
inductive Code where
  | canceled | unknown | invalidArgument | deadlineExceeded | notFound | alreadyExists | permissionDenied
  | resourceExhausted | failedPrecondition | aborted | outOfRange | unimplemented | internal | unavailable | dataLoss
  | unauthenticated
deriving DecidableEq, Repr

namespace Code

def name : Code → String
  | canceled => "Canceled"
  | unknown => "Unknown"
  | invalidArgument => "InvalidArgument"
  | deadlineExceeded => "DeadlineExceeded"
  | notFound => "NotFound"
  | alreadyExists => "AlreadyExists"
  | permissionDenied => "PermissionDenied"
  | resourceExhausted => "ResourceExhausted"
  | failedPrecondition => "FailedPrecondition"
  | aborted => "Aborted"
  | outOfRange => "OutOfRange"
  | unimplemented => "Unimplemented"
  | internal => "Internal"
  | unavailable => "Unavailable"
  | dataLoss => "DataLoss"
  | unauthenticated => "Unauthenticated"

end Code

/-- A non-nil Go error. -/
structure Err where
  code : Code
  text : String
  transient : Bool := false
deriving DecidableEq, Repr

namespace Err

/-- `status.Error(code, desc)`. -/
def status (code : Code) (desc : String) : Err :=
  ⟨code, "rpc error: code = " ++ code.name ++ " desc = " ++ desc, false⟩

/-- An error that carries no status, as those of the database driver: its code reads `Unknown`. -/
def plain (text : String) : Err := ⟨.unknown, text, false⟩

/-- `fmt.Errorf("ctx: %w", err)`. -/
def wrap (ctx : String) (e : Err) : Err := { e with text := ctx ++ ": " ++ e.text }

@[simp] theorem status_code (code : Code) (desc : String) : (status code desc).code = code := rfl

@[simp] theorem plain_code (text : String) : (plain text).code = .unknown := rfl

@[simp] theorem wrap_code (ctx : String) (e : Err) : (e.wrap ctx).code = e.code := rfl

@[simp] theorem wrap_transient (ctx : String) (e : Err) : (e.wrap ctx).transient = e.transient := rfl

end Err

/-- The text of a UUID, as the database prints it. -/
def isUUID (s : String) : Bool :=
  s.toList.length == 36 && s.toList.zipIdx.all fun (c, i) =>
    if i == 8 || i == 13 || i == 18 || i == 23 then c == '-' else c.isDigit || ('a' ≤ c && c ≤ 'f')

theorem ne_empty_of_isUUID {s : String} (h : isUUID s = true) : s ≠ "" := by
  rintro rfl
  exact absurd h (by decide)

/-- A parameter of a statement that is compared with or stored in a `UUID` column. -/
def uuidParam (s : String) : Except Err String :=
  if isUUID s then .ok s else .error (.plain ("ERROR: invalid input syntax for type uuid: \"" ++ s ++ "\" (SQLSTATE 22P02)"))

theorem uuidParam_ok {s : String} (h : isUUID s = true) : uuidParam s = .ok s := by
  simp [uuidParam, h]

theorem uuidParam_cases (s : String) :
    (uuidParam s = .ok s ∧ isUUID s = true) ∨ ∃ e, uuidParam s = .error e ∧ e.code = .unknown := by
  unfold uuidParam
  split
  · rename_i h
    exact .inl ⟨rfl, h⟩
  · exact .inr ⟨_, rfl, rfl⟩

end Agregator
