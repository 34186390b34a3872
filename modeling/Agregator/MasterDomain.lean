import Agregator.BookDomain
/-!
# MasterDomain — masters, their bookings and the checks before one is made

The part of a master that a booking looks at: the recipient of the money, the services and the rates.  A booking has the
statuses of a venue booking; `completed` is written by no one yet.
-/
namespace Agregator

structure MasterService where
  id : String
  price : ℤ
deriving DecidableEq, Repr

structure Master where
  id : String
  status : String
  services : List MasterService
  hourlyRate : ℤ
  priceWeekend : ℤ
  payoutLegalForm : String
  payoutLegalName : String
  payoutINN : String
  payoutKPP : String
  payoutOGRN : String
  payoutOGRNIP : String
deriving DecidableEq, Repr

structure MasterBooking where
  id : String
  masterID : String
  clientUserID : String
  masterServiceID : Option String
  date : Date
  timeFrom : TimeOfDay
  timeTo : TimeOfDay
  comment : String
  status : BookingStatus
  paymentID : String := ""
  paymentURL : String := ""
  totalPrice : ℤ
  createdAt : Time := 0
deriving DecidableEq, Repr

/-- The errors of the domain, which a handler tells apart, and the others. -/
inductive MasterErr where
  | paymentMismatch
  | bookingNotPending (found : String)
  | notFound
  | invalidArgument (detail : String)
  | slotTaken
  | other (err : Err)
deriving DecidableEq, Repr

/-! ## The recipient of the money -/

structure PayoutValidationError where
  field : String
  message : String
deriving DecidableEq, Repr

def countDigits (s : String) : ℕ := (s.toList.filter Char.isDigit).length

def extractDigits (s : String) : List ℕ := (s.toList.filter Char.isDigit).map fun c => c.toNat - 48

/-- The digits before the control digit, weighted. -/
def innChecksum (digits weights : List ℕ) : ℕ := (List.zipWith (· * ·) weights digits).sum % 11 % 10

/-- Other lengths than these two panic; the callers have counted the digits. -/
def validateINN (raw : String) : Bool :=
  let d := extractDigits raw
  if d.all (· == 0) then false
  else if d.length = 10 then innChecksum d [2, 4, 10, 3, 5, 9, 4, 6, 8] == d.getD 9 0
  else if d.length = 12 then
    innChecksum d [7, 2, 4, 10, 3, 5, 9, 4, 6, 8] == d.getD 10 0 &&
      innChecksum d [3, 7, 2, 4, 10, 3, 5, 9, 4, 6, 8] == d.getD 11 0
  else false

/-- `strings.ToLower`, for a comparison with a text of ASCII: two more letters become one of those. -/
def toLower (s : String) : String :=
  String.ofList (s.toList.map fun c => if c.toNat = 0x130 then 'i' else if c.toNat = 0x212a then 'k' else c.toLower)

def normalizePayoutLegalForm (s : String) : String :=
  let v := trimSpace (toLower s)
  if v = "gph" then "individual" else v

def payoutErr (field message : String) : Except PayoutValidationError Unit := .error ⟨field, message⟩

/-- The number of an `inn`, and its control digits. -/
def validatePayoutINN (inn : String) (digits : ℕ) (wrongLength : String) : Except PayoutValidationError Unit :=
  if countDigits inn ≠ digits then payoutErr "inn" wrongLength
  else if validateINN inn = false then payoutErr "inn" "ИНН содержит ошибку: проверьте контрольную цифру"
  else .ok ()

def Master.validatePayoutProfile (m : Master) : Except PayoutValidationError Unit :=
  let plf := normalizePayoutLegalForm m.payoutLegalForm
  if plf ≠ "ip" ∧ plf ≠ "ooo" ∧ plf ≠ "individual" ∧ plf ≠ "self_employed" then
    payoutErr "legal_form" "укажите форму получения выплат: ИП, ООО, физическое лицо или самозанятость"
  else if trimSpace m.payoutLegalName = "" then
    payoutErr "legal_name" "укажите ФИО или наименование получателя выплат"
  else if plf = "ooo" then do
    validatePayoutINN m.payoutINN 10 "для ООО ИНН должен содержать 10 цифр"
    if countDigits m.payoutKPP ≠ 9 then payoutErr "kpp" "для ООО КПП должен содержать 9 цифр"
    else if countDigits m.payoutOGRN ≠ 13 then payoutErr "ogrn" "для ООО ОГРН должен содержать 13 цифр"
    else .ok ()
  else if plf = "ip" then do
    validatePayoutINN m.payoutINN 12 "для ИП ИНН должен содержать 12 цифр"
    if countDigits m.payoutOGRNIP ≠ 15 then payoutErr "ogrnip" "для ИП ОГРНИП должен содержать 15 цифр" else .ok ()
  else validatePayoutINN m.payoutINN 12 ("для " ++ plf ++ " ИНН должен содержать 12 цифр")

example : validateINN "7707083893" = true := by decide

example : validateINN "7707083894" = false := by decide

/-! ## The slot and its price -/

def maxBookingCommentLength : ℕ := 1000

def bookingMaxAdvanceDays : ℕ := 183

/-- The slot of the text, if it is in the window. -/
def validateBookingSlot (today : Date) (date timeFrom timeTo : String) : Except Err (Date × TimeOfDay × TimeOfDay) :=
  match Date.parse (trimSpace date) with
  | none => .error (.status .invalidArgument "invalid date: expected YYYY-MM-DD")
  | some parsedDate =>
    if parsedDate.dayNumber < today.dayNumber then .error (.status .invalidArgument "date must not be in the past")
    else if today.dayNumber + bookingMaxAdvanceDays < parsedDate.dayNumber then
      .error (.status .invalidArgument ("date must be within " ++ toString bookingMaxAdvanceDays ++ " days from today"))
    else
      match TimeOfDay.parse (trimSpace timeFrom) with
      | none => .error (.status .invalidArgument "invalid time_from: expected HH:MM")
      | some start =>
        match TimeOfDay.parse (trimSpace timeTo) with
        | none => .error (.status .invalidArgument "invalid time_to: expected HH:MM")
        | some stop =>
          if stop.minutesSinceStart ≤ start.minutesSinceStart then
            .error (.status .invalidArgument "time_to must be later than time_from")
          else .ok (parsedDate, start, stop)

/-- Of services with one id the first one counts.  The slot is the one that has been checked, which is read again. -/
def estimateMasterBookingPriceKopecks (m : Master) (serviceID : Option String) (slot : Date × TimeOfDay × TimeOfDay) :
    Except Err ℤ :=
  match serviceID with
  | some sid =>
    match m.services.find? (·.id == sid) with
    | none => .error (.status .invalidArgument "unknown service")
    | some s => if s.price ≤ 0 then .error (.status .invalidArgument "стоимость услуги не настроена") else .ok s.price
  | none =>
    let hourly := weekendRate m.hourlyRate m.priceWeekend slot.1.isWeekendDay
    if hourly ≤ 0 then .error (.status .invalidArgument "master hourly rate is not configured")
    else
      let minutes := slot.2.2.minutesSinceStart - slot.2.1.minutesSinceStart
      if minutes ≤ 0 then .error (.status .invalidArgument "invalid booking duration")
      else
        let amount := (int64 (int64 (hourly * minutes) + 59)).tdiv 60
        if amount ≤ 0 then .error (.status .invalidArgument "invalid booking amount") else .ok amount

end Agregator
