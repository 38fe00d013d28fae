import Mathlib
import Netxduo.Secure.Certificate

/-! The validity period of a certificate: the ASN.1 times as seconds since 1970, in 32 bits. -/

namespace Netxduo.X509

/-! ### The source -/

def asnTagUtcTime : UInt8 := 23
def asnTagGeneralizedTime : UInt8 := 24

def charIsDigit (character : UInt8) : Bool := decide (0x30 ≤ character ∧ character ≤ 0x39)

/-- The digits at an index, as many as are named. --/
def charsAreDigits (asn1Time : List UInt8) (index count : Nat) : Bool :=
  ((asn1Time.drop index).take count).all charIsDigit

def date2CharsToInt (buffer : List UInt8) (index : Nat) : Nat :=
  ((buffer.getD index 0).toNat - 0x30) * 10 + ((buffer.getD (index + 1) 0).toNat - 0x30)

def date4CharsToInt (buffer : List UInt8) (index : Nat) : Nat :=
  date2CharsToInt buffer index * 100 + date2CharsToInt buffer (index + 2)

def isLeapYear (year : Nat) : Bool := decide ((year % 4 = 0 ∧ year % 100 ≠ 0) ∨ year % 400 = 0)

def daysBeforeMonth : List Nat := [0, 31, 59, 90, 120, 151, 181, 212, 243, 273, 304, 334]

def unixEpoch : Nat := 1970

/-- `_nx_secure_count_leap_years`, the last year among them. --/
def countLeapYears (startYear endYear : Nat) : Nat :=
  ((List.range' startYear (endYear + 1 - startYear)).filter isLeapYear).length

/-- The optional seconds, and the index behind them. --/
def timeSeconds (asn1Time : List UInt8) (index : Nat) : Option (Nat × Nat) :=
  let next := asn1Time.getD index 0
  if next ≠ 0x5A ∧ next ≠ 0x2B ∧ next ≠ 0x2D then
    if index + 1 ≥ asn1Time.length ∨ charsAreDigits asn1Time index 2 = false then none
    else some (date2CharsToInt asn1Time index, index + 2)
  else some (0, index)

/-- The optional fraction of a second, which is skipped. --/
def timeFraction (asn1Time : List UInt8) (index : Nat) : Option Nat :=
  if index < asn1Time.length ∧ asn1Time.getD index 0 = 0x2E then
    if index + 1 ≥ asn1Time.length ∨ charIsDigit (asn1Time.getD (index + 1) 0) = false then none
    else some (index + 1 + ((asn1Time.drop (index + 1)).takeWhile charIsDigit).length)
  else some index

/-- The zone: what is taken off the hours and minutes, which wrap around, and the index behind it. --/
def timeOffset (asn1Time : List UInt8) (index : Nat) (hour minute : UInt32) : Option (UInt32 × UInt32 × Nat) :=
  let sign := asn1Time.getD index 0
  if sign = 0x5A then some (hour, minute, index + 1)
  else if sign ≠ 0x2B ∧ sign ≠ 0x2D then none
  else if index + 4 ≥ asn1Time.length ∨ charsAreDigits asn1Time (index + 1) 4 = false then none
  else
    let hours := UInt32.ofNat (date2CharsToInt asn1Time (index + 1))
    let minutes := UInt32.ofNat (date2CharsToInt asn1Time (index + 3))
    if sign = 0x2B then some (hour - hours, minute - minutes, index + 5)
    else some (hour + hours, minute + minutes, index + 5)

/-- The fields of a time are in their ranges. --/
def timeInRange (month day hour minute second : Nat) : Prop :=
  1 ≤ month ∧ month ≤ 12 ∧ 1 ≤ day ∧ day ≤ 31 ∧ hour ≤ 23 ∧ minute ≤ 59 ∧ second ≤ 59

instance (month day hour minute second : Nat) : Decidable (timeInRange month day hour minute second) := by
  unfold timeInRange
  infer_instance

/-- The days up to a day of a month, which counts from one. --/
def daysSinceEpoch (year month day : Nat) : Nat :=
  let day := day - 1 + countLeapYears unixEpoch year
  let day := if isLeapYear year ∧ month < 3 then day - 1 else day
  day + (year - unixEpoch) * 365 + daysBeforeMonth.getD (month - 1) 0

def secondsSinceEpoch (days : Nat) (hour minute : UInt32) (second : Nat) : UInt32 :=
  let hour := hour + UInt32.ofNat days * 24
  let minute := minute + hour * 60
  UInt32.ofNat second + minute * 60

/-- `_nx_secure_x509_asn1_time_to_unix_convert` --/
def asn1TimeToUnixConvert (asn1Time : List UInt8) (format : UInt8) : Except X509Error UInt32 :=
  if format = asnTagUtcTime then
    if asn1Time.length < 11 ∨ charsAreDigits asn1Time 0 10 = false then .error .invalidDateFormat
    else
      let year := date2CharsToInt asn1Time 0
      let month := date2CharsToInt asn1Time 2
      let day := date2CharsToInt asn1Time 4
      let hour := date2CharsToInt asn1Time 6
      let minute := date2CharsToInt asn1Time 8
      match timeSeconds asn1Time 10 with
      | none => .error .invalidDateFormat
      | some (second, index) =>
        if ¬timeInRange month day hour minute second ∨ index ≥ asn1Time.length then .error .invalidDateFormat
        else
          match timeOffset asn1Time index (UInt32.ofNat hour) (UInt32.ofNat minute) with
          | none => .error .invalidDateFormat
          | some (hour, minute, _) =>
            let year := if year ≥ 70 then year + 1900 else year + 2000
            .ok (secondsSinceEpoch (daysSinceEpoch year month day) hour minute second)
  else if format = asnTagGeneralizedTime then
    if asn1Time.length < 13 ∨ charsAreDigits asn1Time 0 12 = false then .error .invalidDateFormat
    else
      let year := date4CharsToInt asn1Time 0
      let month := date2CharsToInt asn1Time 4
      let day := date2CharsToInt asn1Time 6
      let hour := date2CharsToInt asn1Time 8
      let minute := date2CharsToInt asn1Time 10
      match timeSeconds asn1Time 12 with
      | none => .error .invalidDateFormat
      | some (second, index) =>
        match if index = 12 then some index else timeFraction asn1Time index with
        | none => .error .invalidDateFormat
        | some index =>
          if year < unixEpoch ∨ ¬timeInRange month day hour minute second ∨ index ≥ asn1Time.length then
            .error .invalidDateFormat
          else
            match timeOffset asn1Time index (UInt32.ofNat hour) (UInt32.ofNat minute) with
            | none => .error .invalidDateFormat
            | some (hour, minute, index) =>
              if index ≠ asn1Time.length then .error .invalidDateFormat
              else .ok (secondsSinceEpoch (daysSinceEpoch year month day) hour minute second)
  else .error .invalidDateFormat

/-- `_nx_secure_x509_expiration_check` --/
def expirationCheck (certificate : Certificate) (currentTime : UInt32) : Except X509Error Unit :=
  match asn1TimeToUnixConvert certificate.notBefore certificate.notBeforeValidityFormat with
  | .error e => .error e
  | .ok notBefore =>
    match asn1TimeToUnixConvert certificate.notAfter certificate.notAfterValidityFormat with
    | .error e => .error e
    | .ok notAfter =>
      if currentTime > notAfter then .error .certificateExpired
      else if currentTime < notBefore then .error .certificateNotYetValid
      else .ok ()

/-! ### The calendar -/

/-- The time is within the validity period. --/
def Certificate.ValidAt (c : Certificate) (time : UInt32) : Prop :=
  ∃ notBefore notAfter, asn1TimeToUnixConvert c.notBefore c.notBeforeValidityFormat = .ok notBefore ∧
    asn1TimeToUnixConvert c.notAfter c.notAfterValidityFormat = .ok notAfter ∧ notBefore ≤ time ∧ time ≤ notAfter

/-- The days of a year. --/
def yearDays (year : Nat) : Nat := if isLeapYear year then 366 else 365

/-- The day in its year, the first of January being zero. --/
def dayOfYear (year month day : Nat) : Nat :=
  daysBeforeMonth.getD (month - 1) 0 + (if isLeapYear year ∧ 3 ≤ month then 1 else 0) + (day - 1)

theorem countLeapYears_succ (n : Nat) :
    countLeapYears unixEpoch (unixEpoch + n) =
      ((List.range' unixEpoch n).filter isLeapYear).length + if isLeapYear (unixEpoch + n) then 1 else 0 := by
  unfold countLeapYears
  rw [show unixEpoch + n + 1 - unixEpoch = n + 1 by omega, List.range'_1_concat, List.filter_append, List.length_append]
  by_cases hleap : isLeapYear (unixEpoch + n) = true
  · rw [if_pos hleap, List.filter_cons_of_pos hleap]
    rfl
  · rw [if_neg hleap, List.filter_cons_of_neg hleap]
    rfl

theorem sum_yearDays (n : Nat) :
    ((List.range' unixEpoch n).map yearDays).sum = n * 365 + ((List.range' unixEpoch n).filter isLeapYear).length := by
  induction n with
  | zero => rfl
  | succ n ih =>
    rw [List.range'_1_concat, List.map_append, List.sum_append, ih, List.filter_append, List.length_append]
    by_cases hleap : isLeapYear (unixEpoch + n) = true
    · rw [List.filter_cons_of_pos hleap, List.map_singleton, yearDays, if_pos hleap, List.sum_singleton,
        List.filter_nil, List.length_singleton]
      omega
    · rw [List.filter_cons_of_neg hleap, List.map_singleton, yearDays, if_neg hleap, List.sum_singleton,
        List.filter_nil, List.length_nil]
      omega

/-- The days are those of the years before, and the days of the year. --/
theorem daysSinceEpoch_eq (n month day : Nat) :
    daysSinceEpoch (unixEpoch + n) month day =
      ((List.range' unixEpoch n).map yearDays).sum + dayOfYear (unixEpoch + n) month day := by
  rw [sum_yearDays]
  unfold daysSinceEpoch dayOfYear
  dsimp only
  rw [countLeapYears_succ, Nat.add_sub_cancel_left]
  by_cases hleap : isLeapYear (unixEpoch + n) = true
  · rw [if_pos hleap]
    by_cases hmonth : month < 3
    · rw [if_pos ⟨hleap, hmonth⟩, if_neg (not_and_of_not_right _ (Nat.not_le.mpr hmonth))]
      omega
    · rw [if_neg (not_and_of_not_right _ hmonth), if_pos ⟨hleap, Nat.not_lt.mp hmonth⟩]
      omega
  · rw [if_neg hleap, if_neg (not_and_of_not_left _ hleap), if_neg (not_and_of_not_left _ hleap)]
    omega

theorem validAt_of_check {c : Certificate} {time : UInt32} (h : expirationCheck c time = .ok ()) : c.ValidAt time := by
  unfold expirationCheck at h
  cases hbefore : asn1TimeToUnixConvert c.notBefore c.notBeforeValidityFormat with
  | error e =>
    rw [hbefore] at h
    cases h
  | ok notBefore =>
    cases hafter : asn1TimeToUnixConvert c.notAfter c.notAfterValidityFormat with
    | error e =>
      rw [hbefore, hafter] at h
      cases h
    | ok notAfter =>
      rw [hbefore, hafter] at h
      dsimp only at h
      split at h
      · cases h
      rename_i hlate
      split at h
      · cases h
      rename_i hearly
      exact ⟨notBefore, notAfter, hbefore, hafter, UInt32.not_lt.mp hearly, UInt32.not_lt.mp hlate⟩

end Netxduo.X509
