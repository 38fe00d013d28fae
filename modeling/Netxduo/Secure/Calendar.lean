import Netxduo.Secure.Validity

/-! The times of a certificate against the Gregorian calendar: which of them are converted to their own second. -/

namespace Netxduo.X509

/-! ### The calendar -/

def GregorianLeap (year : Nat) : Prop := 4 ∣ year ∧ (100 ∣ year → 400 ∣ year)

instance (year : Nat) : Decidable (GregorianLeap year) := by
  unfold GregorianLeap
  infer_instance

def monthDays (year month : Nat) : Nat :=
  if month = 2 then (if GregorianLeap year then 29 else 28)
  else if month = 4 ∨ month = 6 ∨ month = 9 ∨ month = 11 then 30 else 31

/-- The days of the first months of a year. --/
def daysOfMonths (year count : Nat) : Nat := ∑ month ∈ Finset.range count, monthDays year (month + 1)

/-- The days of the years before a year. --/
def daysOfYears (year : Nat) : Nat := ∑ y ∈ Finset.range year, daysOfMonths y 12

/-- The days from the first of January 1970 to a date; before it they are negative. --/
def dayNumber (year month day : Nat) : Int :=
  (daysOfYears year : Int) - daysOfYears 1970 + daysOfMonths year (month - 1) + (day - 1)

/-! ### The times -/

/-- The octet of a digit. --/
def digitOctet (d : Nat) : UInt8 := UInt8.ofNat (0x30 + d)

def twoDigits (n : Nat) : List UInt8 := [digitOctet (n / 10), digitOctet (n % 10)]

/-- Z, or an offset to the east or to the west of Greenwich. --/
inductive Zone
  | zulu
  | east (hours minutes : Fin 100)
  | west (hours minutes : Fin 100)
deriving DecidableEq, Repr

namespace Zone

def encode : Zone → List UInt8
  | zulu => [0x5A]
  | east hours minutes => 0x2B :: (twoDigits hours ++ twoDigits minutes)
  | west hours minutes => 0x2D :: (twoDigits hours ++ twoDigits minutes)

/-- How far local time is ahead. --/
def seconds : Zone → Int
  | zulu => 0
  | east hours minutes => 3600 * (hours.val : Int) + 60 * minutes.val
  | west hours minutes => -(3600 * (hours.val : Int) + 60 * minutes.val)

end Zone

/-- A day of a year and a minute of it. --/
structure DayTime where
  month : Fin 100
  day : Fin 100
  hour : Fin 100
  minute : Fin 100
deriving DecidableEq, Repr

def DayTime.encode (t : DayTime) : List UInt8 :=
  twoDigits t.month ++ (twoDigits t.day ++ (twoDigits t.hour ++ twoDigits t.minute))

/-- The digits of the fraction, behind its dot. --/
def fractionEncode : List (Fin 10) → List UInt8
  | [] => []
  | d :: ds => 0x2E :: (d :: ds).map (fun d => digitOctet d.val)

/-- A time in one of the two forms: all fields are digits, the seconds may be left out. --/
inductive Asn1Time
  | utc (year : Fin 100) (dayTime : DayTime) (second : Option (Fin 100)) (zone : Zone)
  | generalized (year : Fin 10000) (dayTime : DayTime) (second : Option (Fin 100 × List (Fin 10))) (zone : Zone)
deriving DecidableEq, Repr

namespace Asn1Time

def format : Asn1Time → UInt8
  | utc .. => asnTagUtcTime
  | generalized .. => asnTagGeneralizedTime

/-- The octets in front of the seconds. --/
def front : Asn1Time → List UInt8
  | utc year dayTime _ _ => twoDigits year ++ dayTime.encode
  | generalized year dayTime _ _ => twoDigits (year / 100) ++ (twoDigits (year % 100) ++ dayTime.encode)

def encode : Asn1Time → List UInt8
  | utc year dayTime second zone =>
    (utc year dayTime second zone).front ++ ((second.map (twoDigits ·.val)).getD [] ++ zone.encode)
  | generalized year dayTime second zone =>
    (generalized year dayTime second zone).front ++
      ((second.map (fun s => twoDigits s.1 ++ fractionEncode s.2)).getD [] ++ zone.encode)

/-- The year: of two digits, those from 50 on are of the twentieth century. --/
def year : Asn1Time → Nat
  | utc year .. => if 50 ≤ year.val then 1900 + year else 2000 + year
  | generalized year .. => year

def dayTime : Asn1Time → DayTime
  | utc _ dayTime .. => dayTime
  | generalized _ dayTime .. => dayTime

def second : Asn1Time → Nat
  | utc _ _ second _ => (second.map Fin.val).getD 0
  | generalized _ _ second _ => (second.map (·.1.val)).getD 0

def zone : Asn1Time → Zone
  | utc _ _ _ zone => zone
  | generalized _ _ _ zone => zone

/-- The date is one of the calendar. --/
def Possible (t : Asn1Time) : Prop :=
  1 ≤ t.dayTime.month.val ∧ t.dayTime.month.val ≤ 12 ∧ 1 ≤ t.dayTime.day.val ∧
    t.dayTime.day.val ≤ monthDays t.year t.dayTime.month

/-- The whole seconds since 1970 began in Greenwich. --/
def instant (t : Asn1Time) : Int :=
  86400 * dayNumber t.year t.dayTime.month t.dayTime.day + 3600 * t.dayTime.hour.val + 60 * t.dayTime.minute.val +
    t.second -
    t.zone.seconds

/-- If the time is accepted, then it is of the calendar, and is converted to its own second. --/
def Exact (t : Asn1Time) : Prop :=
  ∀ r, asn1TimeToUnixConvert t.encode t.format = .ok r → t.Possible ∧ (r.toNat : Int) = t.instant

/-- The fields are in the ranges that the code holds them against. --/
def InRange (t : Asn1Time) : Prop :=
  timeInRange t.dayTime.month t.dayTime.day t.dayTime.hour t.dayTime.minute t.second ∧
    (t.format = asnTagGeneralizedTime → 1970 ≤ t.year)

/-- A field is out of range; or the year is not before 1970, the date exists, and its second fits 32 bits. --/
def Fits (t : Asn1Time) : Prop := t.InRange → 1970 ≤ t.year ∧ t.Possible ∧ 0 ≤ t.instant ∧ t.instant < 2 ^ 32

end Asn1Time

/-! ### Reading the fields -/

theorem digits_octets : ∀ n : Fin 100, charIsDigit (digitOctet (n.val / 10)) = true ∧
    charIsDigit (digitOctet (n.val % 10)) = true ∧
    ((digitOctet (n.val / 10)).toNat - 0x30) * 10 + ((digitOctet (n.val % 10)).toNat - 0x30) = n.val := by decide

theorem digit_octet : ∀ d : Fin 10, charIsDigit (digitOctet d.val) = true := by decide

section
variable {l rest : List UInt8} {k : Nat}

theorem getD_of_drop (n : Nat) (h : l.drop k = rest) : l.getD (k + n) 0 = rest.getD n 0 := by
  rw [← h, List.getD_eq_getElem?_getD, List.getD_eq_getElem?_getD, List.getElem?_drop]

theorem date2_of_drop {n : Fin 100} (h : l.drop k = twoDigits n ++ rest) : date2CharsToInt l k = n := by
  have hhigh : l.getD k 0 = digitOctet (n.val / 10) := getD_of_drop 0 h
  have hlow : l.getD (k + 1) 0 = digitOctet (n.val % 10) := getD_of_drop 1 h
  unfold date2CharsToInt
  rw [hhigh, hlow]
  exact (digits_octets n).2.2

theorem chars_of_drop {n : Nat} {digits : List UInt8} (h : l.drop k = digits ++ rest) (hn : digits.length = n)
    (hdigits : digits.all charIsDigit = true) : charsAreDigits l k n = true := by
  unfold charsAreDigits
  rw [h, ← hn, List.take_left]
  exact hdigits

theorem twoDigits_all (n : Fin 100) : (twoDigits n).all charIsDigit = true := by
  obtain ⟨hhigh, hlow, -⟩ := digits_octets n
  simp [twoDigits, hhigh, hlow]

theorem Zone.encode_ne_nil (zone : Zone) : zone.encode ≠ [] := by cases zone <;> exact List.cons_ne_nil _ _

theorem Zone.sign (zone : Zone) : zone.encode.getD 0 0 = 0x5A ∨ zone.encode.getD 0 0 = 0x2B ∨ zone.encode.getD 0 0 =
    0x2D := by
  cases zone with
  | zulu => exact .inl rfl
  | east hours minutes => exact .inr (.inl rfl)
  | west hours minutes => exact .inr (.inr rfl)

theorem length_of_drop (h : l.drop k = rest) (hrest : rest ≠ []) : l.length = k + rest.length := by
  have hlength := congrArg List.length h
  have hpos := List.length_pos_iff.mpr hrest
  rw [List.length_drop] at hlength
  omega

theorem timeSeconds_none {zone : Zone} (h : l.drop k = zone.encode) : timeSeconds l k = some (0, k) := by
  unfold timeSeconds
  have hnext : l.getD k 0 = zone.encode.getD 0 0 := getD_of_drop 0 h
  dsimp only
  rw [hnext, if_neg]
  rintro ⟨hz, hplus, hminus⟩
  rcases zone.sign with hsign | hsign | hsign
  · exact hz hsign
  · exact hplus hsign
  · exact hminus hsign

theorem digit_not_sign : ∀ n : Fin 100, digitOctet (n.val / 10) ≠ 0x5A ∧ digitOctet (n.val / 10) ≠ 0x2B ∧
    digitOctet (n.val / 10) ≠ 0x2D := by decide

theorem timeSeconds_some {n : Fin 100} (h : l.drop k = twoDigits n ++ rest) : timeSeconds l k = some (n.val, k + 2) :=
    by
  unfold timeSeconds
  have hnext : l.getD k 0 = digitOctet (n.val / 10) := getD_of_drop 0 h
  have hlength := length_of_drop h (List.cons_ne_nil _ _)
  rw [List.length_append] at hlength
  have htwo : (twoDigits n).length = 2 := rfl
  have hchars : charsAreDigits l k 2 = true := chars_of_drop h rfl (twoDigits_all n)
  dsimp only
  rw [hnext, if_pos (digit_not_sign n), hchars, if_neg, date2_of_drop h]
  rintro (hshort | hfalse)
  · omega
  · cases hfalse

theorem timeFraction_spec {digits : List (Fin 10)} {zone : Zone} (h : l.drop k = fractionEncode digits ++ zone.encode) :
    timeFraction l k = some (k + (fractionEncode digits).length) := by
  unfold timeFraction
  have hlength := length_of_drop h (List.append_ne_nil_of_right_ne_nil _ zone.encode_ne_nil)
  cases digits with
  | nil =>
    have hnext : l.getD k 0 = zone.encode.getD 0 0 := getD_of_drop 0 h
    rw [if_neg]
    · rfl
    rintro ⟨-, hdot⟩
    rw [hnext] at hdot
    rcases zone.sign with hsign | hsign | hsign
    · exact absurd (hsign.symm.trans hdot) (by decide)
    · exact absurd (hsign.symm.trans hdot) (by decide)
    · exact absurd (hsign.symm.trans hdot) (by decide)
  | cons d digits =>
    have hdot : l.getD k 0 = 0x2E := getD_of_drop 0 h
    have hfirst : l.getD (k + 1) 0 = digitOctet d.val := getD_of_drop 1 h
    have hbehind : l.drop (k + 1) = (d :: digits).map (fun d => digitOctet d.val) ++ zone.encode := by
      rw [← List.drop_drop, h]
      rfl
    have hrun : (l.drop (k + 1)).takeWhile charIsDigit = (d :: digits).map (fun d => digitOctet d.val) := by
      rw [hbehind, List.takeWhile_append_of_pos]
      · have hstop : zone.encode.takeWhile charIsDigit = [] := by cases zone <;> rfl
        rw [hstop, List.append_nil]
      · intro octet hoctet
        obtain ⟨d', -, rfl⟩ := List.mem_map.mp hoctet
        exact digit_octet d'
    rw [List.length_append, fractionEncode, List.length_cons, List.length_map, List.length_cons] at hlength
    rw [if_pos ⟨by omega, hdot⟩, hfirst, digit_octet d, if_neg, hrun]
    · rw [fractionEncode, List.length_cons, Nat.add_assoc, Nat.add_comm 1]
    · rintro (hshort | hfalse)
      · omega
      · cases hfalse

/-- What the code makes of hour and minute at an offset. --/
def Zone.shift (hour minute : UInt32) : Zone → UInt32 × UInt32
  | .zulu => (hour, minute)
  | .east hours minutes => (hour - UInt32.ofNat hours, minute - UInt32.ofNat minutes)
  | .west hours minutes => (hour + UInt32.ofNat hours, minute + UInt32.ofNat minutes)

theorem timeOffset_spec {zone : Zone} (hour minute : UInt32) (h : l.drop k = zone.encode) :
    timeOffset l k hour minute = some ((zone.shift hour minute).1, (zone.shift hour minute).2, l.length) := by
  unfold timeOffset
  have hlength := length_of_drop h zone.encode_ne_nil
  have hnext : l.getD k 0 = zone.encode.getD 0 0 := getD_of_drop 0 h
  have hbehind : l.drop (k + 1) = zone.encode.tail := by rw [← List.drop_drop, h, List.drop_one]
  dsimp only
  rw [hnext]
  cases zone with
  | zulu =>
    rw [if_pos (show Zone.zulu.encode.getD 0 0 = 0x5A from rfl), hlength]
    rfl
  | east hours minutes =>
    have hlate : l.drop (k + 3) = twoDigits minutes ++ [] := by
      rw [← List.drop_drop, h]
      rfl
    have hall : (twoDigits hours ++ twoDigits minutes).all charIsDigit = true := by
      rw [List.all_append, twoDigits_all, twoDigits_all]
      rfl
    have hchars : charsAreDigits l (k + 1) 4 = true :=
      chars_of_drop (hbehind.trans (List.append_nil _).symm) rfl hall
    rw [show (Zone.east hours minutes).encode.getD 0 0 = 0x2B from rfl, if_neg (by decide), if_neg (by decide), hchars,
      if_neg, if_pos rfl, date2_of_drop hbehind, date2_of_drop hlate, hlength]
    · rfl
    · rintro (hshort | hfalse)
      · rw [hlength] at hshort
        exact absurd hshort (Nat.not_le.mpr (Nat.lt_succ_self _))
      · cases hfalse
  | west hours minutes =>
    have hlate : l.drop (k + 3) = twoDigits minutes ++ [] := by
      rw [← List.drop_drop, h]
      rfl
    have hall : (twoDigits hours ++ twoDigits minutes).all charIsDigit = true := by
      rw [List.all_append, twoDigits_all, twoDigits_all]
      rfl
    have hchars : charsAreDigits l (k + 1) 4 = true :=
      chars_of_drop (hbehind.trans (List.append_nil _).symm) rfl hall
    rw [show (Zone.west hours minutes).encode.getD 0 0 = 0x2D from rfl, if_neg (by decide), if_neg (by decide), hchars,
      if_neg, if_neg (by decide), date2_of_drop hbehind, date2_of_drop hlate, hlength]
    · rfl
    · rintro (hshort | hfalse)
      · rw [hlength] at hshort
        exact absurd hshort (Nat.not_le.mpr (Nat.lt_succ_self _))
      · cases hfalse

end

namespace Asn1Time

/-- The year as the code has it. --/
def yearRead : Asn1Time → Nat
  | utc year .. => if year.val ≥ 70 then year + 1900 else year + 2000
  | generalized year .. => year

/-- What is converted, in the words of the code. --/
def converted (t : Asn1Time) : UInt32 :=
  let clock := t.zone.shift (UInt32.ofNat t.dayTime.hour) (UInt32.ofNat t.dayTime.minute)
  secondsSinceEpoch (daysSinceEpoch t.yearRead t.dayTime.month t.dayTime.day) clock.1 clock.2 t.second

theorem convert_utc (year : Fin 100) (dayTime : DayTime) (second : Option (Fin 100)) (zone : Zone) :
    asn1TimeToUnixConvert (utc year dayTime second zone).encode asnTagUtcTime =
      if timeInRange dayTime.month dayTime.day dayTime.hour dayTime.minute (utc year dayTime second zone).second then
        .ok (utc year dayTime second zone).converted
      else .error .invalidDateFormat := by
  obtain ⟨month, day, hour, minute⟩ := dayTime
  generalize hl : (utc year ⟨month, day, hour, minute⟩ second zone).encode = l
  have hdrop : ∀ n, l.drop n = (twoDigits year ++ (twoDigits month ++ (twoDigits day ++ (twoDigits hour ++
      (twoDigits minute ++ ((second.map (twoDigits ·.val)).getD [] ++ zone.encode)))))).drop n := by
    intro n
    rw [← hl]
    rfl
  have hrest : (second.map (twoDigits ·.val)).getD [] ++ zone.encode ≠ [] :=
    List.append_ne_nil_of_right_ne_nil _ zone.encode_ne_nil
  have hten : l.drop 10 = (second.map (twoDigits ·.val)).getD [] ++ zone.encode := hdrop 10
  have hlength := length_of_drop hten hrest
  have hpos := List.length_pos_iff.mpr hrest
  have hdigits : charsAreDigits l 0 10 = true := by
    refine @chars_of_drop l _ 0 10 (twoDigits year ++ (twoDigits month ++ (twoDigits day ++ (twoDigits hour ++
      twoDigits minute)))) (hdrop 0) rfl ?_
    simp only [List.all_append, twoDigits_all, Bool.and_self]
  have hsecond : ∃ index, timeSeconds l 10 = some ((utc year ⟨month, day, hour, minute⟩ second zone).second, index) ∧
      l.drop index = zone.encode := by
    cases second with
    | none => exact ⟨10, timeSeconds_none hten, hten⟩
    | some n =>
      refine ⟨12, timeSeconds_some hten, ?_⟩
      rw [show (12 : Nat) = 10 + 2 from rfl, ← List.drop_drop, hten]
      rfl
  obtain ⟨index, hseconds, hzone⟩ := hsecond
  have hindex := length_of_drop hzone zone.encode_ne_nil
  have hzonePos := List.length_pos_iff.mpr zone.encode_ne_nil
  unfold asn1TimeToUnixConvert
  rw [if_pos rfl, if_neg, hseconds, date2_of_drop (hdrop 0), date2_of_drop (hdrop 2), date2_of_drop (hdrop 4),
    date2_of_drop (hdrop 6), date2_of_drop (hdrop 8)]
  · dsimp only
    rw [timeOffset_spec _ _ hzone]
    by_cases hrange : timeInRange month day hour minute (utc year ⟨month, day, hour, minute⟩ second zone).second
    · rw [if_neg, if_pos hrange]
      · rfl
      · rintro (hout | hshort)
        · exact hout hrange
        · omega
    · rw [if_pos (.inl hrange), if_neg hrange]
  · rintro (hshort | hfalse)
    · omega
    · rw [hdigits] at hfalse
      cases hfalse

theorem convert_generalized (year : Fin 10000) (dayTime : DayTime) (second : Option (Fin 100 × List (Fin 10))) (zone :
    Zone) :
    asn1TimeToUnixConvert (generalized year dayTime second zone).encode asnTagGeneralizedTime =
      if 1970 ≤ year.val ∧
          timeInRange dayTime.month dayTime.day dayTime.hour dayTime.minute
            (generalized year dayTime second zone).second then
        .ok (generalized year dayTime second zone).converted
      else .error .invalidDateFormat := by
  obtain ⟨month, day, hour, minute⟩ := dayTime
  generalize hl : (generalized year ⟨month, day, hour, minute⟩ second zone).encode = l
  have hcentury : year.val / 100 < 100 := Nat.div_lt_of_lt_mul year.isLt
  have hdrop : ∀ n, l.drop n = (twoDigits (⟨year / 100, hcentury⟩ : Fin 100) ++
    (twoDigits (⟨year % 100, Nat.mod_lt _ (by decide)⟩ : Fin 100) ++
      (twoDigits month ++ (twoDigits day ++ (twoDigits hour ++ (twoDigits minute ++
        ((second.map (fun s => twoDigits s.1 ++ fractionEncode s.2)).getD [] ++ zone.encode))))))).drop n := by
    intro n
    rw [← hl]
    rfl
  have hrest : (second.map (fun s => twoDigits s.1 ++ fractionEncode s.2)).getD [] ++ zone.encode ≠ [] :=
    List.append_ne_nil_of_right_ne_nil _ zone.encode_ne_nil
  have htwelve : l.drop 12 = (second.map (fun s => twoDigits s.1 ++ fractionEncode s.2)).getD [] ++ zone.encode :=
    hdrop 12
  have hlength := length_of_drop htwelve hrest
  have hpos := List.length_pos_iff.mpr hrest
  have hdigits : charsAreDigits l 0 12 = true := by
    refine @chars_of_drop l _ 0 12 (twoDigits (⟨year / 100, hcentury⟩ : Fin 100) ++
      (twoDigits (⟨year % 100, Nat.mod_lt _ (by decide)⟩ : Fin 100) ++ (twoDigits month ++ (twoDigits day ++
        (twoDigits hour ++ twoDigits minute))))) (hdrop 0) rfl ?_
    rw [List.all_append, twoDigits_all, List.all_append, twoDigits_all]
    simp only [List.all_append, twoDigits_all, Bool.and_self]
  have hyear : date4CharsToInt l 0 = year := by
    unfold date4CharsToInt
    rw [date2_of_drop (hdrop 0), date2_of_drop (hdrop 2)]
    exact Nat.div_add_mod' year 100
  have hsecond : ∃ index index', timeSeconds l 12 =
      some ((generalized year ⟨month, day, hour, minute⟩ second zone).second, index) ∧
      (if index = 12 then some index else timeFraction l index) = some index' ∧ l.drop index' = zone.encode := by
    cases second with
    | none => exact ⟨12, 12, timeSeconds_none htwelve, rfl, htwelve⟩
    | some s =>
      obtain ⟨n, digits⟩ := s
      have hparts : l.drop 12 = twoDigits n ++ (fractionEncode digits ++ zone.encode) := by
        rw [htwelve]
        exact List.append_assoc _ _ _
      have hfraction : l.drop 14 = fractionEncode digits ++ zone.encode := by
        rw [show (14 : Nat) = 12 + 2 from rfl, ← List.drop_drop, hparts]
        rfl
      refine ⟨14, 14 + (fractionEncode digits).length, timeSeconds_some hparts, ?_, ?_⟩
      · rw [if_neg (by decide)]
        exact timeFraction_spec hfraction
      · rw [← List.drop_drop, hfraction, List.drop_left]
  obtain ⟨index, index', hseconds, hfraction, hzone⟩ := hsecond
  have hindex := length_of_drop hzone zone.encode_ne_nil
  have hzonePos := List.length_pos_iff.mpr zone.encode_ne_nil
  unfold asn1TimeToUnixConvert
  rw [if_neg (by decide), if_pos rfl, if_neg, hseconds, hyear, date2_of_drop (hdrop 4), date2_of_drop (hdrop 6),
    date2_of_drop (hdrop 8), date2_of_drop (hdrop 10)]
  · dsimp only
    rw [hfraction]
    dsimp only
    rw [timeOffset_spec _ _ hzone]
    by_cases hrange : 1970 ≤ year.val ∧
        timeInRange month day hour minute (generalized year ⟨month, day, hour, minute⟩ second zone).second
    · rw [if_neg, if_pos hrange]
      · dsimp only
        rw [if_neg (not_not.mpr rfl)]
        rfl
      · rintro (hearly | hout | hshort)
        · exact absurd hearly (Nat.not_lt.mpr hrange.1)
        · exact hout hrange.2
        · omega
    · rw [if_neg hrange, if_pos]
      by_cases hearly : 1970 ≤ year.val
      · exact .inr (.inl fun hin => hrange ⟨hearly, hin⟩)
      · exact .inl (Nat.not_le.mp hearly)
  · rintro (hshort | hfalse)
    · omega
    · rw [hdigits] at hfalse
      cases hfalse

/-- A time is converted just when its fields are in range. --/
theorem convert_encode (t : Asn1Time) (r : UInt32) :
    asn1TimeToUnixConvert t.encode t.format = .ok r ↔ t.InRange ∧ r = t.converted := by
  cases t with
  | utc year dayTime second zone =>
    rw [show (utc year dayTime second zone).format = asnTagUtcTime from rfl, convert_utc]
    by_cases hrange : timeInRange dayTime.month dayTime.day dayTime.hour dayTime.minute
      (utc year dayTime second zone).second
    · rw [if_pos hrange]
      exact ⟨fun h => ⟨⟨hrange, fun hformat => absurd hformat (show ¬asnTagUtcTime = asnTagGeneralizedTime by decide)⟩,
        (Except.ok.inj h).symm⟩,
        fun h => congrArg Except.ok h.2.symm⟩
    · rw [if_neg hrange]
      exact ⟨(fun h => by cases h), fun h => absurd h.1.1 hrange⟩
  | generalized year dayTime second zone =>
    rw [show (generalized year dayTime second zone).format = asnTagGeneralizedTime from rfl, convert_generalized]
    by_cases hrange : 1970 ≤ year.val ∧
        timeInRange dayTime.month dayTime.day dayTime.hour dayTime.minute (generalized year dayTime second zone).second
    · rw [if_pos hrange]
      exact ⟨fun h => ⟨⟨hrange.2, fun _ => hrange.1⟩, (Except.ok.inj h).symm⟩, fun h => congrArg Except.ok h.2.symm⟩
    · rw [if_neg hrange]
      exact ⟨(fun h => by cases h), fun h => absurd ⟨h.1.2 rfl, h.1.1⟩ hrange⟩

end Asn1Time

/-! ### The seconds -/

/-- The 32 bits hold the number, as far as they go. --/
def Holds32 (u : UInt32) (z : Int) : Prop := (u.toNat : Int) ≡ z [ZMOD 2 ^ 32]

section
variable {u v : UInt32} {x y : Int}

theorem Holds32.ofNat (n : Nat) : Holds32 (UInt32.ofNat n) n := by
  unfold Holds32
  rw [UInt32.toNat_ofNat']
  push_cast
  exact Int.mod_modEq _ _

theorem Holds32.add (hu : Holds32 u x) (hv : Holds32 v y) : Holds32 (u + v) (x + y) := by
  unfold Holds32 at *
  rw [UInt32.toNat_add]
  push_cast
  exact (Int.mod_modEq _ _).trans (hu.add hv)

theorem Holds32.mul (hu : Holds32 u x) (hv : Holds32 v y) : Holds32 (u * v) (x * y) := by
  unfold Holds32 at *
  rw [UInt32.toNat_mul]
  push_cast
  exact (Int.mod_modEq _ _).trans (hu.mul hv)

theorem Holds32.sub (hu : Holds32 u x) (hv : Holds32 v y) : Holds32 (u - v) (x - y) := by
  unfold Holds32 at *
  have hlt := v.toNat_lt
  rw [UInt32.toNat_sub]
  push_cast [Nat.cast_sub hlt.le]
  have hwrap : (2 ^ 32 - (v.toNat : Int) + u.toNat) ≡ u.toNat - v.toNat [ZMOD 2 ^ 32] := by
    refine Int.modEq_iff_dvd.mpr ⟨-1, ?_⟩
    ring
  exact (Int.mod_modEq _ _).trans (hwrap.trans (hu.sub hv))

/-- The bits are the number exactly where it fits them. --/
theorem Holds32.eq_iff (h : Holds32 u x) : (u.toNat : Int) = x ↔ 0 ≤ x ∧ x < 2 ^ 32 := by
  unfold Holds32 at h
  have hlt := u.toNat_lt
  constructor
  · rintro rfl
    constructor <;> omega
  · rintro ⟨hlow, hhigh⟩
    unfold Int.ModEq at h
    rwa [Int.emod_eq_of_lt (by omega) (by omega), Int.emod_eq_of_lt hlow hhigh] at h

end

/-! ### The days -/

theorem isLeapYear_iff (year : Nat) : isLeapYear year = true ↔ GregorianLeap year := by
  unfold isLeapYear GregorianLeap
  rw [decide_eq_true_eq]
  omega

theorem monthDays_of (year month : Nat) : monthDays year month =
    if month = 2 then (if isLeapYear year then 29 else 28)
    else if month = 4 ∨ month = 6 ∨ month = 9 ∨ month = 11 then 30 else 31 := by
  unfold monthDays
  simp only [isLeapYear_iff]

theorem daysOfMonths_year (year : Nat) : daysOfMonths year 12 = yearDays year := by
  unfold daysOfMonths yearDays
  simp only [monthDays_of]
  generalize isLeapYear year = leap
  revert leap
  decide

/-- The table of the code, and the day it puts behind February, are the days of the months before. --/
theorem dayOfYear_eq {year month : Nat} (day : Nat) (hmonth : 1 ≤ month) (hlast : month ≤ 12) :
    dayOfYear year month day = daysOfMonths year (month - 1) + (day - 1) := by
  unfold dayOfYear daysOfMonths
  simp only [monthDays_of]
  generalize isLeapYear year = leap
  have hall : ∀ (leap : Bool) (m : Fin 12), daysBeforeMonth.getD m.val 0 + (if leap ∧ 3 ≤ m.val + 1 then 1 else 0) =
      ∑ month ∈ Finset.range m.val, (if month + 1 = 2 then (if leap then 29 else 28)
        else if month + 1 = 4 ∨ month + 1 = 6 ∨ month + 1 = 9 ∨ month + 1 = 11 then 30 else 31) := by decide
  obtain ⟨m, rfl⟩ : ∃ m, month = m + 1 := ⟨month - 1, by omega⟩
  rw [Nat.add_sub_cancel, ← hall leap ⟨m, by omega⟩]

theorem sum_range'_yearDays (first n : Nat) :
    ((List.range' first n).map yearDays).sum + daysOfYears first = daysOfYears (first + n) := by
  induction n with
  | zero =>
    rw [List.range'_zero, List.map_nil, List.sum_nil, Nat.zero_add]
    rfl
  | succ n ih =>
    have hsucc : daysOfYears (first + n + 1) = daysOfYears (first + n) + yearDays (first + n) := by
      unfold daysOfYears
      rw [Finset.sum_range_succ, daysOfMonths_year]
    rw [List.range'_1_concat, List.map_append, List.sum_append, List.map_singleton, List.sum_singleton, ← Nat.add_assoc,
      hsucc, ← ih]
    omega

theorem daysSinceEpoch_dayNumber {year month day : Nat} (hyear : 1970 ≤ year) (hmonth : 1 ≤ month) (hlast : month ≤ 12)
    (hday : 1 ≤ day) : (daysSinceEpoch year month day : Int) = dayNumber year month day := by
  obtain ⟨n, rfl⟩ := Nat.exists_eq_add_of_le hyear
  have heq := daysSinceEpoch_eq n month day
  have hsum := sum_range'_yearDays 1970 n
  unfold unixEpoch at *
  rw [heq, dayOfYear_eq day hmonth hlast]
  unfold dayNumber
  omega

/-- A century from the year 1950 to 1969 on is 36525 days. --/
theorem dayNumber_century {n : Nat} (hlow : 50 ≤ n) (hhigh : n < 70) (month day : Nat) :
    dayNumber (2000 + n) month day = dayNumber (1900 + n) month day + 36525 := by
  have hleap : ∀ n : Fin 20, (∑ y ∈ Finset.range 100, yearDays (1950 + n.val + y) = 36525) ∧
      isLeapYear (2050 + n.val) = isLeapYear (1950 + n.val) := by decide +kernel
  obtain ⟨k, rfl⟩ := Nat.exists_eq_add_of_le hlow
  obtain ⟨hdays, hsame⟩ := hleap ⟨k, by omega⟩
  rw [← Nat.add_assoc, ← Nat.add_assoc]
  have hyears : daysOfYears (2050 + k) = daysOfYears (1950 + k) + 36525 := by
    unfold daysOfYears
    rw [show 2050 + k = 1950 + k + 100 by omega, Finset.sum_range_add, ← hdays]
    simp only [daysOfMonths_year]
  have hmonths : daysOfMonths (2050 + k) (month - 1) = daysOfMonths (1950 + k) (month - 1) := by
    unfold daysOfMonths
    simp only [monthDays_of, hsame]
  unfold dayNumber
  show (daysOfYears (2050 + k) : Int) - _ + daysOfMonths (2050 + k) (month - 1) + _ =
    daysOfYears (1950 + k) - _ + daysOfMonths (1950 + k) (month - 1) + _ + _
  rw [hyears, hmonths]
  push_cast
  ring

namespace Asn1Time
variable {t : Asn1Time}

theorem Holds32.shift {hour minute : UInt32} {h m : Int} (hhour : Holds32 hour h) (hminute : Holds32 minute m) (zone :
    Zone) :
    ∃ h' m', Holds32 (zone.shift hour minute).1 h' ∧ Holds32 (zone.shift hour minute).2 m' ∧
      3600 * h' + 60 * m' = 3600 * h + 60 * m - zone.seconds := by
  cases zone with
  | zulu => exact ⟨h, m, hhour, hminute, (Int.sub_zero _).symm⟩
  | east hours minutes =>
    refine ⟨_, _, hhour.sub (.ofNat hours), hminute.sub (.ofNat minutes), ?_⟩
    unfold Zone.seconds
    ring
  | west hours minutes =>
    refine ⟨_, _, hhour.add (.ofNat hours), hminute.add (.ofNat minutes), ?_⟩
    unfold Zone.seconds
    ring

/-- The result is the number of seconds, as far as 32 bits go, from the day that the code arrives at. --/
theorem converted_holds (t : Asn1Time) :
    Holds32 t.converted (86400 * (daysSinceEpoch t.yearRead t.dayTime.month t.dayTime.day : Int) +
      3600 * t.dayTime.hour.val + 60 * t.dayTime.minute.val + t.second - t.zone.seconds) := by
  obtain ⟨h, m, hhour, hminute, hsum⟩ := Holds32.shift (.ofNat t.dayTime.hour) (.ofNat t.dayTime.minute) t.zone
  have hdays := (Holds32.ofNat (daysSinceEpoch t.yearRead t.dayTime.month t.dayTime.day)).mul (Holds32.ofNat 24)
  have hall := (Holds32.ofNat t.second).add ((hminute.add ((hhour.add hdays).mul (.ofNat 60))).mul (.ofNat 60))
  unfold converted secondsSinceEpoch
  have heq : (t.second : Int) + (m + (h + daysSinceEpoch t.yearRead t.dayTime.month t.dayTime.day * (24 : Nat)) * (60 :
    Nat)) * (60 : Nat) =
      86400 * (daysSinceEpoch t.yearRead t.dayTime.month t.dayTime.day : Int) + 3600 * t.dayTime.hour.val +
        60 * t.dayTime.minute.val + t.second - t.zone.seconds := by
    push_cast
    linarith
  rw [← heq]
  exact hall

theorem year_utc (year : Fin 100) (dayTime : DayTime) (second : Option (Fin 100)) (zone : Zone) :
    (utc year dayTime second zone).year = (if 50 ≤ year.val then 1900 + year.val else 2000 + year.val) ∧
      (utc year dayTime second zone).yearRead = (if year.val ≥ 70 then year.val + 1900 else year.val + 2000) :=
  ⟨rfl, rfl⟩

theorem yearRead_eq (h : 1970 ≤ t.year) : t.yearRead = t.year := by
  cases t with
  | utc year dayTime second zone =>
    obtain ⟨hyear, hread⟩ := year_utc year dayTime second zone
    rw [hyear] at h ⊢
    rw [hread]
    split at h <;> split <;> omega
  | generalized year dayTime second zone => rfl

/-- Before 1970, a year of two digits is taken for one of the next century. --/
theorem yearRead_late (hrange : t.InRange) (h : ¬1970 ≤ t.year) :
    ∃ n, 50 ≤ n ∧ n < 70 ∧ t.year = 1900 + n ∧ t.yearRead = 2000 + n := by
  cases t with
  | utc year dayTime second zone =>
    obtain ⟨hyear, hread⟩ := year_utc year dayTime second zone
    rw [hyear] at h
    rw [hyear, hread]
    by_cases hlate : 50 ≤ year.val
    · rw [if_pos hlate] at h ⊢
      refine ⟨year.val, hlate, by omega, rfl, ?_⟩
      rw [if_neg (by omega)]
      exact Nat.add_comm _ _
    · rw [if_neg hlate] at h
      omega
  | generalized year dayTime second zone => exact absurd (hrange.2 rfl) h

/-- Where the code reads the year as it is meant, the result is right as far as 32 bits go. --/
theorem converted_instant (hrange : t.InRange) (hyear : 1970 ≤ t.year) : Holds32 t.converted t.instant := by
  obtain ⟨⟨hmonth, hlast, hday, -⟩, -⟩ := hrange
  have h := converted_holds t
  rwa [yearRead_eq hyear, daysSinceEpoch_dayNumber hyear hmonth hlast hday] at h

/-- Where it does not, the result is wrong. --/
theorem converted_late (hrange : t.InRange) (hyear : ¬1970 ≤ t.year) : (t.converted.toNat : Int) ≠ t.instant := by
  obtain ⟨n, hlow, hhigh, hread, hlate⟩ := yearRead_late hrange hyear
  obtain ⟨⟨hmonth, hlast, hday, -⟩, -⟩ := hrange
  have h := converted_holds t
  rw [hlate, daysSinceEpoch_dayNumber (by omega) hmonth hlast hday, dayNumber_century hlow hhigh, ← hread] at h
  intro heq
  unfold Holds32 at h
  rw [heq] at h
  have hdvd := Int.modEq_iff_dvd.mp h
  unfold instant at hdvd
  have hgap : (86400 * (dayNumber t.year t.dayTime.month t.dayTime.day + 36525) + 3600 * (t.dayTime.hour.val : Int) +
      60 * t.dayTime.minute.val + t.second - t.zone.seconds) -
      (86400 * dayNumber t.year t.dayTime.month t.dayTime.day + 3600 * t.dayTime.hour.val + 60 * t.dayTime.minute.val +
        t.second - t.zone.seconds) = 3155760000 := by ring
  rw [hgap] at hdvd
  exact absurd hdvd (by decide)

theorem exact_iff : t.Exact ↔ t.Fits := by
  constructor
  · intro hexact hrange
    obtain ⟨hpossible, heq⟩ := hexact t.converted ((convert_encode t _).mpr ⟨hrange, rfl⟩)
    have hyear : 1970 ≤ t.year := by_contra fun hyear => converted_late hrange hyear heq
    exact ⟨hyear, hpossible, (converted_instant hrange hyear).eq_iff.mp heq⟩
  · rintro hfits r hconvert
    obtain ⟨hrange, rfl⟩ := (convert_encode t r).mp hconvert
    obtain ⟨hyear, hpossible, hfit⟩ := hfits hrange
    exact ⟨hpossible, (converted_instant hrange hyear).eq_iff.mpr hfit⟩

end Asn1Time

/-! ### The main result -/

/-- The certificate with these times for its validity. --/
def Certificate.validBetween (c : Certificate) (notBefore notAfter : Asn1Time) : Certificate :=
  { c with
    notBefore := notBefore.encode
    notBeforeValidityFormat := notBefore.format
    notAfter := notAfter.encode
    notAfterValidityFormat := notAfter.format }

theorem expirationCheck_iff {c : Certificate} {notBefore notAfter : Asn1Time} (hbefore : notBefore.InRange)
    (hafter : notAfter.InRange) (now : UInt32) :
    expirationCheck (c.validBetween notBefore notAfter) now = .ok () ↔
      notBefore.converted.toNat ≤ now.toNat ∧ now.toNat ≤ notAfter.converted.toNat := by
  have hfirst := (notBefore.convert_encode _).mpr ⟨hbefore, rfl⟩
  have hlast := (notAfter.convert_encode _).mpr ⟨hafter, rfl⟩
  unfold expirationCheck Certificate.validBetween
  dsimp only
  rw [hfirst, hlast]
  dsimp only
  rw [← UInt32.le_iff_toNat_le, ← UInt32.le_iff_toNat_le]
  by_cases hlate : now > notAfter.converted
  · rw [if_pos hlate]
    exact ⟨(fun h => by cases h), fun h => absurd h.2 (UInt32.not_le.mpr hlate)⟩
  · rw [if_neg hlate]
    by_cases hearly : now < notBefore.converted
    · rw [if_pos hearly]
      exact ⟨(fun h => by cases h), fun h => absurd h.1 (UInt32.not_le.mpr hearly)⟩
    · rw [if_neg hearly]
      exact ⟨fun _ => ⟨UInt32.not_lt.mp hearly, UInt32.not_lt.mp hlate⟩, fun _ => rfl⟩

/-- Both times are converted to their own seconds, and the period is then kept to the second, exactly when both fit. --/
theorem time_convert_iff (c : Certificate) (notBefore notAfter : Asn1Time) :
    (notBefore.Exact ∧ notAfter.Exact ∧ (notBefore.InRange → notAfter.InRange → ∀ now : UInt32,
      (expirationCheck (c.validBetween notBefore notAfter) now = .ok () ↔
        notBefore.instant ≤ now.toNat ∧ now.toNat ≤ notAfter.instant))) ↔
      notBefore.Fits ∧ notAfter.Fits := by
  rw [Asn1Time.exact_iff, Asn1Time.exact_iff]
  refine ⟨fun h => ⟨h.1, h.2.1⟩, fun h => ⟨h.1, h.2, fun hbefore hafter now => ?_⟩⟩
  have hfirst := (Asn1Time.exact_iff.mpr h.1 _ ((notBefore.convert_encode _).mpr ⟨hbefore, rfl⟩)).2
  have hlast := (Asn1Time.exact_iff.mpr h.2 _ ((notAfter.convert_encode _).mpr ⟨hafter, rfl⟩)).2
  rw [expirationCheck_iff hbefore hafter, ← hfirst, ← hlast, Nat.cast_le, Nat.cast_le]

/-! ### Times that are converted to others -/

/-- 1950-01-01 00:00 in two digits. --/
def firstTwoDigitYear : Asn1Time := .utc 50 ⟨1, 1, 0, 0⟩ none .zulu

/-- The thirtieth of February 2030. --/
def thirtiethOfFebruary : Asn1Time := .utc 30 ⟨2, 30, 0, 0⟩ none .zulu

/-- 2106-02-07 06:28:16, one second after the last that fits. --/
def firstOutOf32Bits : Asn1Time := .generalized 2106 ⟨2, 7, 6, 28⟩ (some (16, [])) .zulu

theorem times_converted_wrong :
    asn1TimeToUnixConvert firstTwoDigitYear.encode firstTwoDigitYear.format = .ok 2524608000 ∧
      firstTwoDigitYear.year = 1950 ∧
    asn1TimeToUnixConvert thirtiethOfFebruary.encode thirtiethOfFebruary.format = .ok 1898640000 ∧
    ¬thirtiethOfFebruary.Possible ∧
    asn1TimeToUnixConvert firstOutOf32Bits.encode firstOutOf32Bits.format = .ok 0 ∧ firstOutOf32Bits.year = 2106 ∧
    ¬firstTwoDigitYear.Exact ∧ ¬thirtiethOfFebruary.Exact ∧ ¬firstOutOf32Bits.Exact := by
  refine ⟨by decide +kernel, rfl, by decide +kernel, ?_, by decide +kernel, rfl, fun h => ?_, fun h => ?_, fun h => ?_⟩
  · unfold Asn1Time.Possible
    decide
  · have hyear := (h _ ((firstTwoDigitYear.convert_encode _).mpr ⟨by unfold Asn1Time.InRange; decide, rfl⟩)).2
    exact absurd hyear (Asn1Time.converted_late (by unfold Asn1Time.InRange; decide) (by decide))
  · obtain ⟨-, -, -, hday⟩ := (h _ ((thirtiethOfFebruary.convert_encode _).mpr ⟨by unfold Asn1Time.InRange; decide,
      rfl⟩)).1
    exact absurd hday (by decide)
  · obtain ⟨-, -, -, hfit⟩ := Asn1Time.exact_iff.mp h (by unfold Asn1Time.InRange; decide)
    exact absurd hfit (by decide +kernel)

end Netxduo.X509
