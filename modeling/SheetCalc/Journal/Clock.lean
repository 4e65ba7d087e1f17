import SheetCalc.Decimal.Digits

/-!
# Time stamps

Events are stamped with the date and the time of day in universal time, down to the microsecond. The
date follows from the number of days since the first of January 1970: years are counted from March
on, so that a leap day is the last of its year, and repeat every 400 years.
-/

namespace SheetCalc.Journal

/-- A date. -/
structure Date where
  year : Int
  month : Nat
  day : Nat
  deriving DecidableEq, Repr, Inhabited

/-- How many days there are in 400 years. -/
def eraDays : Int := 146097

/-- From the first of March of the year zero to the first of January 1970. -/
def epochDays : Int := 719468

/-- The date a number of days after the first of January 1970. -/
def Date.ofDays (days : Int) : Date :=
  let n := days + epochDays
  let era := n.fdiv eraDays
  let inEra := (n.fmod eraDays).toNat
  let year := (inEra - inEra / 1460 + inEra / 36524 - inEra / 146096) / 365
  let inYear := inEra - (365 * year + year / 4 - year / 100)
  let month := (5 * inYear + 2) / 153
  let day := inYear - (153 * month + 2) / 5 + 1
  let january := 10 ≤ month
  { year := (year : Int) + era * 400 + (if january then 1 else 0)
    month := if january then month - 9 else month + 3
    day }

/-- A number in at least so many digits. -/
def fixedDigits (width n : Nat) : String :=
  let ds := Decimal.digits n
  String.ofList (List.replicate (width - ds.length) '0' ++ ds)

/-- The time stamp for a number of seconds since the beginning of 1970 and of microseconds after
that. -/
def timeStamp (seconds : Int) (micros : Nat) : String :=
  let date := Date.ofDays (seconds.fdiv 86400)
  let inDay := (seconds.fmod 86400).toNat
  fixedDigits 4 date.year.toNat ++ "-" ++ fixedDigits 2 date.month ++ "-" ++ fixedDigits 2 date.day
    ++ "T" ++ fixedDigits 2 (inDay / 3600) ++ ":" ++ fixedDigits 2 (inDay / 60 % 60) ++ ":"
    ++ fixedDigits 2 (inDay % 60) ++ "." ++ fixedDigits 6 micros ++ "Z"

end SheetCalc.Journal
