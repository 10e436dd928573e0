/-! Points in time, in seconds and as dates of the Gregorian calendar. -/
namespace VpnAuthority

structure Instant where
  seconds : Int
  deriving DecidableEq, Repr

def secondsPerDay : Int := 86400

def Instant.addDays (t : Instant) (days : Nat) : Instant := ⟨t.seconds + days * secondsPerDay⟩

structure DateTime where
  year : Int
  month : Int
  day : Int
  hour : Int
  minute : Int
  second : Int
  deriving DecidableEq, Repr

/-- Days from the first of March of the year zero to the beginning of 1970. Years
that begin in March have their leap day at the end. -/
def epochDays : Int := 719468

def marchDays (year month day : Int) : Int :=
  let year := if month ≤ 2 then year - 1 else year
  let month := if month ≤ 2 then month + 9 else month - 3
  365 * year + year / 4 - year / 100 + year / 400 + (153 * month + 2) / 5 + day - 1

def DateTime.toInstant (date : DateTime) : Instant :=
  ⟨(marchDays date.year date.month date.day - epochDays) * secondsPerDay
    + date.hour * 3600 + date.minute * 60 + date.second⟩

/-- The date of a day, found by cutting the days into four centuries, a century, four
years and a year, of which the last of each kind may be a day longer. -/
def dateOfMarchDays (days : Int) : Int × Int × Int :=
  let fourCenturies := days / 146097
  let days := days % 146097
  let century := min (days / 36524) 3
  let days := days - century * 36524
  let fourYears := days / 1461
  let days := days % 1461
  let single := min (days / 365) 3
  let days := days - single * 365
  let year := 400 * fourCenturies + 100 * century + 4 * fourYears + single
  let month := (5 * days + 2) / 153
  let day := days - (153 * month + 2) / 5 + 1
  if month < 10 then (year, month + 3, day) else (year + 1, month - 9, day)

def Instant.toDateTime (t : Instant) : DateTime :=
  let (year, month, day) := dateOfMarchDays (t.seconds / secondsPerDay + epochDays)
  let rest := t.seconds % secondsPerDay
  ⟨year, month, day, rest / 3600, rest % 3600 / 60, rest % 60⟩

def isLeapYear (year : Int) : Bool := year % 4 == 0 && (year % 100 != 0 || year % 400 == 0)

def lastDayOfMonth (year month : Int) : Int :=
  if month = 2 then if isLeapYear year then 29 else 28
  else if month = 4 ∨ month = 6 ∨ month = 9 ∨ month = 11 then 30
  else 31

def DateTime.isValid (date : DateTime) : Bool :=
  1 ≤ date.month && date.month ≤ 12 && 1 ≤ date.day
    && date.day ≤ lastDayOfMonth date.year date.month
    && 0 ≤ date.hour && date.hour ≤ 23 && 0 ≤ date.minute && date.minute ≤ 59
    && 0 ≤ date.second && date.second ≤ 59

end VpnAuthority
