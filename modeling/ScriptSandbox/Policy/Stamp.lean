/-!
# Time stamps

A moment, counted in seconds from the start of 1970 in universal time, as a
calendar date and a time of day.  Days are counted from the first of March of
year 0, so that a leap day is the last day of its year.
-/

namespace ScriptSandbox

/-- Days from the first of March of year 0 to the first of January 1970. -/
def epochDay : Nat := 719468

def daysPerEra : Nat := 146097

/-- Year, month and day; every 400 years the calendar repeats. -/
def calendarDate (daysSinceEpoch : Nat) : Nat × Nat × Nat :=
  let day := daysSinceEpoch + epochDay
  let era := day / daysPerEra
  let dayOfEra := day % daysPerEra
  let yearOfEra :=
    (dayOfEra - dayOfEra / 1460 + dayOfEra / 36524 - dayOfEra / 146096) / 365
  let dayOfYear := dayOfEra - (365 * yearOfEra + yearOfEra / 4 - yearOfEra / 100)
  let monthFromMarch := (5 * dayOfYear + 2) / 153
  let dayOfMonth := dayOfYear - (153 * monthFromMarch + 2) / 5 + 1
  let month := if monthFromMarch < 10 then monthFromMarch + 3 else monthFromMarch - 9
  let year := yearOfEra + era * 400 + (if month ≤ 2 then 1 else 0)
  (year, month, dayOfMonth)

def padded (width n : Nat) : String :=
  let digits := n.repr.toList
  String.ofList (List.replicate (width - digits.length) '0' ++ digits)

def stampOfSeconds (seconds : Nat) : String :=
  let (year, month, day) := calendarDate (seconds / 86400)
  let time := seconds % 86400
  padded 4 year ++ "-" ++ padded 2 month ++ "-" ++ padded 2 day ++ "T" ++
    padded 2 (time / 3600) ++ ":" ++ padded 2 (time / 60 % 60) ++ ":" ++
    padded 2 (time % 60) ++ "Z"

end ScriptSandbox
