import ResourceTree.Text.Blank

/-! # Points in time

The time at which a resource was created, written and read in the notation of RFC 3339. Times are written in
UTC with as few of 0, 3, 6 or 9 decimals as are exact. Reading takes any offset, single-digit fields, and
blanks around the parts. -/

namespace ResourceTree

/-- A point in time: seconds since 1970 in UTC, and nanoseconds. A leap second counts as nanoseconds beyond
one billion in the second before it. -/
structure Timestamp where
  seconds : Int
  nanos : Nat
  deriving DecidableEq, Repr, Inhabited

namespace Timestamp

/-! ## The calendar -/

/-- Whether a year of the Gregorian calendar has a leap day. -/
def isLeapYear (year : Int) : Bool := year % 4 == 0 && (year % 100 != 0 || year % 400 == 0)

/-- The number of days of a month. -/
def daysInMonth (year : Int) (month : Nat) : Nat :=
  if month = 2 then (if isLeapYear year then 29 else 28)
  else if month ∈ [4, 6, 9, 11] then 30 else 31

/-- The days from 1970-01-01 to a date, by years that begin in March. -/
def daysFromDate (year : Int) (month day : Nat) : Int :=
  let y := if month ≤ 2 then year - 1 else year
  let era := y / 400
  let yearOfEra := y - era * 400
  let shifted : Int := if 2 < month then month - 3 else month + 9
  let dayOfYear := (153 * shifted + 2) / 5 + day - 1
  let dayOfEra := yearOfEra * 365 + yearOfEra / 4 - yearOfEra / 100 + dayOfYear
  era * 146097 + dayOfEra - 719468

/-- The date that is some days after 1970-01-01. -/
def dateFromDays (days : Int) : Int × Nat × Nat :=
  let z := days + 719468
  let era := z / 146097
  let dayOfEra := z - era * 146097
  let yearOfEra := (dayOfEra - dayOfEra / 1460 + dayOfEra / 36524 - dayOfEra / 146096) / 365
  let dayOfYear := dayOfEra - (365 * yearOfEra + yearOfEra / 4 - yearOfEra / 100)
  let shifted := (5 * dayOfYear + 2) / 153
  let day := dayOfYear - (153 * shifted + 2) / 5 + 1
  let month := if shifted < 10 then shifted + 3 else shifted - 9
  let year := yearOfEra + era * 400
  (if month ≤ 2 then year + 1 else year, month.toNat, day.toNat)

/-- The first day that is counted, that of the year -262143. -/
def firstDay : Int := daysFromDate (-262143) 1 1

/-- The last day that is counted, that of the year 262142. -/
def lastDay : Int := daysFromDate 262142 12 31

/-! ## Writing -/

/-- A number with at least `width` digits. -/
def padded (width n : Nat) : List Char :=
  let ds := (Nat.repr n).toList
  List.replicate (width - ds.length) '0' ++ ds

/-- The decimals of a second: 0, 3, 6 or 9 of them. -/
def fraction (nanos : Nat) : List Char :=
  if nanos = 0 then []
  else if nanos % 1000000 = 0 then '.' :: padded 3 (nanos / 1000000)
  else if nanos % 1000 = 0 then '.' :: padded 6 (nanos / 1000)
  else '.' :: padded 9 nanos

/-- A year: four digits, and a sign if it is not of these. -/
def yearText (year : Int) : List Char :=
  if 0 ≤ year ∧ year ≤ 9999 then padded 4 year.toNat
  else (if year < 0 then '-' else '+') :: padded 4 year.natAbs

/-- The time in the notation of RFC 3339. -/
def text (t : Timestamp) : String :=
  let (year, month, day) := dateFromDays (t.seconds / 86400)
  let ofDay := (t.seconds % 86400).toNat
  let (leap, nanos) := if t.nanos < 1000000000 then (0, t.nanos) else (1, t.nanos - 1000000000)
  String.ofList <|
    yearText year ++ '-' :: padded 2 month ++ '-' :: padded 2 day
      ++ 'T' :: padded 2 (ofDay / 3600) ++ ':' :: padded 2 (ofDay / 60 % 60)
      ++ ':' :: padded 2 (ofDay % 60 + leap) ++ fraction nanos ++ ['Z']

/-! ## Reading -/

/-- Why a text is no time. -/
inductive Fault where
  | outOfRange
  /-- The time in UTC is on no day that is counted. -/
  | impossible
  | invalid
  | tooShort
  | tooLong
  deriving DecidableEq, Repr

/-- The text of a fault. -/
def Fault.message : Fault → String
  | .outOfRange => "input is out of range"
  | .impossible => "no possible date and time matching input"
  | .invalid => "input contains invalid characters"
  | .tooShort => "premature end of input"
  | .tooLong => "trailing input"

/-- A text without the blanks at its beginning. -/
def skipBlanks (cs : List Char) : List Char := cs.dropWhile Text.isBlank

/-- A number of one up to `most` digits and the text after it. -/
def number (most : Nat) (cs : List Char) : Except Fault (Nat × List Char) :=
  let ds := (cs.take most).takeWhile Char.isDigit
  match cs, ds with
  | [], _ => .error .tooShort
  | _, [] => .error .invalid
  | cs, ds => .ok (ds.foldl (fun n c => 10 * n + (c.toNat - '0'.toNat)) 0, cs.drop ds.length)

/-- A field of a time: a number after blanks. -/
def field (most : Nat) (cs : List Char) : Except Fault (Nat × List Char) := number most (skipBlanks cs)

/-- The year: four digits, or any number of digits after a sign. -/
def year (cs : List Char) : Except Fault (Int × List Char) := do
  match skipBlanks cs with
  | '-' :: cs =>
    let (n, cs) ← number cs.length cs
    return (-(n : Int), cs)
  | '+' :: cs =>
    let (n, cs) ← number cs.length cs
    return ((n : Int), cs)
  | cs =>
    let (n, cs) ← number 4 cs
    return ((n : Int), cs)

/-- A separator after blanks. -/
def separator (c : Char) (cs : List Char) : Except Fault (List Char) :=
  match skipBlanks cs with
  | [] => .error .tooShort
  | d :: cs => if d = c then .ok cs else .error .invalid

/-- The decimals of a second, of which nine count. -/
def decimals : List Char → Except Fault (Nat × List Char)
  | '.' :: cs => do
    let (n, rest) ← number 9 cs
    let used := cs.length - rest.length
    return (n * Nat.pow 10 (9 - used), rest.dropWhile Char.isDigit)
  | cs => .ok (0, cs)

/-- The two digits of an offset field. -/
def twoDigits : List Char → Except Fault (Nat × List Char)
  | a :: b :: cs =>
    if a.isDigit ∧ b.isDigit then
      .ok (10 * (a.toNat - '0'.toNat) + (b.toNat - '0'.toNat), cs)
    else .error .invalid
  | _ => .error .tooShort

/-- The offset from UTC in seconds. -/
def offset (cs : List Char) : Except Fault (Int × List Char) := do
  match cs with
  | [] => throw .tooShort
  | c :: rest =>
    if c = 'Z' ∨ c = 'z' then return (0, rest)
    else if (c :: rest).take 3 |>.map Char.toUpper |> (· = ['U', 'T', 'C']) then return (0, rest.drop 2)
    else
      let sign : Int ←
        if c = '+' then pure 1
        else if c = '-' ∨ c = Char.ofNat 0x2212 then pure (-1)
        else throw .invalid
      let (hours, rest) ← twoDigits rest
      let rest := rest.dropWhile fun d => d == ':' || Text.isBlank d
      let (minutes, rest) ← twoDigits rest
      if 60 ≤ minutes then throw .outOfRange
      return (sign * ((hours * 3600 + minutes * 60 : Nat) : Int), rest)

/-- The time that a text writes. -/
def parse (s : String) : Except Fault Timestamp := do
  let (year, cs) ← year s.toList
  let cs ← separator '-' cs
  let (month, cs) ← field 2 cs
  if month < 1 ∨ 12 < month then throw .outOfRange
  let cs ← separator '-' cs
  let (day, cs) ← field 2 cs
  if day < 1 ∨ 31 < day then throw .outOfRange
  let cs ←
    match cs with
    | [] => throw .tooShort
    | c :: cs => if c = 'T' ∨ c = 't' ∨ c = ' ' then pure cs else throw .invalid
  let (hour, cs) ← field 2 cs
  if 23 < hour then throw .outOfRange
  let cs ← separator ':' cs
  let (minute, cs) ← field 2 cs
  if 59 < minute then throw .outOfRange
  let cs ← separator ':' cs
  let (second, cs) ← field 2 cs
  if 60 < second then throw .outOfRange
  let (nanos, cs) ← decimals cs
  let (offset, cs) ← offset (skipBlanks cs)
  if skipBlanks cs ≠ [] then throw .tooLong
  if 86400 ≤ offset.natAbs then throw .outOfRange
  if year < -262143 ∨ 262142 < year ∨ daysInMonth year month < day then throw .outOfRange
  let (second, nanos) := if second = 60 then (59, nanos + 1000000000) else (second, nanos)
  let ofDay : Nat := hour * 3600 + minute * 60 + second
  let seconds := daysFromDate year month day * 86400 + (ofDay : Int) - offset
  if seconds / 86400 < firstDay ∨ lastDay < seconds / 86400 then throw .impossible
  return ⟨seconds, nanos⟩

end Timestamp

end ResourceTree
