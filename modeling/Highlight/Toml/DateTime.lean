import Highlight.Toml.Digits

/-!
# Dates and times in TOML

A date, a time of day, or both with an optional distance from universal time, in the form of
RFC 3339. Only the extent of a date is read, but it must be a day that exists.
-/

namespace Highlight.Toml

/-- The number that exactly `count` decimal digits at the front of a text write. -/
def readFixed? (count : Nat) (chars : List Char) : Option (Nat × List Char) :=
  let digits := chars.take count
  if digits.length = count ∧ digits.all (isDigitOf 10) then
    some (numberOf 10 digits, chars.drop count)
  else
    none

/-- What follows a mark at the front of a text. -/
def skipMark? (mark : Char) : List Char → Option (List Char)
  | c :: rest => if c = mark then some rest else none
  | [] => none

/-- A year with a leap day. -/
def isLeapYear (year : Nat) : Bool :=
  year % 4 == 0 && (year % 100 != 0 || year % 400 == 0)

/-- The number of days of a month. -/
def daysInMonth (year month : Nat) : Nat :=
  if month = 2 then (if isLeapYear year then 29 else 28)
  else if month = 4 || month = 6 || month = 9 || month = 11 then 30
  else 31

/-- Read a date: year, month and day with hyphens between them. -/
def readDate? (chars : List Char) : Option (List Char) := do
  let (year, rest) ← readFixed? 4 chars
  let (month, rest) ← readFixed? 2 (← skipMark? '-' rest)
  let (day, rest) ← readFixed? 2 (← skipMark? '-' rest)
  if 1 ≤ month ∧ month ≤ 12 ∧ 1 ≤ day ∧ day ≤ daysInMonth year month then some rest else none

/-- Leave out a fraction of a second, if there is one. -/
def skipFraction : List Char → List Char
  | '.' :: c :: rest => if c.isDigit then rest.dropWhile Char.isDigit else '.' :: c :: rest
  | chars => chars

/-- Read a time of day: hour, minute and second with colons between them. A leap second is
allowed. -/
def readTime? (chars : List Char) : Option (List Char) := do
  let (hour, rest) ← readFixed? 2 chars
  let (minute, rest) ← readFixed? 2 (← skipMark? ':' rest)
  let (second, rest) ← readFixed? 2 (← skipMark? ':' rest)
  if hour ≤ 23 ∧ minute ≤ 59 ∧ second ≤ 60 then some (skipFraction rest) else none

/-- Leave out a distance from universal time, if there is one. -/
def skipOffset (chars : List Char) : List Char :=
  let hoursAndMinutes? (rest : List Char) : Option (List Char) := do
    let (hours, rest) ← readFixed? 2 rest
    let (minutes, rest) ← readFixed? 2 (← skipMark? ':' rest)
    if hours ≤ 23 ∧ minutes ≤ 59 then some rest else none
  match chars with
  | 'Z' :: rest => rest
  | 'z' :: rest => rest
  | '+' :: rest => (hoursAndMinutes? rest).getD chars
  | '-' :: rest => (hoursAndMinutes? rest).getD chars
  | _ => chars

/-- Read a date, a time of day or both and return what follows. A date and a time have the letter
T or a blank between them; a blank without a time behind it does not belong to the date. -/
def readDateTime? (chars : List Char) : Option (List Char) :=
  match readDate? chars with
  | none => readTime? chars
  | some afterDate =>
      let time :=
        match afterDate with
        | 'T' :: rest => readTime? rest
        | 't' :: rest => readTime? rest
        | ' ' :: rest => readTime? rest
        | _ => none
      some (time.elim afterDate skipOffset)

end Highlight.Toml
