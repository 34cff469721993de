import ClasspathAdvice.Document.Json

/-!
# Dates and times of TOML

A moment is a date, a time of day, or both with an offset from universal time. Where a
plain value is wanted it is a table with a single text, which has a `T` before the time,
no zeros at the end of a fraction of a second, and nine digits of it at most.
-/

namespace ClasspathAdvice.Toml
set_option autoImplicit false

/-- The number that some digits at the start of a text write, and the text behind them. -/
def fixedDigits (count : Nat) (s : List Char) : Option (Nat × List Char) :=
  let digits := s.take count
  if digits.length = count && digits.all Char.isDigit then some (Json.decimal digits, s.drop count)
  else none

/-- Whether a year has a day more than others. -/
def isLeapYear (year : Nat) : Bool := year % 4 = 0 && (year % 100 ≠ 0 || year % 400 = 0)

/-- How many days a month has. -/
def daysOfMonth (year month : Nat) : Nat :=
  if month = 2 then (if isLeapYear year then 29 else 28)
  else if [4, 6, 9, 11].contains month then 30 else 31

/-- Reads a date. -/
def date (s : List Char) : Option (String × List Char) := do
  let (year, rest) ← fixedDigits 4 s
  match rest with
  | '-' :: rest =>
    let (month, rest) ← fixedDigits 2 rest
    match rest with
    | '-' :: rest =>
      let (day, rest) ← fixedDigits 2 rest
      if 1 ≤ month && month ≤ 12 && 1 ≤ day && day ≤ daysOfMonth year month then
        some (String.ofList (s.take 10), rest)
      else none
    | _ => none
  | _ => none

/-- Reads the hours and minutes of a day. -/
def minuteOfDay (s : List Char) : Option (List Char) := do
  let (hour, rest) ← fixedDigits 2 s
  match rest with
  | ':' :: rest =>
    let (minute, rest) ← fixedDigits 2 rest
    if hour ≤ 23 && minute ≤ 59 then some rest else none
  | _ => none

/-- A text without the zeros at its end. -/
def dropZerosAtEnd (s : List Char) : List Char := (s.reverse.dropWhile (· = '0')).reverse

/-- Reads a time of day. -/
def time (s : List Char) : Option (String × List Char) := do
  match ← minuteOfDay s with
  | ':' :: rest =>
    let (second, rest) ← fixedDigits 2 rest
    if second ≤ 60 then
      match rest with
      | '.' :: rest =>
        let places := rest.takeWhile Char.isDigit
        if places.isEmpty then none
        else
          let shown := dropZerosAtEnd (places.take 9)
          let shown := if shown.isEmpty then [] else '.' :: shown
          some (String.ofList (s.take 8 ++ shown), rest.drop places.length)
      | _ => some (String.ofList (s.take 8), rest)
    else none
  | _ => none

/-- Reads an offset from universal time, which may be left out. -/
def offset (s : List Char) : Option (String × List Char) :=
  match s with
  | 'Z' :: rest | 'z' :: rest => some ("Z", rest)
  | '+' :: rest => (minuteOfDay rest).map (String.ofList (s.take 6), ·)
  | '-' :: rest => (minuteOfDay rest).map fun rest' =>
    let shown := s.take 6
    (if shown = "-00:00".toList then "+00:00" else String.ofList shown, rest')
  | _ => some ("", s)

/-- Reads a moment. A time behind a date may be set off by a blank. -/
def moment (s : List Char) : Option (String × List Char) :=
  match date s with
  | some (day, rest) =>
    let timed : Option (String × List Char) := do
      match rest with
      | c :: rest =>
        if ['T', 't', ' '].contains c then
          let (clock, rest) ← time rest
          let (zone, rest) ← offset rest
          return (day ++ "T" ++ clock ++ zone, rest)
        else none
      | [] => none
    some (timed.getD (day, rest))
  | none => time s

/-- The document of a moment. -/
def momentDocument (text : String) : Document :=
  .object [("$__toml_private_datetime", .text text)]

end ClasspathAdvice.Toml
