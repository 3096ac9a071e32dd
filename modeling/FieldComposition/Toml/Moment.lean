import FieldComposition.Number.Reading
import FieldComposition.Toml
import FieldComposition.Toml.Reader

/-!
# Dates and times

A moment is kept as it is written, but a date has to be one of the calendar.
-/

namespace FieldComposition.Toml

open Reader

/-- A number of exactly `width` digits in a range. -/
def numberIn (width low high : Nat) : Reader Nat := do
  let run ← take width
  let n := Number.digitsValue run
  unless run.length = width && run.all Char.isDigit && low ≤ n && n ≤ high do fail
  return n

def timeOfDay : Reader Unit := do
  let _ ← numberIn 2 0 23
  expect [':']
  let _ ← numberIn 2 0 59
  expect [':']
  let _ ← numberIn 2 0 59
  let _ ← attempt do
    expect ['.']
    let fraction ← takeWhile Char.isDigit
    if fraction.isEmpty then fail

def zone : Reader Unit := do
  unless ← accepts ['Z'] do
    unless ← accepts ['z'] do
      unless ← accepts ['+'] do expect ['-']
      let _ ← numberIn 2 0 23
      expect [':']
      let _ ← numberIn 2 0 59

def timeAfterDate : Reader Unit := do
  unless ← accepts ['T'] do
    unless ← accepts ['t'] do expect [' ']
  timeOfDay
  let _ ← attempt zone

/-- The number of days of a month. -/
def daysOf (year month : Nat) : Nat :=
  if month = 2 then
    if (year % 4 = 0 && year % 100 != 0) || year % 400 = 0 then 29 else 28
  else if [4, 6, 9, 11].contains month then 30 else 31

/-- A date, alone or with a time; whether it is a day of the calendar is told with it. -/
def date : Reader Bool := do
  let year ← numberIn 4 0 9999
  expect ['-']
  let month ← numberIn 2 1 12
  expect ['-']
  let day ← numberIn 2 1 31
  let _ ← attempt timeAfterDate
  return 0 < year && day ≤ daysOf year month

/-- A date or a time, or nothing; a date that is none makes the document wrong. -/
def moment? : Reader (Option Value) := do
  match ← attempt (withText date) with
  | some (valid, text) => if valid then return some (.moment text) else fail
  | none => return (← attempt (withText timeOfDay)).map fun read => .moment read.2

end FieldComposition.Toml
