import TabKey.Toml.Number

namespace TabKey.Toml.Moment

def two? : List Char → Option (Nat × List Char)
  | a :: b :: rest => if a.isDigit && b.isDigit then some (natOf 10 [a, b], rest) else none
  | _ => none

def mark? (c : Char) : List Char → Option (List Char)
  | d :: rest => if c = d then some rest else none
  | [] => none

def isLeap (year : Nat) : Bool := year % 4 = 0 && (year % 100 != 0 || year % 400 = 0)

def daysIn (year month : Nat) : Nat :=
  if month = 2 then (if isLeap year then 29 else 28)
  else if month = 4 ∨ month = 6 ∨ month = 9 ∨ month = 11 then 30
  else 31

def date? (cs : List Char) : Option (List Char) := do
  let (century, cs) ← two? cs
  let (year, cs) ← two? cs
  let (month, cs) ← two? (← mark? '-' cs)
  let (day, cs) ← two? (← mark? '-' cs)
  let isDay := 1 ≤ month ∧ month ≤ 12 ∧ 1 ≤ day ∧ day ≤ daysIn (100 * century + year) month
  if isDay then some cs else none

def fraction? : List Char → Option (List Char)
  | '.' :: rest => if (rest.head?.any Char.isDigit) then some (rest.dropWhile Char.isDigit) else none
  | cs => some cs

/-- Seconds with their fraction, if there is another colon; a leap second is fine. -/
def seconds? : List Char → Option (List Char)
  | ':' :: rest => do
    let (second, rest) ← two? rest
    if second ≤ 60 then fraction? rest else none
  | cs => some cs

def clock? (cs : List Char) : Option (List Char) := do
  let (hour, cs) ← two? cs
  let (minute, cs) ← two? (← mark? ':' cs)
  if hour ≤ 23 ∧ minute ≤ 59 then some cs else none

def time? (cs : List Char) : Option (List Char) := do seconds? (← clock? cs)

def offset? : List Char → Option (List Char)
  | 'Z' :: rest | 'z' :: rest => some rest
  | '+' :: rest | '-' :: rest => clock? rest
  | _ => none

def isTimeOfDate (cs : List Char) : Bool :=
  match time? cs with
  | some [] => true
  | some rest => offset? rest = some []
  | none => false

def isMoment (cs : List Char) : Bool :=
  match date? cs with
  | some [] => true
  | some (c :: rest) => (c = 'T' || c = 't' || c = ' ') && isTimeOfDate rest
  | none => time? cs = some []

end TabKey.Toml.Moment
