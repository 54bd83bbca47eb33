import DeliveryPipeline.Toml.Reader
import DeliveryPipeline.Value

/-!
# TOML numbers and moments

An integer has sixty-four bits and a sign. A moment is a date, a time of day, or both with or
without an offset from universal time; it is handed on as a record with one reserved field that
holds its written form.
-/
namespace DeliveryPipeline.Toml

/-- Digits, each of which may have an underscore before it except the first. -/
def digitsFrom (isDigit : Char → Bool) : List Char → Except Fault (List Char × List Char)
  | '_' :: c :: rest =>
    if isDigit c then (digitsFrom isDigit rest).map fun r => (c :: r.1, r.2)
    else .error (.unexpected "a digit" (rest.length + 1))
  | ['_'] => .error (.unexpected "a digit" 0)
  | c :: rest =>
    if isDigit c then (digitsFrom isDigit rest).map fun r => (c :: r.1, r.2)
    else .ok ([], c :: rest)
  | [] => .ok ([], [])

def digits (isDigit : Char → Bool) : Reader (List Char) := do
  match ← ahead with
  | c :: rest =>
    if isDigit c then
      match digitsFrom isDigit rest with
      | .ok (more, final) => set final; return c :: more
      | .error e => throw e
    else expected "a digit"
  | [] => expected "a digit"

def decimalNumber (cs : List Char) : Nat :=
  cs.foldl (fun n c => 10 * n + (c.toNat - 48)) 0

/-- A sign if one comes next: whether it is a minus. -/
def sign : Reader Bool := do
  if ← skip? ['-'] then return true
  let _ ← skip? ['+']
  return false

def integerValue (n : Int) : Reader Value :=
  let bound : Int := Nat.pow 2 63
  if -bound ≤ n ∧ n < bound then return .integer n else throw (.outOfRange "an integer")

/-- Whether `m` times a power of ten is rounded to infinity as a binary number of double
precision. -/
def overflows (m : Nat) (exponent : Int) : Bool :=
  let size : Int := (Nat.toDigits 10 m).length + exponent
  let bound : Nat := Nat.pow 2 1024 - Nat.pow 2 970
  if m = 0 ∨ size < 300 then false
  else if 310 < size then true
  else if 0 ≤ exponent then bound ≤ m * Nat.pow 10 exponent.toNat
  else bound * Nat.pow 10 (-exponent).toNat ≤ m

/-- A number in base ten after its sign. Zero stands alone before a point or an exponent. -/
def decimal (negative : Bool) : Reader Value := do
  let whole ← if ← skip? ['0'] then pure ['0'] else digits Char.isDigit
  let fraction ← if ← skip? ['.'] then digits Char.isDigit else pure []
  let marked ← match ← ahead with
    | 'e' :: rest | 'E' :: rest => set rest; pure true
    | _ => pure false
  if !marked ∧ fraction.isEmpty then
    let n : Int := decimalNumber whole
    integerValue (if negative then -n else n)
  else
    let exponent ← if marked then do
        let down ← sign
        let n : Int := decimalNumber (← digits Char.isDigit)
        pure (if down then -n else n)
      else pure 0
    if !negative && overflows (decimalNumber (whole ++ fraction)) (exponent - fraction.length) then
      throw (.outOfRange "a number")
    return .decimal (String.ofList whole ++ "." ++ String.ofList fraction)

/-- A number in another base, after its mark. -/
def based (base : Nat) (isDigit : Char → Bool) : Reader Value := do
  let cs ← digits isDigit
  let value := fun c : Char => if c.isDigit then c.toNat - 48 else c.toLower.toNat - 87
  integerValue (cs.foldl (fun n c => base * n + value c) (0 : Nat) : Nat)

def number : Reader Value := do
  if ← skip? ['0', 'x'] then
    based 16 fun c => c.isDigit || ('a' ≤ c.toLower && c.toLower ≤ 'f')
  else if ← skip? ['0', 'o'] then based 8 fun c => '0' ≤ c && c ≤ '7'
  else if ← skip? ['0', 'b'] then based 2 fun c => c == '0' || c == '1'
  else
    let negative ← sign
    if ← skip? ['i', 'n', 'f'] then return .decimal "inf"
    if ← skip? ['n', 'a', 'n'] then return .decimal "nan"
    decimal negative

/-- A number of exactly `count` digits within bounds. -/
def fixedDigits (count low high : Nat) : Reader Nat := do
  let cs ← ahead
  let field := cs.take count
  unless field.length = count ∧ field.all Char.isDigit do expected "digits"
  let n := decimalNumber field
  unless low ≤ n ∧ n ≤ high do throw (.outOfRange "a date or time")
  set (cs.drop count)
  return n

/-- A number in decimal digits, filled with zeros on the left. -/
def padded (width n : Nat) : String :=
  let cs := Nat.toDigits 10 n
  String.ofList (List.replicate (width - cs.length) '0' ++ cs)

def daysOfMonth (year month : Nat) : Nat :=
  if month = 2 then
    if year % 4 = 0 ∧ (year % 100 ≠ 0 ∨ year % 400 = 0) then 29 else 28
  else if month = 4 ∨ month = 6 ∨ month = 9 ∨ month = 11 then 30
  else 31

def date : Reader String := do
  let year ← fixedDigits 4 0 9999
  take '-'
  let month ← fixedDigits 2 1 12
  take '-'
  let day ← fixedDigits 2 1 (daysOfMonth year month)
  return padded 4 year ++ "-" ++ padded 2 month ++ "-" ++ padded 2 day

/-- A time of day. Nine digits of a fraction count, and zeros at its end are not written. -/
def time : Reader String := do
  let hour ← fixedDigits 2 0 23
  take ':'
  let minute ← fixedDigits 2 0 59
  take ':'
  let second ← fixedDigits 2 0 60
  let fraction ← if ← skip? ['.'] then do
      let cs ← run Char.isDigit
      if cs.isEmpty then expected "a digit"
      pure ((cs.take 9).reverse.dropWhile (· == '0')).reverse
    else pure []
  let shown := if fraction.isEmpty then "" else "." ++ String.ofList fraction
  return padded 2 hour ++ ":" ++ padded 2 minute ++ ":" ++ padded 2 second ++ shown

/-- An offset from universal time, empty if none comes next. -/
def offset : Reader String := do
  match ← ahead with
  | 'Z' :: rest | 'z' :: rest => set rest; return "Z"
  | c :: rest =>
    if c = '+' ∨ c = '-' then
      set rest
      let hours ← fixedDigits 2 0 23
      take ':'
      let minutes ← fixedDigits 2 0 59
      let mark := if c = '-' ∧ 0 < hours + minutes then "-" else "+"
      return mark ++ padded 2 hours ++ ":" ++ padded 2 minutes
    else return ""
  | [] => return ""

/-- The reserved field of a moment. -/
def momentField : String := "$__toml_private_datetime"

def momentValue (written : String) : Value :=
  .record [(momentField, .text written)]

/-- Whether `count` digits and then `mark` come next. -/
def beginsWithDigits (count : Nat) (mark : Char) (cs : List Char) : Bool :=
  (cs.take count).length == count && (cs.take count).all Char.isDigit &&
    (cs.drop count).head? == some mark

/-- A date, with a time of day if one follows. -/
def dateAndTime : Reader Value := do
  let day ← date
  match ← ahead with
  | c :: rest =>
    if (c = 'T' ∨ c = 't' ∨ c = ' ') ∧ beginsWithDigits 2 ':' rest then
      set rest
      let hour ← time
      return momentValue (day ++ "T" ++ hour ++ (← offset))
    else return momentValue day
  | [] => return momentValue day

def numberOrMoment : Reader Value := do
  let cs ← ahead
  if beginsWithDigits 4 '-' cs then dateAndTime
  else if beginsWithDigits 2 ':' cs then return momentValue (← time)
  else number

end DeliveryPipeline.Toml
