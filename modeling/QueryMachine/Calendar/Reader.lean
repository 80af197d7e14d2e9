import QueryMachine.Calendar.Basic
import QueryMachine.Text.Utf8

/-!
Texts that stand for moments: a date with or without a time of day, a time of day, a number of days, or
the word for the moment at which the text is read.
-/

namespace QueryMachine.Calendar

/-- Reads exactly `n` digits of a number from `least` to `most`. -/
def number? (n least most : Nat) (b : Bytes) : Option (Nat × Bytes) :=
  let digits := b.take n
  if digits.length = n && digits.all Decimal.isDigit then
    let value := digits.foldl (fun v c => v * 10 + Decimal.digit c) 0
    if least ≤ value && value ≤ most then some (value, b.drop n) else none
  else none

/-- The bytes behind a byte that has to be there. -/
def after? (c : UInt8) : Bytes → Option Bytes
  | d :: rest => if d = c then some rest else none
  | [] => none

/-- The value if only blanks follow it. -/
def atEnd? {α : Type} (a : α) (b : Bytes) : Option α :=
  if b.all Decimal.isSpace then some a else none

/-- Reads how far the time of day is ahead, in minutes, up to the end of the text. -/
def readZone? (b : Bytes) : Option Int :=
  match b.dropWhile Decimal.isSpace with
  | [] => some 0
  | c :: rest =>
    if c = 90 || c = 122 then atEnd? 0 rest
    else if c = 43 || c = 45 then do
      let (h, rest) ← number? 2 0 14 rest
      let (m, rest) ← number? 2 0 59 (← after? 58 rest)
      atEnd? (if c = 45 then -((m + h * 60 : Nat) : Int) else ((m + h * 60 : Nat) : Int)) rest
    else none

/-- The value of digits behind a point. -/
def fraction (digits : Bytes) : Double :=
  let ten := Double.ofInt 10
  let (x, scale) := digits.foldl
    (fun (x, scale) c => (((x.mul ten).add (.ofInt c.toNat)).sub (.ofInt 48), scale.mul ten))
    (Double.zero, Double.ofInt 1)
  x.div scale

def readSecond? (b : Bytes) : Option (Double × Bytes) :=
  match b with
  | 58 :: rest => do
    let (s, rest) ← number? 2 0 59 rest
    match rest with
    | 46 :: more =>
      let digits := more.takeWhile Decimal.isDigit
      return if digits.isEmpty then (.ofInt s, rest)
        else ((Double.ofInt s).add (fraction digits), more.dropWhile Decimal.isDigit)
    | _ => return (.ofInt s, rest)
  | b => some (.zero, b)

/-- Reads a time of day and how far it is ahead. -/
def readTime? (b : Bytes) : Option (Time × Int) := do
  let (hour, b) ← number? 2 0 24 b
  let (minute, b) ← number? 2 0 59 (← after? 58 b)
  let (second, b) ← readSecond? b
  return (⟨hour, minute, second⟩, ← readZone? b)

def zoned (date : Option Date) (t : Time × Int) : Moment :=
  { date, time := some t.1, zone := if t.2 = 0 then none else some t.2 }

def readDate? (b : Bytes) : Option Moment := do
  let (negative, b) := match b with
    | 45 :: rest => (true, rest)
    | b => (false, b)
  let (y, b) ← number? 4 0 9999 b
  let (m, b) ← number? 2 1 12 (← after? 45 b)
  let (d, b) ← number? 2 1 31 (← after? 45 b)
  let date : Date := ⟨if negative then -(y : Int) else y, m, d⟩
  let b := b.dropWhile fun c => Decimal.isSpace c || c = 84
  match readTime? b with
  | some t =>
    let m := zoned (some date) t
    return if m.zone.isSome then m.settle else m
  | none => if b.isEmpty then return { date := some date } else none

end Calendar

/-- The moment that a text stands for, when it is read at `now`. -/
def Moment.ofText? (now : Int) (b : Bytes) : Option Moment :=
  match Calendar.readDate? b, Calendar.readTime? b with
  | some m, _ => some m
  | none, some t => some (Calendar.zoned none t)
  | none, none =>
    if b.map Bytes.lowerByte = Bytes.ofString "now" then some (.ofMillis now)
    else
      let x := Decimal.readReal b
      if x.whole then some (.ofDays x.value) else none

end QueryMachine
