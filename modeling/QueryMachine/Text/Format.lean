import QueryMachine.Number.Decimal
import QueryMachine.Text.Utf8

/-!
Format texts. A format is literal text with fields in it; a field starts with a percent sign and says
how an argument is written. A format is read up to its first field that is not understood.
-/

namespace QueryMachine.Format

/-- A number in a field: it stands there, or it is the next argument. -/
inductive Count
  | fixed (n : Int)
  | argument
  deriving Repr, DecidableEq, Inhabited

/-- The number that is meant; the sign of an argument does not count. -/
def Count.value (c : Count) (arg : Int) : Int :=
  match c with
  | .fixed n => n
  | .argument => if arg < 0 then wrapHalf (-arg) else arg

/-- What a field does with its argument. -/
inductive Conversion
  /-- An integer in a base up to sixteen; `mark` is written before it on demand. -/
  | integer (signed : Bool) (base : Nat) (upper : Bool) (mark : Bytes)
  | real (style : Decimal.Style) (upper : Bool)
  /-- Takes no argument and writes nothing. -/
  | nothing
  | percent
  | char
  | text
  /-- A text in which every `quote` is written twice, with or without quotes around it. -/
  | quoted (quote : UInt8) (enclosed : Bool)
  deriving Repr, DecidableEq, Inhabited

structure Marks where
  /-- Blanks go behind the text. -/
  left : Bool := false
  plus : Bool := false
  blank : Bool := false
  /-- Integers have a mark of their base, reals keep their zeros. -/
  full : Bool := false
  wide : Bool := false
  /-- Numbers are filled up with zeros. -/
  zeros : Bool := false
  deriving Repr, DecidableEq, Inhabited

structure Field where
  marks : Marks
  width : Count
  precision : Option Count
  conversion : Conversion
  deriving Repr, DecidableEq, Inhabited

inductive Piece
  | literal (b : Bytes)
  | field (f : Field)
  deriving Repr, DecidableEq, Inhabited

/-! ### Reading formats -/

def readMarks (marks : Marks) : Bytes → Marks × Bytes
  | 45 :: rest => readMarks { marks with left := true } rest
  | 43 :: rest => readMarks { marks with plus := true } rest
  | 32 :: rest => readMarks { marks with blank := true } rest
  | 35 :: rest => readMarks { marks with full := true } rest
  | 33 :: rest => readMarks { marks with wide := true } rest
  | 48 :: rest => readMarks { marks with zeros := true } rest
  | rest => (marks, rest)

/-- Reads a star or digits; no digits are zero, and too many go round. -/
def readCount : Bytes → Count × Bytes
  | 42 :: rest => (.argument, rest)
  | b =>
    (.fixed ((b.takeWhile Decimal.isDigit).foldl (fun n c => wrapHalf (n * 10 + Decimal.digit c)) 0),
      b.dropWhile Decimal.isDigit)

def readPrecision : Bytes → Option Count × Bytes
  | 46 :: rest => (some (readCount rest).1, (readCount rest).2)
  | b => (none, b)

/-- Up to two letters that speak of the size of the argument and change nothing. -/
def skipSize : Bytes → Bytes
  | 108 :: 108 :: rest => rest
  | 108 :: rest => rest
  | b => b

def conversion? (letter : UInt8) : Option Conversion :=
  match Char.ofNat letter.toNat with
  | 'd' | 'i' => some (.integer true 10 false [])
  | 'u' => some (.integer false 10 false [])
  | 'o' => some (.integer false 8 false [48])
  | 'x' => some (.integer false 16 false [48, 120])
  | 'X' => some (.integer false 16 true [48, 88])
  | 'p' => some (.integer false 16 true [48, 120])
  | 'f' => some (.real .fixed false)
  | 'e' => some (.real .exponential false)
  | 'E' => some (.real .exponential true)
  | 'g' => some (.real .general false)
  | 'G' => some (.real .general true)
  | 'n' => some .nothing
  | '%' => some .percent
  | 'c' => some .char
  | 's' | 'z' => some .text
  | 'q' => some (.quoted 39 false)
  | 'Q' => some (.quoted 39 true)
  | 'w' => some (.quoted 34 false)
  | _ => none

/-- Reads a field behind its percent sign. -/
def readField? (b : Bytes) : Option (Field × Bytes) :=
  let (marks, b) := readMarks {} b
  let (width, b) := readCount b
  let (precision, b) := readPrecision b
  match skipSize b with
  | [] => none
  | letter :: rest => (conversion? letter).map fun conversion => ({ marks, width, precision, conversion }, rest)

/-- The pieces of a format of at most `fuel` fields. -/
def piecesFrom : Nat → Bytes → List Piece
  | 0, _ => []
  | fuel + 1, b =>
    let text := b.takeWhile (· != 37)
    let before := if text.isEmpty then [] else [.literal text]
    match b.dropWhile (· != 37) with
    | [] => before
    | [_] => before ++ [.literal [37]]
    | _ :: rest =>
      match readField? rest with
      | none => before
      | some (f, rest) => before ++ .field f :: piecesFrom fuel rest

def pieces (b : Bytes) : List Piece := piecesFrom (b.length + 1) b

/-! ### Writing fields -/

/-- A text with a run of equal bytes in it. -/
structure Chunk where
  lead : Bytes := []
  fill : Nat := 0
  filler : UInt8 := 48
  rest : Bytes := []
  deriving Repr, DecidableEq, Inhabited

namespace Chunk

def size (c : Chunk) : Nat := c.lead.length + c.fill + c.rest.length

def bytes (c : Chunk) : Bytes := c.lead ++ List.replicate c.fill c.filler ++ c.rest

def run (n : Nat) (b : UInt8) : Chunk := { fill := n, filler := b }

end Chunk

inductive Draft
  /-- Nothing, not even a text without bytes. -/
  | untouched
  | text (b : Bytes)
  | tooLong
  deriving Repr, DecidableEq, Inhabited

namespace Draft

/-- Texts have to stay below this length. -/
def limit : Nat := 1000000000

def add (d : Draft) (c : Chunk) : Draft :=
  match d with
  | .untouched => if limit ≤ c.size then .tooLong else .text c.bytes
  | .text b => if limit ≤ b.length + c.size then .tooLong else .text (b ++ c.bytes)
  | .tooLong => .tooLong

def toOption : Draft → Option Bytes
  | .text b => some b
  | _ => none

end Draft

/-- Marks, width and precision of a field whose counts are known. -/
structure Layout where
  marks : Marks := {}
  width : Int := 0
  precision : Option Nat := none
  deriving Repr, DecidableEq, Inhabited

namespace Layout

/-- The layout of a field whose counts are `width` and `precision` where they are arguments. A negative
width that is an argument puts blanks behind the text, and the sign of such a precision does not
count. -/
def ofField (f : Field) (width precision : Int) : Layout :=
  { marks := { f.marks with left := f.marks.left || f.width == .argument && width < 0 }
    width := f.width.value width
    precision := f.precision.bind fun c =>
      if 0 ≤ c.value precision then some (c.value precision).toNat else none }

def sign (l : Layout) (negative : Bool) : Bytes :=
  if negative then [45] else if l.marks.plus then [43] else if l.marks.blank then [32] else []

/-- A text of more digits than this cannot be made. -/
def digitLimit : Nat := 2147483382

/-- An integer; nothing if it has too many digits. -/
def integer? (l : Layout) (signed : Bool) (base : Nat) (upper : Bool) (mark : Bytes) (n : Int) :
    Option Chunk :=
  let sign := if signed then l.sign (n < 0) else []
  let value := if signed then n.natAbs else (n % 18446744073709551616).toNat
  let digits := (Nat.toDigits base value).map fun c =>
    UInt8.ofNat (if upper then c.toUpper else c).toNat
  let asked := l.precision.getD 0
  let least := if l.marks.zeros then max asked (l.width - sign.length).toNat else asked
  if digitLimit ≤ least then none
  else
    some
      { lead := (if l.marks.full && value != 0 then mark else []) ++ sign
        fill := least - digits.length
        rest := digits }

/-- A real with six digits if the precision is not given. An infinity has no sign that is a blank, and
what is no finite number is not filled up. A precision beyond every text makes the text too long. -/
def real (l : Layout) (style : Decimal.Style) (upper : Bool) (x : Double) : Chunk :=
  let form : Decimal.RealForm :=
    { style, precision := l.precision.getD 6, wide := l.marks.wide, full := l.marks.full, upper }
  let sign := l.sign (Decimal.isNegative x)
  if x.isNaN then { rest := Decimal.magnitude form x }
  else if Draft.limit ≤ form.precision then .run form.precision 48
  else if x.isInf then { lead := sign.filter (· != 32), rest := Decimal.magnitude form x }
  else
    let digits := Decimal.magnitude form x
    let filled := l.marks.zeros && !l.marks.left
    { lead := sign
      fill := if filled then (l.width - (sign.length + digits.length)).toNat else 0
      rest := digits }

/-- The bytes of a text that the precision allows. -/
def cut (l : Layout) (b : Bytes) : Bytes :=
  match l.precision with
  | some n => b.take n
  | none => b

/-- A text in which quotes are written twice. The precision counts the bytes that are read. -/
def quoted (l : Layout) (quote : UInt8) (enclosed : Bool) (b : Option Bytes) : Bytes :=
  let double (b : Bytes) : Bytes := b.flatMap fun c => if c = quote then [c, c] else [c]
  match b with
  | none => double (l.cut (Bytes.ofString (if enclosed then "NULL" else "(NULL)")))
  | some b => if enclosed then quote :: double (l.cut b) ++ [quote] else double (l.cut b)

/-- Writes a text with blanks up to the width. -/
def place (l : Layout) (c : Chunk) (d : Draft) : Draft :=
  let blanks := Chunk.run (l.width - c.size).toNat 32
  if blanks.fill = 0 then d.add c
  else if l.marks.left then (d.add c).add blanks
  else (d.add blanks).add c

/-- Writes a byte as often as the precision says. Blanks before it come before all of the bytes. -/
def placeByte (l : Layout) (b : UInt8) (d : Draft) : Draft :=
  let more := l.precision.getD 0 - 1
  let width := l.width - more
  if more = 0 then l.place { rest := [b] } d
  else if 1 < width && !l.marks.left then
    ((d.add (.run (width - 1).toNat 32)).add (.run more b)).add { rest := [b] }
  else place { l with width } { rest := [b] } (d.add (.run more b))

end Layout

end QueryMachine.Format
