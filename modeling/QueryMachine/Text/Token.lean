import QueryMachine.Text.Collation

/-!
Tokens of the language in which tables are described. A text is cut into tokens that together are the
whole text; blanks and comments are tokens, too.
-/

namespace QueryMachine

inductive TokenKind
  /-- Blanks or a comment. -/
  | space
  /-- A name or a word of the language, without quotes. -/
  | word
  /-- A name in quotes or brackets. -/
  | quoted
  | string
  | blob
  | number
  /-- A number without point and exponent. -/
  | integer
  | parameter
  | symbol
  | illegal
  deriving Repr, DecidableEq, Inhabited

structure Token where
  kind : TokenKind
  bytes : Bytes
  deriving Repr, DecidableEq, Inhabited

namespace Token

def isWordByte (c : UInt8) : Bool :=
  Decimal.isDigit c || c = 95 || c = 36 || 128 ≤ c || 97 ≤ Bytes.lowerByte c && Bytes.lowerByte c ≤ 122

def isHexDigit (c : UInt8) : Bool :=
  Decimal.isDigit c || 97 ≤ Bytes.lowerByte c && Bytes.lowerByte c ≤ 102

/-- The bytes up to the end of a comment, which a star and a slash make. -/
def commentLength : Bytes → Nat
  | 42 :: 47 :: _ => 2
  | _ :: rest => commentLength rest + 1
  | [] => 0

/-- The bytes of a quoted text behind its first quote, and whether it ends. A quote that is written
twice does not end it. -/
def quotedLength (quote : UInt8) : Bytes → Nat × Bool
  | [] => (0, false)
  | [c] => (1, c = quote)
  | c :: d :: rest =>
    if c = quote then
      if d = quote then
        let (n, ended) := quotedLength quote rest
        (n + 2, ended)
      else (1, true)
    else
      let (n, ended) := quotedLength quote (d :: rest)
      (n + 1, ended)

/-- The bytes of an exponent, if there is one. -/
def exponentLength (b : Bytes) : Nat :=
  let digits (b : Bytes) : Nat := (b.takeWhile Decimal.isDigit).length
  match b with
  | c :: d :: rest =>
    if Bytes.lowerByte c = 101 then
      if Decimal.isDigit d then 2 + digits rest
      else if (d = 43 || d = 45) && 0 < digits rest then 2 + digits rest
      else 0
    else 0
  | _ => 0

/-- The kind and the length of the number at the start of a text. -/
def numberLength (b : Bytes) : TokenKind × Nat :=
  let digits (b : Bytes) : Nat := (b.takeWhile Decimal.isDigit).length
  match b with
  | 48 :: x :: h :: rest =>
    if Bytes.lowerByte x = 120 && isHexDigit h then (.integer, 3 + (rest.takeWhile isHexDigit).length)
    else decimal digits b
  | _ => decimal digits b
where
  decimal (digits : Bytes → Nat) (b : Bytes) : TokenKind × Nat :=
    let n := digits b
    let n' := match b.drop n with
      | 46 :: rest => n + 1 + digits rest
      | _ => n
    let n'' := n' + exponentLength (b.drop n')
    let more := ((b.drop n'').takeWhile isWordByte).length
    (if 0 < more then .illegal else if n = n'' then .integer else .number, n'' + more)

/-- The bytes of a parameter behind its first sign, the count of word bytes among them, and whether a
bracket in it ends. -/
def parameterLength : Nat → Nat → Bytes → Nat × Nat × Bool
  | 0, n, _ => (0, n, true)
  | _ + 1, n, [] => (0, n, true)
  | fuel + 1, n, c :: rest =>
    if isWordByte c then
      let (k, n, ended) := parameterLength fuel (n + 1) rest
      (k + 1, n, ended)
    else if c = 40 && 0 < n then
      let inner := (rest.takeWhile fun c => !Decimal.isSpace c && c != 41).length
      let ended := (rest.drop inner).head? = some 41
      (1 + inner + if ended then 1 else 0, n, ended)
    else if c = 58 && rest.head? = some 58 then
      let (k, n, ended) := parameterLength fuel n rest.tail
      (k + 2, n, ended)
    else (0, n, true)

/-- The kind and the length of a blob in hexadecimal digits, behind its first quote. -/
def blobLength (b : Bytes) : TokenKind × Nat :=
  let digits := (b.takeWhile isHexDigit).length
  let inner := (b.takeWhile (· != 39)).length
  let stop := inner + if inner < b.length then 1 else 0
  (if digits = inner && inner < b.length && digits % 2 = 0 then .blob else .illegal, stop)

/-- The kind and the length of the token at the start of a text. -/
def measure (b : Bytes) : TokenKind × Nat :=
  match b with
  | [] => (.illegal, 0)
  | 45 :: 45 :: rest => (.space, 2 + (rest.takeWhile (· != 10)).length)
  | 47 :: 42 :: c :: rest => (.space, 2 + commentLength (c :: rest))
  | 61 :: 61 :: _ | 60 :: 61 :: _ | 60 :: 62 :: _ | 60 :: 60 :: _ | 62 :: 61 :: _ | 62 :: 62 :: _
  | 33 :: 61 :: _ | 124 :: 124 :: _ => (.symbol, 2)
  | 33 :: _ => (.illegal, 2)
  | 91 :: rest =>
    let inner := (rest.takeWhile (· != 93)).length
    if inner < rest.length then (.quoted, inner + 2) else (.illegal, b.length)
  | 63 :: rest => (.parameter, 1 + (rest.takeWhile Decimal.isDigit).length)
  | 46 :: d :: _ => if Decimal.isDigit d then numberLength b else (.symbol, 1)
  | c :: rest =>
    if c != 11 && Decimal.isSpace c then (.space, 1 + (rest.takeWhile Decimal.isSpace).length)
    else if c = 39 || c = 34 || c = 96 then
      let (n, ended) := quotedLength c rest
      (if !ended then .illegal else if c = 39 then .string else .quoted, n + 1)
    else if Decimal.isDigit c then numberLength b
    else if c = 36 || c = 64 || c = 35 || c = 58 then
      let (n, words, ended) := parameterLength rest.length 0 rest
      (if words = 0 || !ended then .illegal else .parameter, n + 1)
    else if Bytes.lowerByte c = 120 && rest.head? = some 39 then
      let (kind, n) := blobLength rest.tail
      (kind, n + 2)
    else if isWordByte c then (.word, 1 + (rest.takeWhile isWordByte).length)
    else if (Bytes.ofString "-();+*/%=<>|,&~.").contains c then (.symbol, 1)
    else (.illegal, 1)

/-- Cuts a text into at most `fuel` tokens. -/
def scan : Nat → Bytes → List Token
  | 0, _ => []
  | _ + 1, [] => []
  | fuel + 1, b =>
    let (kind, n) := measure b
    ⟨kind, b.take n⟩ :: scan fuel (b.drop n)

def all (b : Bytes) : List Token := scan b.length b

def isSpace (t : Token) : Bool := t.kind == .space

/-- Whether a token is a word of the language, given in small letters. -/
def isWord (t : Token) (word : String) : Bool :=
  t.kind == .word && t.bytes.map Bytes.lowerByte == Bytes.ofString word

def isSymbol (t : Token) (symbol : String) : Bool :=
  t.kind == .symbol && t.bytes == Bytes.ofString symbol

/-- Takes the closing quote away and makes one quote of two. -/
def unquote (quote : UInt8) : Bytes → Bytes
  | [] => []
  | [c] => if c = quote then [] else [c]
  | c :: d :: rest =>
    if c = quote then if d = quote then c :: unquote quote rest else []
    else c :: unquote quote (d :: rest)

def name (t : Token) : Bytes :=
  match t.bytes with
  | 91 :: rest => unquote 93 rest
  | c :: rest => if c = 39 || c = 34 || c = 96 then unquote c rest else c :: rest
  | [] => []

end Token

end QueryMachine
