import QueryMachine.Text.Token

/-!
Descriptions of tables, indexes and triggers under another name.
-/

namespace QueryMachine.Renamed

/-- A name in quotes; a missing one has a word of its own. -/
def quoted (name : Option Bytes) : Bytes :=
  let b := name.getD (Bytes.ofString "(NULL)")
  34 :: (b.flatMap fun c => if c = 34 then [34, 34] else [c]) ++ [34]

def text (tokens : List Token) : Bytes := tokens.flatMap (·.bytes)

/-- Puts `new` in the place of the token `old`, which ends `before`, if the first token behind it that
is no space is one to stop at. `stops` is told how many tokens came since the last point or `on`. -/
def replaceBefore (stops : Nat → Token → Bool) (new : Bytes) :
    Nat → Bytes → Bytes → Bytes → List Token → Option Bytes
  | _, _, _, _, [] => none
  | distance, before, old, spaces, t :: rest =>
    if t.isSpace then replaceBefore stops new distance before old (spaces ++ t.bytes) rest
    else
      let distance := if t.isSymbol "." || t.isWord "on" then 0 else distance + 1
      if stops distance t then some (before ++ new ++ spaces ++ t.bytes ++ text rest)
      else replaceBefore stops new distance (before ++ old ++ spaces) t.bytes [] rest

/-- The description of a table or an index. The name of the table stands before the first bracket or
before the word that names a module. -/
def table? (description : Bytes) (new : Option Bytes) : Option Bytes :=
  let stops (_ : Nat) (t : Token) : Bool := t.isSymbol "(" || t.isWord "using"
  replaceBefore stops (quoted new) 3 [] [] [] (Token.all description)

/-- The description of a trigger. The name of the table stands behind a point or `on` and before a
word that goes on with the trigger. -/
def trigger? (description : Bytes) (new : Option Bytes) : Option Bytes :=
  let stops (distance : Nat) (t : Token) : Bool :=
    distance = 2 && (t.isWord "when" || t.isWord "for" || t.isWord "begin")
  replaceBefore stops (quoted new) 3 [] [] [] (Token.all description)

/-- Tokens in which the tables that are referred to by the name `old` get another name. With `expects`
the next token that is no space is such a name. -/
def parents (old new : Bytes) : Bool → List Token → Bytes
  | _, [] => []
  | expects, t :: rest =>
    if t.isSpace then t.bytes ++ parents old new expects rest
    else if expects then
      (if t.name.map Bytes.lowerByte == old.map Bytes.lowerByte then new else t.bytes) ++
        parents old new false rest
    else t.bytes ++ parents old new (t.isWord "references") rest

/-- The description of a table in which the references to a table get another name. -/
def parent (description old : Bytes) (new : Option Bytes) : Bytes :=
  parents old (quoted new) false (Token.all description)

end QueryMachine.Renamed
