import TypeRefs.Json.Value
import TypeRefs.Text.Quoted

/-!
# Reading JSON: cursor, errors and positions

The cursor walks the UTF-8 bytes and counts the containers still allowed
(128). Errors carry a line and a byte column, placed after the byte consumed
or looked at; errors of a decoder without a cursor start at line 0 and take
the cursor's place on the way back.
-/

namespace TypeRefs

namespace Json

inductive ErrorCode where
  | eofWhileParsingList
  | eofWhileParsingObject
  | eofWhileParsingString
  | eofWhileParsingValue
  | expectedColon
  | expectedListCommaOrEnd
  | expectedObjectCommaOrEnd
  | expectedSomeIdent
  | expectedSomeValue
  | invalidEscape
  | invalidNumber
  | numberOutOfRange
  | controlCharacterWhileParsingString
  | keyMustBeAString
  | loneLeadingSurrogateInHexEscape
  | trailingComma
  | trailingCharacters
  | unexpectedEndOfHexEscape
  | recursionLimitExceeded
  | message (text : String)
deriving DecidableEq, Repr, Inhabited

def ErrorCode.text : ErrorCode → String
  | .eofWhileParsingList => "EOF while parsing a list"
  | .eofWhileParsingObject => "EOF while parsing an object"
  | .eofWhileParsingString => "EOF while parsing a string"
  | .eofWhileParsingValue => "EOF while parsing a value"
  | .expectedColon => "expected `:`"
  | .expectedListCommaOrEnd => "expected `,` or `]`"
  | .expectedObjectCommaOrEnd => "expected `,` or `\x7d`"
  | .expectedSomeIdent => "expected ident"
  | .expectedSomeValue => "expected value"
  | .invalidEscape => "invalid escape"
  | .invalidNumber => "invalid number"
  | .numberOutOfRange => "number out of range"
  | .controlCharacterWhileParsingString =>
    "control character (\\u0000-\\u001F) found while parsing a string"
  | .keyMustBeAString => "key must be a string"
  | .loneLeadingSurrogateInHexEscape => "lone leading surrogate in hex escape"
  | .trailingComma => "trailing comma"
  | .trailingCharacters => "trailing characters"
  | .unexpectedEndOfHexEscape => "unexpected end of hex escape"
  | .recursionLimitExceeded => "recursion limit exceeded"
  | .message text => text

/-- A reading error; line 0 means it has no place yet. -/
structure SyntaxError where
  code : ErrorCode
  line : Nat
  column : Nat
deriving DecidableEq, Repr, Inhabited

/-- The text of an error with its place. -/
def SyntaxError.message (e : SyntaxError) : String :=
  if e.line == 0 then e.code.text
  else e.code.text ++ " at line " ++ toString e.line ++ " column " ++ toString e.column

/-- The bytes being read, the position of the next one, and how many more
arrays and objects may be opened. -/
structure Cursor where
  src : ByteArray
  pos : Nat
  depth : Nat

/-- How deep arrays and objects may nest. -/
def nestingLimit : Nat := 128

/-- A cursor at the start of a text. -/
def Cursor.start (s : String) : Cursor :=
  ⟨s.toUTF8, 0, nestingLimit⟩

/-- Reading steps: the cursor stays where it was when an error is raised. -/
abbrev Reader := ExceptT SyntaxError (StateM Cursor)

/-- Line and column of the place before byte `i`: the line counts the line
feeds before it, the column the bytes since the last of them. -/
def placeOf (src : ByteArray) (i : Nat) : Nat × Nat :=
  let before := (src.data.toList.take i)
  let lines := before.count 10
  let lineStart := before.length - ((before.reverse.takeWhile (· != 10)).length)
  (lines + 1, i - lineStart)

def placed (src : ByteArray) (i : Nat) (code : ErrorCode) : SyntaxError :=
  let (l, c) := placeOf src i
  ⟨code, l, c⟩

/-- An error about what has been consumed. -/
def errorHere (code : ErrorCode) : Reader SyntaxError := do
  let c ← get
  return placed c.src c.pos code

/-- An error about the byte looked at, placed after it. -/
def errorAhead (code : ErrorCode) : Reader SyntaxError := do
  let c ← get
  return placed c.src (min c.src.size (c.pos + 1)) code

def fail {α : Type} (code : ErrorCode) : Reader α := do
  throw (← errorHere code)

def failAhead {α : Type} (code : ErrorCode) : Reader α := do
  throw (← errorAhead code)

/-- Gives an error without a place the cursor's position. -/
def fixPlace (e : SyntaxError) : Reader SyntaxError := do
  if e.line == 0 then errorHere e.code else return e

/-- The next byte, if any, without consuming it. -/
def peek : Reader (Option UInt8) := do
  let c ← get
  return c.src[c.pos]?

/-- The next byte, or zero at the end. -/
def peekOrNull : Reader UInt8 := do
  return (← peek).getD 0

def eat : Reader Unit :=
  modify fun c => { c with pos := c.pos + 1 }

/-- Consumes and returns the next byte, if any. -/
def next : Reader (Option UInt8) := do
  let b ← peek
  if b.isSome then eat
  return b

/-- Consumes and returns the next byte, or zero at the end without consuming. -/
def nextOrNull : Reader UInt8 := do
  return (← next).getD 0

/-- The position after a run of blanks (space, line feed, tab, carriage
return) starting at `pos`. -/
def skipBlanks (src : ByteArray) (pos : Nat) : Nat :=
  go (src.data.toList.drop pos) pos
where
  go : List UInt8 → Nat → Nat
    | b :: rest, pos => if b == 32 || b == 10 || b == 9 || b == 13 then go rest (pos + 1) else pos
    | [], pos => pos

/-- Skips blanks and looks at the byte after them. -/
def whitespace : Reader (Option UInt8) := do
  modify fun c => { c with pos := skipBlanks c.src c.pos }
  peek

/-- Reads the rest of a literal word, one byte at a time. -/
def ident (rest : List UInt8) : Reader Unit := do
  for expected in rest do
    match ← next with
    | none => fail .eofWhileParsingValue
    | some b => if b != expected then fail .expectedSomeIdent

/-- Enters an array or object, refusing to nest deeper than the limit. -/
def enter : Reader Unit := do
  let c ← get
  if c.depth ≤ 1 then
    set { c with depth := 0 }
    failAhead .recursionLimitExceeded
  else set { c with depth := c.depth - 1 }

def leave : Reader Unit :=
  modify fun c => { c with depth := c.depth + 1 }

/-- Runs a step and returns its outcome, keeping the cursor where the step
left it, also on an error. -/
def attempt {α : Type} (r : Reader α) : Reader (Except SyntaxError α) :=
  tryCatch (Except.ok <$> r) (fun e => pure (Except.error e))

/-- What was found where a value of another type was expected. -/
inductive Unexpected where
  | null
  | bool (b : Bool)
  | number (n : Number)
  | string (s : String)
  | sequence
  | map
deriving Repr, Inhabited

/-- How an unexpected value is named in a message. -/
def Unexpected.text : Unexpected → String
  | .null => "null"
  | .bool b => "boolean `" ++ (if b then "true" else "false") ++ "`"
  | .number (.float bits) => "floating point `" ++ (Number.float bits).text ++ "`"
  | .number n => "integer `" ++ n.text ++ "`"
  | .string s => "string " ++ Text.quoted s
  | .sequence => "sequence"
  | .map => "map"

/-- A value of the wrong type, not yet placed. -/
def invalidType (u : Unexpected) (expected : String) : SyntaxError :=
  ⟨.message ("invalid type: " ++ u.text ++ ", expected " ++ expected), 0, 0⟩

/-- A value of the right type out of the accepted range, not yet placed. -/
def invalidValue (u : Unexpected) (expected : String) : SyntaxError :=
  ⟨.message ("invalid value: " ++ u.text ++ ", expected " ++ expected), 0, 0⟩

/-- A field given twice, not yet placed. -/
def duplicateField (name : String) : SyntaxError :=
  ⟨.message ("duplicate field `" ++ name ++ "`"), 0, 0⟩

end Json

end TypeRefs
