import TypeRefs.Json.Scalar

/-!
# Reading JSON values

A reader with one step per byte it looks at; after a failure inside a
container it still looks for the closing bracket, so the cursor ends where
the reader stopped. The skipping reader checks syntax only, with no nesting
limit. A document is one value followed by blanks.
-/

namespace TypeRefs

namespace Json

/-- Whether a value may start with this byte as a number. -/
def startsNumber (b : UInt8) : Bool :=
  isDigitByte b

/-- Reads a literal word after its first letter. -/
def literal (rest : String) : Reader Unit := do
  eat
  ident rest.toUTF8.data.toList

/-- Expects the closing bracket of an array. -/
def endArray : Reader Unit := do
  match ← whitespace with
  | some 93 => eat
  | some 44 =>
    eat
    match ← whitespace with
    | some 93 => failAhead .trailingComma
    | _ => failAhead .trailingCharacters
  | some _ => failAhead .trailingCharacters
  | none => failAhead .eofWhileParsingList

/-- Expects the closing brace of an object. -/
def endObject : Reader Unit := do
  match ← whitespace with
  | some 125 => eat
  | some 44 => failAhead .trailingComma
  | some _ => failAhead .trailingCharacters
  | none => failAhead .eofWhileParsingObject

/-- Looks for the next element of an array: none at the closing bracket,
otherwise the first byte of the element, after the comma that separates it
from the one before. -/
def nextElement (first : Bool) : Reader (Option UInt8) := do
  let peeked ← match ← whitespace with
    | some 93 => return none
    | some 44 => if first then pure (some 44) else (do eat; whitespace)
    | some b => if first then pure (some b) else failAhead .expectedListCommaOrEnd
    | none => failAhead .eofWhileParsingList
  match peeked with
  | some 93 => failAhead .trailingComma
  | some b => pure (some b)
  | none => failAhead .eofWhileParsingValue

/-- Looks for the next key of an object and reads it: none at the closing
brace. -/
def nextKey (first : Bool) : Reader (Option String) := do
  let peeked ← match ← whitespace with
    | some 125 => return none
    | some 44 => if first then pure (some 44) else (do eat; whitespace)
    | some b => if first then pure (some b) else failAhead .expectedObjectCommaOrEnd
    | none => failAhead .eofWhileParsingObject
  match peeked with
  | some 34 => eat; some <$> readString
  | some 125 => failAhead .trailingComma
  | some _ => failAhead .keyMustBeAString
  | none => failAhead .eofWhileParsingValue

def colon : Reader Unit := do
  match ← whitespace with
  | some 58 => eat
  | some _ => failAhead .expectedColon
  | none => failAhead .eofWhileParsingObject

/-- Runs the contents of a container, then looks for its end even when the
contents failed; the first error wins. -/
def container {α : Type} (contents : Reader α) (close : Reader Unit) : Reader α := do
  enter
  eat
  let r ← attempt contents
  leave
  let e ← attempt close
  match r, e with
  | .ok a, .ok () => pure a
  | .error err, _ => throw err
  | .ok _, .error err => throw err

/-- The fuel a text of `n` bytes needs: every step reads at least one byte. -/
def fuelFor (n : Nat) : Nat := 4 * n + 16

mutual

def readValue : Nat → Reader Json
  | 0 => fail .recursionLimitExceeded
  | fuel + 1 => do
    match ← whitespace with
    | none => failAhead .eofWhileParsingValue
    | some b =>
      let r ← attempt (valueFrom b fuel)
      match r with
      | .ok v => pure v
      | .error e => throw (← fixPlace e)

/-- Reads a value that starts with byte `b`. -/
def valueFrom (b : UInt8) : Nat → Reader Json
  | 0 => fail .recursionLimitExceeded
  | fuel + 1 =>
    if b == 110 then do literal "ull"; pure .null
    else if b == 116 then do literal "rue"; pure (.bool true)
    else if b == 102 then do literal "alse"; pure (.bool false)
    else if b == 45 then do eat; pure (.number (← readNumber false))
    else if startsNumber b then do pure (.number (← readNumber true))
    else if b == 34 then do eat; pure (.string (← readString))
    else if b == 91 then do pure (.array (← container (readItems true [] fuel) endArray))
    else if b == 123 then do pure (.object (← container (readFields true [] fuel) endObject))
    else failAhead .expectedSomeValue

def readItems (first : Bool) (acc : List Json) : Nat → Reader (List Json)
  | 0 => fail .recursionLimitExceeded
  | fuel + 1 => do
    match ← nextElement first with
    | none => pure acc.reverse
    | some _ =>
      let v ← readValue fuel
      readItems false (v :: acc) fuel

/-- Reads the fields of an object; a repeated key keeps its place and takes
the later value. -/
def readFields (first : Bool) (acc : List (String × Json)) : Nat → Reader (List (String × Json))
  | 0 => fail .recursionLimitExceeded
  | fuel + 1 => do
    match ← nextKey first with
    | none => pure acc
    | some k =>
      colon
      let v ← readValue fuel
      readFields false (Json.setField acc k v) fuel

end

mutual

/-- Skips one value, checking its syntax. `enclosing` is the container the
value belongs to and `stack` holds the containers around it, innermost
first. -/
def skipValue (stack : List UInt8) (enclosing : Option UInt8) : Nat → Reader Unit
  | 0 => fail .recursionLimitExceeded
  | fuel + 1 => do
    let b ← match ← whitespace with
      | some b => pure b
      | none => failAhead .eofWhileParsingValue
    let opened ←
      if b == 110 then do literal "ull"; pure none
      else if b == 116 then do literal "rue"; pure none
      else if b == 102 then do literal "alse"; pure none
      else if b == 45 then do eat; skipNumber; pure none
      else if isDigitByte b then do skipNumber; pure none
      else if b == 34 then do eat; skipStringBody; pure none
      else if b == 91 || b == 123 then do eat; pure (some b)
      else failAhead .expectedSomeValue
    match opened, enclosing, stack with
    | some f, _, _ => afterValue f false (enclosing.toList ++ stack) fuel
    | none, some f, _ => afterValue f true stack fuel
    | none, none, f :: s => afterValue f true s fuel
    | none, none, [] => pure ()

/-- After a value inside `frame`, or right after opening it: a comma leads to
the next element, a matching bracket closes the frame and returns to the one
around it. -/
def afterValue (frame : UInt8) (acceptComma : Bool) (stack : List UInt8) : Nat → Reader Unit
  | 0 => fail .recursionLimitExceeded
  | fuel + 1 => do
    let closes (b : UInt8) : Bool := (b == 93 && frame == 91) || (b == 125 && frame == 123)
    match ← whitespace with
    | some b =>
      if b == 44 && acceptComma then
        eat
        nextElementOf frame stack fuel
      else if closes b then
        eat
        match stack with
        | [] => pure ()
        | f :: s => afterValue f true s fuel
      else if acceptComma then
        failAhead (if frame == 91 then .expectedListCommaOrEnd else .expectedObjectCommaOrEnd)
      else nextElementOf frame stack fuel
    | none => failAhead (if frame == 91 then .eofWhileParsingList else .eofWhileParsingObject)

/-- Reads the key and colon of the next field when `frame` is an object, then
skips the next value. -/
def nextElementOf (frame : UInt8) (stack : List UInt8) : Nat → Reader Unit
  | 0 => fail .recursionLimitExceeded
  | fuel + 1 => do
    if frame == 123 then
      match ← whitespace with
      | some 34 => eat
      | some _ => failAhead .keyMustBeAString
      | none => failAhead .eofWhileParsingObject
      skipStringBody
      match ← whitespace with
      | some 58 => eat
      | some _ => failAhead .expectedColon
      | none => failAhead .eofWhileParsingObject
    skipValue stack (some frame) fuel

end

/-- Expects nothing but blanks after the document. -/
def expectEnd : Reader Unit := do
  match ← whitespace with
  | some _ => failAhead .trailingCharacters
  | none => pure ()

/-- Runs a reader over a whole text. -/
def runReader {α : Type} (r : Reader α) (s : String) : Except SyntaxError α :=
  (r.run.run (Cursor.start s)).1

def parse (s : String) : Except SyntaxError Json :=
  runReader (do let v ← readValue (fuelFor s.utf8ByteSize); expectEnd; pure v) s

end Json

end TypeRefs
