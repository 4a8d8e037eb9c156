import TypeRefs.Decimal.Shortest

/-!
# JSON values

A number keeps the form it was read in: a natural or a negative integer that
fits 64 bits, or binary64 bits. Objects keep their fields in order, each key
once. The writer prints compactly, escaping only `\"`, `\\` and control
characters.
-/

namespace TypeRefs

/-- A JSON number in the form it was read. -/
inductive Number where
  | nat (n : Nat)
  | neg (n : Int)
  | float (bits : UInt64)
deriving DecidableEq, Repr, Inhabited

/-- A JSON value. -/
inductive Json where
  | null
  | bool (b : Bool)
  | number (n : Number)
  | string (s : String)
  | array (items : List Json)
  | object (fields : List (String × Json))
deriving Repr, Inhabited

namespace Number

/-- How a binary64 number is written: positionally when the leading digit's
exponent is from -5 to 15, otherwise with a signed exponent. -/
def floatStyle : Decimal.Notation := ⟨-5, 16, true⟩

def text : Number → String
  | nat n => Decimal.digitText n
  | neg n => "-" ++ Decimal.digitText n.natAbs
  | float bits => Decimal.render floatStyle bits

end Number

namespace Json

/-- Sets a field, replacing the value of an existing key in place. -/
def setField (fields : List (String × Json)) (k : String) (v : Json) : List (String × Json) :=
  if fields.any (fun kv => kv.1 == k) then
    fields.map (fun kv => if kv.1 == k then (k, v) else kv)
  else fields ++ [(k, v)]

/-- The value of a field of an object. -/
def field? (j : Json) (k : String) : Option Json :=
  match j with
  | object fields => (fields.find? (fun kv => kv.1 == k)).map (·.2)
  | _ => none

/-- The text of a string value. -/
def str? : Json → Option String
  | string s => some s
  | _ => none

def isObject : Json → Bool
  | object _ => true
  | _ => false

def hexDigit (n : Nat) : Char :=
  if n < 10 then Char.ofNat (48 + n) else Char.ofNat (87 + n)

/-- The escaped form of one character inside a string literal. -/
def escapeChar (c : Char) : List Char :=
  if c == '"' then ['\\', '"']
  else if c == '\\' then ['\\', '\\']
  else if c == '\n' then ['\\', 'n']
  else if c == '\r' then ['\\', 'r']
  else if c == '\t' then ['\\', 't']
  else if c == '\x08' then ['\\', 'b']
  else if c == '\x0c' then ['\\', 'f']
  else if c.toNat < 0x20 then
    ['\\', 'u', '0', '0', hexDigit (c.toNat / 16), hexDigit (c.toNat % 16)]
  else [c]

def quote (s : String) : String :=
  String.ofList ('"' :: (s.toList.flatMap escapeChar ++ ['"']))

mutual

def write : Json → String
  | null => "null"
  | bool true => "true"
  | bool false => "false"
  | number n => n.text
  | string s => quote s
  | array items => "[" ++ writeItems items ++ "]"
  | object fields => "\x7b" ++ writeFields fields ++ "\x7d"

def writeItems : List Json → String
  | [] => ""
  | [j] => write j
  | j :: js => write j ++ "," ++ writeItems js

def writeFields : List (String × Json) → String
  | [] => ""
  | [(k, v)] => quote k ++ ":" ++ write v
  | (k, v) :: kvs => quote k ++ ":" ++ write v ++ "," ++ writeFields kvs

end

mutual

/-- Applies a function to every string in a value, keys excepted. -/
def mapStrings (f : String → String) : Json → Json
  | string s => string (f s)
  | array items => array (mapItems f items)
  | object fields => object (mapFields f fields)
  | j => j

/-- Applies a function to every string in a list of values. -/
def mapItems (f : String → String) : List Json → List Json
  | [] => []
  | j :: js => mapStrings f j :: mapItems f js

/-- Applies a function to every string in the values of fields. -/
def mapFields (f : String → String) : List (String × Json) → List (String × Json)
  | [] => []
  | (k, v) :: kvs => (k, mapStrings f v) :: mapFields f kvs

end

/-- A list of strings as an array. -/
def strings (xs : List String) : Json :=
  array (xs.map string)

/-- A string or null. -/
def optString : Option String → Json
  | some s => string s
  | none => null

end Json

end TypeRefs
