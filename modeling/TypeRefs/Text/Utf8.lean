/-!
# UTF-8

Encoding a code point, and decoding bytes leniently: each maximal subpart of
an ill-formed sequence becomes one `U+FFFD`.
-/

namespace TypeRefs

namespace Text

/-- The UTF-8 bytes of a code point. -/
def utf8Bytes (n : Nat) : List UInt8 :=
  if n < 0x80 then [n.toUInt8]
  else if n < 0x800 then [(0xC0 + n / 64).toUInt8, (0x80 + n % 64).toUInt8]
  else if n < 0x10000 then
    [(0xE0 + n / 4096).toUInt8, (0x80 + n / 64 % 64).toUInt8, (0x80 + n % 64).toUInt8]
  else
    [(0xF0 + n / 262144).toUInt8, (0x80 + n / 4096 % 64).toUInt8,
      (0x80 + n / 64 % 64).toUInt8, (0x80 + n % 64).toUInt8]

def isCont (b : UInt8) : Bool :=
  0x80 ≤ b && b ≤ 0xBF

/-- Whether a lead byte and the byte after it can start a well-formed
sequence of three or four bytes. -/
def secondFits (lead b : UInt8) : Bool :=
  if lead == 0xE0 then 0xA0 ≤ b && b ≤ 0xBF
  else if lead == 0xED then 0x80 ≤ b && b ≤ 0x9F
  else if lead == 0xF0 then 0x90 ≤ b && b ≤ 0xBF
  else if lead == 0xF4 then 0x80 ≤ b && b ≤ 0x8F
  else isCont b

def replacement : Char := '�'

/-- The character of a code point known to be valid. -/
def charOf (n : Nat) : Char := Char.ofNat n

/-- Whether the byte at a position after the lead exists and continues a
sequence. -/
def contAt (rest : List UInt8) (i : Nat) : Bool :=
  match rest[i]? with
  | some c => isCont c
  | none => false

/-- The payload bits of the byte at a position after the lead. -/
def bitsAt (rest : List UInt8) (i : Nat) : Nat :=
  (rest.getD i 0x80).toNat - 0x80

/-- The character that starts with lead byte `b`, followed by `rest`, and the
number of bytes it takes. -/
def decodeOne (b : UInt8) (rest : List UInt8) : Char × Nat :=
  if b < 0x80 then (charOf b.toNat, 1)
  else if 0xC2 ≤ b && b ≤ 0xDF then
    if contAt rest 0 then (charOf ((b.toNat - 0xC0) * 64 + bitsAt rest 0), 2)
    else (replacement, 1)
  else if 0xE0 ≤ b && b ≤ 0xEF then
    match rest[0]? with
    | some c =>
      if !secondFits b c then (replacement, 1)
      else if !contAt rest 1 then (replacement, 2)
      else (charOf ((b.toNat - 0xE0) * 4096 + bitsAt rest 0 * 64 + bitsAt rest 1), 3)
    | none => (replacement, 1)
  else if 0xF0 ≤ b && b ≤ 0xF4 then
    match rest[0]? with
    | some c =>
      if !secondFits b c then (replacement, 1)
      else if !contAt rest 1 then (replacement, 2)
      else if !contAt rest 2 then (replacement, 3)
      else
        (charOf ((b.toNat - 0xF0) * 262144 + bitsAt rest 0 * 4096 + bitsAt rest 1 * 64 +
          bitsAt rest 2), 4)
    | none => (replacement, 1)
  else (replacement, 1)

/-- Decodes bytes after skipping `skip` of them, the rest of a sequence
already decoded; each ill-formed sequence becomes one replacement character. -/
def decodeFrom : List UInt8 → Nat → List Char
  | [], _ => []
  | _ :: rest, skip + 1 => decodeFrom rest skip
  | b :: rest, 0 =>
    let r := decodeOne b rest
    r.1 :: decodeFrom rest (r.2 - 1)

/-- Decodes bytes, each ill-formed sequence becoming one replacement character. -/
def decodeLossy (bytes : List UInt8) : List Char :=
  decodeFrom bytes 0

def lossyText (bytes : List UInt8) : String :=
  String.ofList (decodeLossy bytes)

/-- The text of bytes when they are well-formed UTF-8. -/
def strictText? (bytes : List UInt8) : Option String :=
  String.fromUTF8? (ByteArray.mk bytes.toArray)

def bytesOf (s : String) : List UInt8 :=
  s.toUTF8.toList

end Text

end TypeRefs
