import TypeRefs.Json.Syntax
import TypeRefs.Text.Utf8

/-!
# Reading JSON numbers and strings

An integer is kept exactly when it fits 64 bits; any other number becomes
binary64, from the first 64 bits' worth of digits scaled by the nearest power
of ten. Strings take the usual escapes, a surrogate escape only as a leading
one followed by a trailing one; the skipping reader takes any `\uXXXX`.
-/

namespace TypeRefs

namespace Json

/-- Whether a byte is an ASCII digit. -/
def isDigitByte (b : UInt8) : Bool :=
  48 ≤ b && b ≤ 57

def u64Max : Nat := 18446744073709551615

/-- The largest and least integers of 32 bits, the range of exponents. -/
def i32Max : Int := 2147483647

def i32Min : Int := -2147483648

/-- An exponent sum kept inside the 32-bit range. -/
def clampExponent (x : Int) : Int :=
  max i32Min (min i32Max x)

/-- The binary64 values nearest to `10^0` through `10^308`. -/
def powersOfTen : Array Float :=
  (List.range 309).toArray.map (fun k => Float.ofScientific 1 false k)

/-- `f * 10^exp` as the reader composes it, or none when it overflows: a
power within the table multiplies or divides once; a smaller exponent first
divides by `10^308`. -/
def scaleByTen (f : Float) (exp : Int) : Nat → Option Float
  | 0 => some f
  | fuel + 1 =>
    let i := exp.natAbs
    if h : i < powersOfTen.size then
      if 0 ≤ exp then
        let g := f * powersOfTen[i]
        if g.isInf then none else some g
      else some (f / powersOfTen[i])
    else if f == 0 then some f
    else if 0 ≤ exp then none
    else scaleByTen (f / Float.ofScientific 1 false 308) (exp + 308) fuel

/-- The binary64 number `± sig * 10^exp` as read, or none when it overflows. -/
def composeFloat (positive : Bool) (sig : Nat) (exp : Int) : Option Float :=
  (scaleByTen sig.toUInt64.toFloat exp 8).map (fun f => if positive then f else -f)

/-- Scans digits into a significand while it stays within 64 bits: the
position of the first byte not taken, the significand, and whether a digit
was left because it would not fit. -/
def scanSignificand (src : ByteArray) (pos sig : Nat) : Nat × Nat × Bool :=
  go (src.data.toList.drop pos) pos sig
where
  go : List UInt8 → Nat → Nat → Nat × Nat × Bool
    | b :: rest, pos, sig =>
      if isDigitByte b then
        let d := (b - 48).toNat
        if sig * 10 + d > u64Max then (pos, sig, true)
        else go rest (pos + 1) (sig * 10 + d)
      else (pos, sig, false)
    | [], pos, sig => (pos, sig, false)

/-- The position after a run of digits. -/
def skipDigits (src : ByteArray) (pos : Nat) : Nat :=
  go (src.data.toList.drop pos) pos
where
  go : List UInt8 → Nat → Nat
    | b :: rest, pos => if isDigitByte b then go rest (pos + 1) else pos
    | [], pos => pos

/-- Scans exponent digits while the exponent stays within 32 bits: the position
after the last digit taken, the exponent, and whether a digit overflowed (it
is taken as well). -/
def scanExponent (src : ByteArray) (pos : Nat) (exp : Nat) : Nat × Nat × Bool :=
  go (src.data.toList.drop pos) pos exp
where
  go : List UInt8 → Nat → Nat → Nat × Nat × Bool
    | b :: rest, pos, exp =>
      if isDigitByte b then
        let d := (b - 48).toNat
        if (exp * 10 + d : Nat) > 2147483647 then (pos + 1, exp, true)
        else go rest (pos + 1) (exp * 10 + d)
      else (pos, exp, false)
    | [], pos, exp => (pos, exp, false)

def moveTo (pos : Nat) : Reader Unit :=
  modify fun c => { c with pos := pos }

def finishFloat (positive : Bool) (sig : Nat) (exp : Int) : Reader Number :=
  match composeFloat positive sig exp with
  | some f => pure (.float f.toBits)
  | none => fail .numberOutOfRange

/-- Reads an exponent after its mark; `startExp` is the exponent of the
digits read so far. -/
def readExponent (positive : Bool) (sig : Nat) (startExp : Int) : Reader Number := do
  eat
  let b ← peekOrNull
  let positiveExp ← if b == 43 then (do eat; pure true)
    else if b == 45 then (do eat; pure false) else pure true
  match ← next with
  | none => fail .eofWhileParsingValue
  | some d =>
    if !isDigitByte d then fail .invalidNumber
    else
      let c ← get
      let (pos, exp, overflow) := scanExponent c.src c.pos (d - 48).toNat
      moveTo pos
      if overflow then
        if sig != 0 && positiveExp then fail .numberOutOfRange
        else
          moveTo (skipDigits c.src pos)
          pure (.float (if positive then (0.0 : Float) else -0.0).toBits)
      else
        let final := clampExponent (if positiveExp then startExp + exp else startExp - exp)
        finishFloat positive sig final

/-- Reads the rest of a number once its digits no longer fit: the remaining
digits are dropped. -/
def readAfterDrop (positive : Bool) (sig : Nat) (exp : Int) : Reader Number := do
  let c ← get
  moveTo (skipDigits c.src c.pos)
  let b ← peekOrNull
  if b == 101 || b == 69 then readExponent positive sig exp else finishFloat positive sig exp

/-- Scans fraction digits into the significand while it fits 64 bits: the
position, the significand, the number of digits taken, and whether a digit
was left. -/
def scanFraction (src : ByteArray) (pos sig count : Nat) : Nat × Nat × Nat × Bool :=
  go (src.data.toList.drop pos) pos sig count
where
  go : List UInt8 → Nat → Nat → Nat → Nat × Nat × Nat × Bool
    | b :: rest, pos, sig, count =>
      if isDigitByte b then
        let d := (b - 48).toNat
        if sig * 10 + d > u64Max then (pos, sig, count, true)
        else go rest (pos + 1) (sig * 10 + d) (count + 1)
      else (pos, sig, count, false)
    | [], pos, sig, count => (pos, sig, count, false)

def readFraction (positive : Bool) (sig : Nat) (expBefore : Int) : Reader Number := do
  eat
  let c ← get
  let (pos, sig', count, overflow) := scanFraction c.src c.pos sig 0
  moveTo pos
  let exp := expBefore - count
  if overflow then readAfterDrop positive sig' exp
  else if count == 0 then
    match ← peek with
    | some _ => failAhead .invalidNumber
    | none => failAhead .eofWhileParsingValue
  else
    let b ← peekOrNull
    if b == 101 || b == 69 then readExponent positive sig' exp else finishFloat positive sig' exp

/-- Reads what follows the integer digits of a number that fit 64 bits. -/
def readTail (positive : Bool) (sig : Nat) : Reader Number := do
  let b ← peekOrNull
  if b == 46 then readFraction positive sig 0
  else if b == 101 || b == 69 then readExponent positive sig 0
  else if positive then pure (.nat sig)
  else if 1 ≤ sig && sig ≤ Nat.pow 2 63 then pure (.neg (-(sig : Int)))
  else pure (.float (-(sig.toUInt64.toFloat)).toBits)

def readNumber (positive : Bool) : Reader Number := do
  match ← next with
  | none => fail .eofWhileParsingValue
  | some b =>
    if b == 48 then
      if isDigitByte (← peekOrNull) then failAhead .invalidNumber else readTail positive 0
    else if isDigitByte b then
      let c ← get
      let (pos, sig, overflow) := scanSignificand c.src c.pos (b - 48).toNat
      moveTo pos
      if overflow then
        -- the digits that do not fit only raise the exponent
        let pos' := skipDigits c.src pos
        moveTo pos'
        let exp : Int := pos' - pos
        let b' ← peekOrNull
        if b' == 46 then readFraction positive sig exp
        else if b' == 101 || b' == 69 then readExponent positive sig exp
        else finishFloat positive sig exp
      else readTail positive sig
    else fail .invalidNumber

/-- Skips a number after its sign, checking only its syntax. -/
def skipNumber : Reader Unit := do
  let b ← nextOrNull
  let c ← get
  if b == 48 then
    if isDigitByte (← peekOrNull) then failAhead .invalidNumber
  else if isDigitByte b then moveTo (skipDigits c.src c.pos)
  else fail .invalidNumber
  let b ← peekOrNull
  if b == 46 then
    eat
    let c ← get
    let pos := skipDigits c.src c.pos
    moveTo pos
    if pos == c.pos then failAhead .invalidNumber
    if (← peekOrNull) == 101 || (← peekOrNull) == 69 then skipExponent
  else if b == 101 || b == 69 then skipExponent
where
  skipExponent : Reader Unit := do
    eat
    let b ← peekOrNull
    if b == 43 || b == 45 then eat
    let d ← nextOrNull
    if !isDigitByte d then fail .invalidNumber
    let c ← get
    moveTo (skipDigits c.src c.pos)

def hexValue (b : UInt8) : Option Nat :=
  if 48 ≤ b && b ≤ 57 then some (b - 48).toNat
  else if 97 ≤ b && b ≤ 102 then some ((b - 97).toNat + 10)
  else if 65 ≤ b && b ≤ 70 then some ((b - 65).toNat + 10)
  else none

/-- Four hex digits at a position: the code unit and the position after them,
or an error with the index where it is placed. -/
def hexUnit (src : ByteArray) (pos : Nat) : Except (ErrorCode × Nat) (Nat × Nat) :=
  if pos + 4 ≤ src.size then
    match hexValue (src.get! pos), hexValue (src.get! (pos + 1)),
        hexValue (src.get! (pos + 2)), hexValue (src.get! (pos + 3)) with
    | some a, some b, some c, some d => .ok (((a * 16 + b) * 16 + c) * 16 + d, pos + 4)
    | _, _, _, _ => .error (.invalidEscape, pos + 4)
  else .error (.eofWhileParsingString, src.size)

/-- A `\u` escape whose hex digits start at a position: its UTF-8 bytes and the
position after it. A leading surrogate must be followed by an escaped
trailing one. -/
def unicodeEscape (src : ByteArray) (pos : Nat) : Except (ErrorCode × Nat) (List UInt8 × Nat) := do
  let (n, p) ← hexUnit src pos
  if 0xDC00 ≤ n && n ≤ 0xDFFF then throw (.loneLeadingSurrogateInHexEscape, p)
  if n < 0xD800 || n > 0xDBFF then return (Text.utf8Bytes n, p)
  match src[p]? with
  | none => throw (.eofWhileParsingString, p)
  | some b =>
    if b != 92 then throw (.unexpectedEndOfHexEscape, p + 1)
    match src[p + 1]? with
    | none => throw (.eofWhileParsingString, p + 1)
    | some u =>
      if u != 117 then throw (.unexpectedEndOfHexEscape, p + 2)
      let (n2, p2) ← hexUnit src (p + 2)
      if n2 < 0xDC00 || n2 > 0xDFFF then throw (.loneLeadingSurrogateInHexEscape, p2)
      return (Text.utf8Bytes ((n - 0xD800) * 1024 + (n2 - 0xDC00) + 0x10000), p2)

/-- The escape whose letter is at a position: its bytes and the position
after it. -/
def escape (src : ByteArray) (pos : Nat) : Except (ErrorCode × Nat) (List UInt8 × Nat) :=
  match src[pos]? with
  | none => .error (.eofWhileParsingString, pos)
  | some ch =>
    if ch == 34 then .ok ([34], pos + 1)
    else if ch == 92 then .ok ([92], pos + 1)
    else if ch == 47 then .ok ([47], pos + 1)
    else if ch == 98 then .ok ([8], pos + 1)
    else if ch == 102 then .ok ([12], pos + 1)
    else if ch == 110 then .ok ([10], pos + 1)
    else if ch == 114 then .ok ([13], pos + 1)
    else if ch == 116 then .ok ([9], pos + 1)
    else if ch == 117 then unicodeEscape src (pos + 1)
    else .error (.invalidEscape, pos + 1)

/-- The bytes of a string body from a position (after the opening quote),
gathered in reverse in `acc`, and the position after the closing quote. -/
def scanString (src : ByteArray) (pos : Nat) (acc : List UInt8) :
    Nat → Except (ErrorCode × Nat) (List UInt8 × Nat)
  | 0 => .error (.eofWhileParsingString, src.size)
  | fuel + 1 =>
    match src[pos]? with
    | none => .error (.eofWhileParsingString, src.size)
    | some b =>
      if b == 34 then .ok (acc.reverse, pos + 1)
      else if b == 92 then
        match escape src (pos + 1) with
        | .ok (bytes, p) => scanString src p (bytes.reverse ++ acc) fuel
        | .error e => .error e
      else if b < 0x20 then .error (.controlCharacterWhileParsingString, pos + 1)
      else scanString src (pos + 1) (b :: acc) fuel

/-- The position after a string body, checking its syntax only. -/
def skipString (src : ByteArray) (pos : Nat) : Nat → Except (ErrorCode × Nat) Nat
  | 0 => .error (.eofWhileParsingString, src.size)
  | fuel + 1 =>
    match src[pos]? with
    | none => .error (.eofWhileParsingString, src.size)
    | some b =>
      if b == 34 then .ok (pos + 1)
      else if b == 92 then
        match src[pos + 1]? with
        | none => .error (.eofWhileParsingString, pos + 1)
        | some ch =>
          if ch == 117 then
            match hexUnit src (pos + 2) with
            | .ok (_, p) => skipString src p fuel
            | .error e => .error e
          else if ch == 34 || ch == 92 || ch == 47 || ch == 98 || ch == 102 || ch == 110 ||
              ch == 114 || ch == 116 then skipString src (pos + 2) fuel
          else .error (.invalidEscape, pos + 2)
      else if b < 0x20 then .error (.controlCharacterWhileParsingString, pos)
      else skipString src (pos + 1) fuel

/-- Runs a byte scanner from the cursor, moving the cursor to where it ended or
raising its error at the index it names. -/
def runScan {α : Type} (scan : ByteArray → Nat → Except (ErrorCode × Nat) (α × Nat)) :
    Reader α := do
  let c ← get
  match scan c.src c.pos with
  | .ok (a, p) => moveTo p; pure a
  | .error (code, p) => moveTo p; fail code

/-- Reads a string after its opening quote. -/
def readString : Reader String :=
  runScan fun src pos =>
    (scanString src pos [] (src.size + 1)).map fun (bytes, p) => (Text.lossyText bytes, p)

/-- Skips a string after its opening quote. -/
def skipStringBody : Reader Unit :=
  runScan fun src pos => (skipString src pos (src.size + 1)).map fun p => ((), p)

end Json

end TypeRefs
