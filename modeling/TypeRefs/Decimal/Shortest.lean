/-!
# Shortest decimals of binary64 values

The decimal printed for a finite binary64 value has the fewest significant
digits among those that round to it, and of two such the closer one (a tie
to the even digit). All arithmetic is on naturals, comparing `d * 10^e` with
`n * 2^j` by cross-multiplying.
-/

namespace TypeRefs

namespace Decimal

/-- A finite non-negative binary64 value `m * 2^q`. -/
structure Binary where
  m : Nat
  q : Int
  -- the gap to the value below is half the gap to the value above
  narrowBelow : Bool
deriving Repr, DecidableEq

/-- The magnitude of the value a bit pattern stands for; the sign bit is
ignored, and NaN and the infinities are tested for before. -/
def Binary.ofBits (b : UInt64) : Binary :=
  let e := ((b >>> 52) &&& 0x7FF).toNat
  let f := (b &&& 0xFFFFFFFFFFFFF).toNat
  if e == 0 then ⟨f, -1074, false⟩ else ⟨Nat.pow 2 52 + f, (e : Int) - 1075, f == 0 && e > 1⟩

/-- The decimal `digits * 10^exp`. -/
structure Dec where
  digits : Nat
  exp : Int
deriving Repr, DecidableEq

/-- Compares `a * 10^i` with `n * 2^j` exactly. -/
def cmpScaled (a : Nat) (i : Int) (n : Nat) (j : Int) : Ordering :=
  compare (a * Nat.pow 10 i.toNat * Nat.pow 2 (-j).toNat) (n * Nat.pow 2 j.toNat * Nat.pow 10 (-i).toNat)

/-- Whether a decimal lies among the reals that round to the value (to
nearest, ties to even). -/
def Binary.readsBack (x : Binary) (d : Dec) : Bool :=
  let lo := if x.narrowBelow then 4 * x.m - 1 else 4 * x.m - 2
  let hi := 4 * x.m + 2
  let incl := x.m % 2 == 0
  let cl := cmpScaled d.digits d.exp lo (x.q - 2)
  let ch := cmpScaled d.digits d.exp hi (x.q - 2)
  (cl == .gt || (incl && cl == .eq)) && (ch == .lt || (incl && ch == .eq))

/-- Whether the value is below `10^k`. -/
def Binary.below (x : Binary) (k : Int) : Bool :=
  cmpScaled 1 k x.m x.q == .gt

/-- Corrects an estimate of the least `k` with the value below `10^k`, by
at most `fuel` steps. -/
def Binary.scaleFrom (x : Binary) (k : Int) : Nat → Int
  | 0 => k
  | fuel + 1 =>
    if !x.below k then x.scaleFrom (k + 1) fuel
    else if x.below (k - 1) then x.scaleFrom (k - 1) fuel
    else k

/-- The least `k` with the value below `10^k`, estimated from the binary
logarithm (`78913 / 2^18` is just below the decimal logarithm of two). -/
def Binary.scale (x : Binary) : Int :=
  let l : Int := (Nat.log2 x.m : Int) + x.q
  x.scaleFrom (l * 78913 / 262144 + 1) 8

/-- The value divided by `10^g`, rounded down. -/
def Binary.floorOnGrid (x : Binary) (g : Int) : Nat :=
  (x.m * Nat.pow 2 x.q.toNat * Nat.pow 10 (-g).toNat) / (Nat.pow 2 (-x.q).toNat * Nat.pow 10 g.toNat)

/-- Moves trailing zeros of the digits into the exponent. -/
def Dec.strip (d : Dec) : Nat → Dec
  | 0 => d
  | fuel + 1 =>
    if d.digits != 0 && d.digits % 10 == 0 then
      Dec.strip ⟨d.digits / 10, d.exp + 1⟩ fuel
    else d

/-- On the grid `10^g`, the neighbour of the value that reads back, the closer
one when both do, the even one on an exact tie. -/
def Binary.pickOnGrid (x : Binary) (g : Int) : Option Dec :=
  let a := x.floorOnGrid g
  let lo : Dec := ⟨a, g⟩
  let hi : Dec := ⟨a + 1, g⟩
  match x.readsBack lo, x.readsBack hi with
  | true, true =>
    match cmpScaled (2 * a + 1) g (2 * x.m) x.q with
    | .gt => some lo
    | .lt => some hi
    | .eq => if a % 2 == 0 then some lo else some hi
  | true, false => some lo
  | false, true => some hi
  | false, false => none

/-- The first grid, from one significant digit up to `n`, that has a
neighbour of the value reading back. -/
def Binary.search (x : Binary) (k : Int) : List Nat → Option Dec
  | [] => none
  | n :: ns =>
    match x.pickOnGrid (k - n) with
    | some d => some d
    | none => x.search k ns

/-- The exact decimal value of `m * 2^q`. -/
def Binary.exact (x : Binary) : Dec :=
  if 0 ≤ x.q then ⟨x.m * Nat.pow 2 x.q.toNat, 0⟩ else ⟨x.m * Nat.pow 5 (-x.q).toNat, x.q⟩

/-- The shortest decimal that reads back as a non-zero value, without
trailing zeros. Seventeen digits always suffice; the exact value stands
behind the search only to keep the function total. -/
def Binary.shortest (x : Binary) : Dec :=
  let d := (x.search x.scale (List.range' 1 17)).getD x.exact
  d.strip 400

/-- How a decimal is written: which exponents of the leading digit are written
positionally, and whether a non-negative exponent carries a plus sign. -/
structure Notation where
  plainFrom : Int
  plainBelow : Int
  expPlus : Bool
deriving Repr, DecidableEq

def digitText (n : Nat) : String :=
  String.ofList (Nat.toDigits 10 n)

def zeros (n : Nat) : String :=
  String.ofList (List.replicate n '0')

/-- Writes a decimal without trailing zeros: positionally with at least one
digit after the point, or as leading digit, point and rest, then the
exponent mark. -/
def Dec.layout (nt : Notation) (d : Dec) : String :=
  let s := (Nat.toDigits 10 d.digits)
  let len := s.length
  let e : Int := d.exp + len - 1
  if nt.plainFrom ≤ e && e < nt.plainBelow then
    if 0 ≤ d.exp then digitText d.digits ++ zeros d.exp.toNat ++ ".0"
    else if 0 ≤ e then
      String.ofList (s.take (e.toNat + 1)) ++ "." ++ String.ofList (s.drop (e.toNat + 1))
    else "0." ++ zeros (-e - 1).toNat ++ digitText d.digits
  else
    let mant := match s with
      | [c] => String.singleton c
      | c :: rest => String.singleton c ++ "." ++ String.ofList rest
      | [] => "0"
    let sign := if e < 0 then "-" else if nt.expPlus then "+" else ""
    mant ++ "e" ++ sign ++ digitText e.natAbs

/-- The text of a binary64 bit pattern: the sign, then the shortest decimal
laid out by the notation, `0.0` for zero, and `inf` or `NaN` for the special
values. -/
def render (nt : Notation) (bits : UInt64) : String :=
  let neg := (bits >>> 63) == 1
  let sign := if neg then "-" else ""
  let e := ((bits >>> 52) &&& 0x7FF).toNat
  let f := (bits &&& 0xFFFFFFFFFFFFF).toNat
  if e == 0x7FF then (if f == 0 then sign ++ "inf" else "NaN")
  else if e == 0 && f == 0 then sign ++ "0.0"
  else sign ++ (Binary.ofBits bits).shortest.layout nt

end Decimal

end TypeRefs
