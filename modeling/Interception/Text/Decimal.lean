/-! Decimal numbers as text. A text is read as the nearest binary number of 64 bits, and such a number is
written with the fewest digits that read back as the same number, always positionally. -/

namespace Interception.Decimal

structure Binary where
  m : Nat
  q : Int
  /-- The gap to the number below is half the gap to the number above. -/
  narrowBelow : Bool

/-- The number that the bits of a finite value stand for, without its sign. -/
def Binary.ofBits (b : UInt64) : Binary :=
  let e := ((b >>> 52) &&& 0x7FF).toNat
  let f := (b &&& 0xFFFFFFFFFFFFF).toNat
  if e = 0 then ⟨f, -1074, false⟩ else ⟨Nat.pow 2 52 + f, (e : Int) - 1075, f = 0 && e > 1⟩

/-- Compares `a * 10 ^ i` with `n * 2 ^ j`. -/
def compareScaled (a : Nat) (i : Int) (n : Nat) (j : Int) : Ordering :=
  compare (a * Nat.pow 10 i.toNat * Nat.pow 2 (-j).toNat) (n * Nat.pow 2 j.toNat * Nat.pow 10 (-i).toNat)

/-- Whether `digits * 10 ^ exponent` lies among the real numbers that round to the binary number: between
the midpoints to its neighbours, which belong to it when its last bit is even. -/
def Binary.readsBack (x : Binary) (digits : Nat) (exponent : Int) : Bool :=
  let low := if x.narrowBelow then 4 * x.m - 1 else 4 * x.m - 2
  let inclusive := x.m % 2 = 0
  let toLow := compareScaled digits exponent low (x.q - 2)
  let toHigh := compareScaled digits exponent (4 * x.m + 2) (x.q - 2)
  (toLow = .gt || (inclusive && toLow = .eq)) && (toHigh = .lt || (inclusive && toHigh = .eq))

/-- How often ten goes into the number: the least `k` below the bound with `m * 2 ^ q < 10 ^ k`, from the
given `k` on. -/
def Binary.scale (x : Binary) : Nat → Int → Int
  | 0, k => k
  | fuel + 1, k => if compareScaled 1 k x.m x.q = .gt then k else x.scale fuel (k + 1)

/-- The largest number of units `10 ^ exponent` that is not greater than the binary number. -/
def Binary.floorAt (x : Binary) (exponent : Int) : Nat :=
  x.m * Nat.pow 2 x.q.toNat * Nat.pow 10 (-exponent).toNat /
    (Nat.pow 10 exponent.toNat * Nat.pow 2 (-x.q).toNat)

/-- The neighbour of the binary number on the grid `10 ^ exponent` that reads back: of two the nearer,
and the greater if they are equally near. -/
def Binary.onGrid? (x : Binary) (exponent : Int) : Option Nat :=
  let below := x.floorAt exponent
  match x.readsBack below exponent, x.readsBack (below + 1) exponent with
  | true, true =>
    if compareScaled (2 * below + 1) exponent (2 * x.m) x.q = .gt then some below else some (below + 1)
  | true, false => some below
  | false, true => some (below + 1)
  | false, false => none

/-- Moves zeros at the end of the digits into the exponent, at most as many as the bound. -/
def stripZeros : Nat → Nat → Int → Nat × Int
  | 0, digits, exponent => (digits, exponent)
  | bound + 1, digits, exponent =>
    if digits % 10 = 0 then stripZeros bound (digits / 10) (exponent + 1) else (digits, exponent)

/-- The digits and the exponent with the fewest digits, at most seventeen, that read back. -/
def Binary.shortest (x : Binary) : Nat × Int :=
  let scale := x.scale 700 (-330)
  let found := (List.range 17).findSome? fun (n : Nat) =>
    let exponent : Int := scale - (n + 1 : Nat)
    (x.onGrid? exponent).map (·, exponent)
  match found with
  | some (digits, exponent) => stripZeros 17 digits exponent
  | none => (x.m * Nat.pow 2 x.q.toNat * Nat.pow 5 (-x.q).toNat, min x.q 0)

/-- Digits and exponent without exponent: zeros are added behind the digits, or a point is put among or
in front of them. -/
def positional (digits : Nat) (exponent : Int) : String :=
  let text := Nat.toDigits 10 digits
  if exponent ≥ 0 then String.ofList (text ++ List.replicate exponent.toNat '0')
  else
    let places := (-exponent).toNat
    let padded := List.replicate (places + 1 - text.length) '0' ++ text
    let whole := padded.length - places
    String.ofList (padded.take whole ++ '.' :: padded.drop whole)

def write (x : Float) : String :=
  let bits := x.toBits
  let sign := if bits >>> 63 = 1 then "-" else ""
  if x.isNaN then "NaN"
  else if x.isInf then sign ++ "inf"
  else if x == 0.0 then sign ++ "0"
  else
    let (digits, exponent) := (Binary.ofBits bits).shortest
    sign ++ positional digits exponent

/-- A number that is recognised as a fraction: whole numbers are given a zero behind a point. -/
def writeWithPoint (x : Float) : String :=
  let text := write x
  if x.isFinite && !text.contains '.' then text ++ ".0" else text

def digitValue (c : Char) : Nat :=
  if c.isDigit then c.toNat - '0'.toNat
  else if 'a' ≤ c ∧ c ≤ 'z' then c.toNat - 'a'.toNat + 10
  else if 'A' ≤ c ∧ c ≤ 'Z' then c.toNat - 'A'.toNat + 10
  else 36

/-- The natural number that digits to a base denote; there must be at least one. -/
def readNat? (base : Nat) (digits : List Char) : Option Nat :=
  if digits.isEmpty || !digits.all (digitValue · < base) then none
  else some (digits.foldl (fun n c => base * n + digitValue c) 0)

/-- Splits off a sign. The sign is negative if the first part of the result holds. -/
def splitSign : List Char → Bool × List Char
  | '-' :: rest => (true, rest)
  | '+' :: rest => (false, rest)
  | text => (false, text)

def readInteger? (base : Nat) (text : List Char) : Option Int := do
  let (negative, digits) := splitSign text
  let n ← readNat? base digits
  let value : Int := if negative then -n else n
  if -0x8000000000000000 ≤ value ∧ value < 0x8000000000000000 then some value else none

/-- The number `m * 10 ^ e`, rounded. Exponents that are out of every range are cut down first. -/
def scaled (m : Nat) (e : Int) : Float :=
  if m = 0 then 0.0
  else
    let magnitude : Int := e + (Nat.toDigits 10 m).length
    if magnitude > 400 then 1.0 / 0.0
    else if magnitude < -400 then 0.0
    else Float.ofScientific m (e < 0) e.natAbs

/-- A number without its sign: digits with a point somewhere, then perhaps an exponent. -/
def readMagnitude? (text : List Char) : Option Float := do
  let isMark (c : Char) : Bool := c = 'e' || c = 'E'
  let mantissa := text.takeWhile (!isMark ·)
  let exponent ← match text.dropWhile (!isMark ·) with
    | [] => some 0
    | _ :: rest =>
      let (negative, digits) := splitSign rest
      (readNat? 10 digits).map fun n => if negative then -(n : Int) else n
  let whole := mantissa.takeWhile (· ≠ '.')
  let fraction := (mantissa.dropWhile (· ≠ '.')).drop 1
  let m ← readNat? 10 (whole ++ fraction)
  some (scaled m (exponent - fraction.length))

/-- A number, with an optional sign; infinity and the number that is none have names. -/
def read? (text : List Char) : Option Float := do
  let (negative, rest) := splitSign text
  let magnitude ← match String.ofList (rest.map Char.toLower) with
    | "inf" | "infinity" => some (1.0 / 0.0)
    | "nan" => some (0.0 / 0.0)
    | _ => readMagnitude? rest
  some (if negative then -magnitude else magnitude)

end Interception.Decimal
