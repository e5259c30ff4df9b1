/-!
Numbers of the IEEE 754 format with 64 bits: how a decimal literal is read into one, and the
shortest decimal text that reads back as it.
-/

namespace Pipework.Json

/-! ## Reading -/

/-- The power of ten nearest to `10 ^ exponent`. -/
private def tenToThe (exponent : Nat) : Float :=
  Float.ofScientific 1 false exponent

/-- Scales a significand by a negative power of ten. A power beyond the largest finite one is
divided away in steps of `10 ^ 308`; three steps turn every significand below `2 ^ 64` into
zero. -/
private def scaleDown : Nat → Float → Nat → Float
  | 0, _, _ => 0
  | steps + 1, significand, exponent =>
      if exponent ≤ 308 then significand / tenToThe exponent
      else scaleDown steps (significand / tenToThe 308) (exponent - 308)

/-- The number `significand * 10 ^ exponent`, rounded once as a significand and once more by
the scaling; nothing when it is too large. -/
def binaryOfScaled (negative : Bool) (significand : Nat) (exponent : Int) : Option UInt64 :=
  let start := Float.ofNat significand
  let magnitude : Option Float :=
    if exponent < 0 then some (scaleDown 4 start exponent.natAbs)
    else if exponent ≤ 308 then
      let scaled := start * tenToThe exponent.toNat
      if scaled.isInf then none else some scaled
    else if significand = 0 then some 0
    else none
  magnitude.map fun value => (if negative then -value else value).toBits

/-! ## Writing -/

/-- How many fractions there are: a significand has 52 bits behind its first one. -/
private def fractionSize : Nat := 0x10000000000000

/-- The bits of a number without its sign. -/
private def magnitude (bits : UInt64) : Nat := bits.toNat % (UInt64.size / 2)

/-- A power of ten; one when the exponent is negative. -/
private def powerOfTen (exponent : Int) : Nat := Nat.pow 10 exponent.toNat

/-- The exact value and rounding range of a finite number: it is `value / scale`, and what
lies between `low / scale` and `high / scale` is read as it. The ends belong to the range when
the significand is even. -/
private structure RoundingRange where
  value : Nat
  low : Nat
  high : Nat
  scale : Nat
  closed : Bool

/-- The exact value and rounding range of the number with some bits. -/
private def roundingRange (bits : UInt64) : RoundingRange :=
  let field := magnitude bits / fractionSize
  let fraction := magnitude bits % fractionSize
  let significand := if field = 0 then fraction else fraction + fractionSize
  let exponent : Int := (if field = 0 then 1 else field : Nat) - 1075
  let atEdge := fraction = 0 && 1 < field
  let grow := Nat.pow 2 exponent.toNat
  { value := 4 * significand * grow
    low := (4 * significand - (if atEdge then 1 else 2)) * grow
    high := (4 * significand + 2) * grow
    scale := 4 * Nat.pow 2 (-exponent).toNat
    closed := significand % 2 = 0 }

/-- Whether the decimal `digits * 10 ^ exponent` is read as the number. -/
private def RoundingRange.holds (range : RoundingRange) (digits : Nat) (exponent : Int) : Bool :=
  let scaled := digits * range.scale * powerOfTen exponent
  let shrink := powerOfTen (-exponent)
  if range.closed then range.low * shrink ≤ scaled && scaled ≤ range.high * shrink
  else range.low * shrink < scaled && scaled < range.high * shrink

/-- The least `point` with `value < 10 ^ point`, searched upwards from a lower bound. -/
private def decimalPoint (range : RoundingRange) : Nat → Int → Int
  | 0, point => point
  | fuel + 1, point =>
      if range.value * powerOfTen (-point) < range.scale * powerOfTen point then point
      else decimalPoint range fuel (point + 1)

/-- The digits and exponent of the decimal with the fewest digits in the rounding range, from
`count` digits on; of two such decimals the nearer one, and the even one when both are
equally near. -/
private def fewestDigits (range : RoundingRange) (point : Int) : Nat → Nat → Nat × Int
  | 0, count =>
      let exponent := point - (count : Int)
      (range.value * powerOfTen (-exponent) / (range.scale * powerOfTen exponent), exponent)
  | fuel + 1, count =>
      let exponent := point - (count : Int)
      let step := range.scale * powerOfTen exponent
      let scaled := range.value * powerOfTen (-exponent)
      let below := scaled / step
      let twiceRest := 2 * (scaled % step)
      let lowFits := range.holds below exponent
      let highFits := range.holds (below + 1) exponent
      let upward := step < twiceRest || (twiceRest = step && below % 2 = 1)
      if lowFits && highFits then (if upward then below + 1 else below, exponent)
      else if lowFits then (below, exponent)
      else if highFits then (below + 1, exponent)
      else fewestDigits range point fuel (count + 1)

/-- Moves the zeros at the end of the digits into the exponent. -/
private def dropZeros : Nat → Nat → Int → Nat × Int
  | 0, digits, exponent => (digits, exponent)
  | fuel + 1, digits, exponent =>
      if digits ≠ 0 && digits % 10 = 0 then dropZeros fuel (digits / 10) (exponent + 1)
      else (digits, exponent)

/-- So many zeros. -/
private def zeros (count : Nat) : String := String.ofList (List.replicate count '0')

/-- Lays digits out: positionally, with a digit behind the point, while the point stands at
most 16 places behind the first digit or at most 4 before it; with an exponent otherwise. -/
private def layOut (digits : Nat) (exponent : Int) : String :=
  let shown := toString digits
  let point : Int := (shown.length : Int) + exponent
  if 0 ≤ exponent && point ≤ 16 then shown ++ zeros exponent.toNat ++ ".0"
  else if 0 < point && point ≤ 16 then
    String.ofList (shown.toList.take point.toNat) ++ "." ++
      String.ofList (shown.toList.drop point.toNat)
  else if -5 < point && point ≤ 0 then "0." ++ zeros (-point).toNat ++ shown
  else
    let tail := String.ofList (shown.toList.drop 1)
    let mantissa := String.ofList (shown.toList.take 1) ++ (if tail.isEmpty then "" else "." ++ tail)
    mantissa ++ "e" ++ toString (point - 1)

/-- The text of a finite number: the fewest digits that read back as it. -/
def binaryText (bits : UInt64) : String :=
  let sign := if bits.toNat < UInt64.size / 2 then "" else "-"
  if magnitude bits = 0 then sign ++ "0.0"
  else
    let range := roundingRange bits
    let point := decimalPoint range 700 (-330)
    let (digits, exponent) := fewestDigits range point 17 1
    let (short, shift) := dropZeros 400 digits exponent
    sign ++ layOut short shift

end Pipework.Json
