import Cascade.Text.Numeral

/-!
# The shortest decimal of a double

A finite double is `mantissa · 2 ^ exponent`. The reals that are closer to it than to any other
double form an interval, whose ends belong to it if the mantissa is even. `shortest` finds, for 1,
2, … 17 digits, the two neighbours of the value on that decimal grid, and takes the first grid that
has a neighbour in the interval, of two such neighbours the nearer, and of two equally near the
even one. `render` writes these digits: positionally while the decimal point stays near them, with
an exponent otherwise.
-/

namespace Cascade.Binary64

/-- A finite double. -/
structure Dyadic where
  /-- Whether the sign bit is set. -/
  negative : Bool
  /-- The integer significand. -/
  mantissa : Nat
  /-- The power of two that it is multiplied by. -/
  exponent : Int
  /-- Whether the double below it is nearer than the one above it. -/
  atBinade : Bool

/-- The parts of a double, given by its bits. -/
def Dyadic.ofBits (bits : UInt64) : Dyadic :=
  let n := bits.toNat
  let fraction : Nat := n % 0x10000000000000
  let power : Nat := n / 0x10000000000000 % 0x800
  { negative := n / 0x8000000000000000 == 1
    mantissa := if power == 0 then fraction else 0x10000000000000 + fraction
    exponent := Int.ofNat (max power 1) - 1075
    atBinade := fraction == 0 && power > 1 }

/-- The value and the ends of the interval around it, as numerators over one denominator. -/
structure Window where
  low : Nat
  value : Nat
  high : Nat
  denominator : Nat
  /-- Whether the ends belong to the interval. -/
  closed : Bool

/-- The interval of the reals nearest to a double. -/
def Dyadic.window (d : Dyadic) : Window :=
  let scale := Nat.pow 2 (d.exponent - 2).toNat
  { low := (4 * d.mantissa - if d.atBinade then 1 else 2) * scale
    value := 4 * d.mantissa * scale
    high := (4 * d.mantissa + 2) * scale
    denominator := Nat.pow 2 (2 - d.exponent).toNat
    closed := d.mantissa % 2 == 0 }

/-- Digits and the place of the decimal point counted from the first of them. -/
structure Digits where
  digits : Nat
  point : Int

/-- The number of decimals after which a value below one has a digit before the point. -/
def leadingZeros (numerator denominator : Nat) : Nat → Nat
  | 0 => 0
  | fuel + 1 =>
    if numerator ≥ denominator then 0 else leadingZeros (numerator * 10) denominator fuel + 1

/-- The place of the decimal point relative to the first digit of a positive value. -/
def Window.point (w : Window) : Int :=
  if w.value ≥ w.denominator then (Text.decimal (w.value / w.denominator)).length
  else 1 - (leadingZeros w.value w.denominator 400 : Int)

/-- The better neighbour of the value on the grid of the numbers with `count` digits, if one lies
in the interval. -/
def Window.onGrid? (w : Window) (point : Int) (count : Nat) : Option Nat :=
  let up := Nat.pow 10 ((count : Int) - point).toNat
  let unit := w.denominator * Nat.pow 10 (point - count).toNat
  let below := w.value * up / unit
  let inside (n : Nat) : Bool :=
    if w.closed then w.low * up ≤ n * unit && n * unit ≤ w.high * up
    else w.low * up < n * unit && n * unit < w.high * up
  let gapBelow := w.value * up - below * unit
  let gapAbove := (below + 1) * unit - w.value * up
  match inside below, inside (below + 1) with
  | false, false => none
  | true, false => some below
  | false, true => some (below + 1)
  | true, true =>
    if gapBelow < gapAbove then some below
    else if gapAbove < gapBelow then some (below + 1)
    else if below % 2 == 0 then some below else some (below + 1)

/-- The first grid, from `count` digits on, with a neighbour in the interval. -/
def Window.shortestFrom (w : Window) (point : Int) (count : Nat) : Nat → Digits
  | 0 => ⟨0, point⟩
  | fuel + 1 =>
    match w.onGrid? point count with
    | some digits =>
      -- the neighbour above 9…9 has one digit more, all zeros but the first
      if digits == Nat.pow 10 count then ⟨1, point + 1⟩ else ⟨digits, point⟩
    | none => w.shortestFrom point (count + 1) fuel

/-- The fewest digits that denote a positive double. -/
def Dyadic.shortest (d : Dyadic) : Digits :=
  d.window.shortestFrom d.window.point 1 17

/-- Digits with a decimal point among or around them, or with a signed exponent if the point is more
than sixteen places behind the first digit or five before it. -/
def Digits.render (d : Digits) : Text :=
  let digits := Text.decimal d.digits
  let count : Int := digits.length
  if count ≤ d.point ∧ d.point ≤ 16 then
    digits ++ List.replicate (d.point - count).toNat '0' ++ ['.', '0']
  else if 0 < d.point ∧ d.point ≤ 16 then
    digits.take d.point.toNat ++ '.' :: digits.drop d.point.toNat
  else if -5 < d.point ∧ d.point ≤ 0 then
    '0' :: '.' :: List.replicate (-d.point).toNat '0' ++ digits
  else
    let sign := if d.point > 0 then ['+'] else []
    let exponent := 'e' :: sign ++ Text.signedDecimal (d.point - 1)
    if digits.length = 1 then digits ++ exponent
    else digits.take 1 ++ '.' :: digits.drop 1 ++ exponent

/-- The shortest text that denotes a finite double and no integer. -/
def render (bits : UInt64) : Text :=
  let d := Dyadic.ofBits bits
  let size := if d.mantissa = 0 then ['0', '.', '0'] else d.shortest.render
  if d.negative then '-' :: size else size

end Cascade.Binary64
