import SqlLayout.Text.Basic

/-!
Numbers with a point. A decimal is rounded to the nearest double, ties going to the even one, and is
written back with the fewest digits that are rounded to the same double.
-/

namespace SqlLayout.Toml

/-- The number `digits * 10 ^ exponent`. -/
structure Decimal where
  digits : Nat
  exponent : Int
  deriving DecidableEq, Repr

/-- The double `mantissa * 2 ^ exponent`; the mantissa has at most 53 bits. -/
structure Double where
  mantissa : Nat
  exponent : Int
  deriving DecidableEq, Repr

/-- The value of decimal digits; other characters are passed over. -/
def decimalValue (cs : List Char) : Nat :=
  (cs.filter Char.isDigit).foldl (fun n c => n * 10 + (c.toNat - 48)) 0

/-- Reads digits with an optional fraction and an optional exponent; signs in front are passed
over. -/
def Decimal.ofText (text : String) : Decimal :=
  let isMark (c : Char) := c == 'e' || c == 'E'
  let significand := text.toList.takeWhile (!isMark ·)
  let power := (text.toList.dropWhile (!isMark ·)).drop 1
  let fraction := ((significand.dropWhile (· != '.')).filter Char.isDigit).length
  let e : Int := decimalValue power
  ⟨decimalValue significand, (if power.head? == some '-' then -e else e) - fraction⟩

/-- A quotient rounded to the nearest whole number, ties going to the even one. -/
def roundQuotient (num den : Nat) : Nat :=
  let q := num / den
  let r := num % den
  if 2 * r < den then q else if den < 2 * r then q + 1 else q + q % 2

/-- The quotient `num / (den * 2 ^ e)` as a pair. -/
def scaleDown (num den : Nat) (e : Int) : Nat × Nat :=
  (num * Nat.pow 2 (-e).toNat, den * Nat.pow 2 e.toNat)

/-- The exponent of the smallest double above zero. -/
def leastExponent : Int := -1074

/-- The double nearest to a quotient; none when it is too large for one. -/
def Double.ofQuotient (num den : Nat) : Option Double :=
  let guess : Int := Int.ofNat num.log2 - Int.ofNat den.log2 - 52
  let fits (e : Int) : Bool :=
    let (n, d) := scaleDown num den e
    n / d < Nat.pow 2 53
  let least := if fits (guess - 1) then guess - 1 else if fits guess then guess else guess + 1
  let e := max least leastExponent
  let (n, d) := scaleDown num den e
  let m := roundQuotient n d
  let (m, e) := if m == Nat.pow 2 53 then (Nat.pow 2 52, e + 1) else (m, e)
  if e ≤ 971 then some ⟨m, e⟩ else none

/-- The double nearest to a decimal; none when it is too large for one. Decimals that are far out of
range are told by their order of magnitude. -/
def Decimal.toDouble? (d : Decimal) : Option Double :=
  let size : Int := (Nat.toDigits 10 d.digits).length + d.exponent
  if d.digits == 0 || size < -400 then some ⟨0, leastExponent⟩
  else if 400 < size then none
  else Double.ofQuotient (d.digits * Nat.pow 10 d.exponent.toNat) (Nat.pow 10 (-d.exponent).toNat)

/-- The decimals with a given last place on both sides of a double, the nearer one first. -/
def Double.neighbours (x : Double) (place : Int) : List Decimal :=
  let num := x.mantissa * Nat.pow 2 x.exponent.toNat * Nat.pow 10 (-place).toNat
  let den := Nat.pow 2 (-x.exponent).toNat * Nat.pow 10 place.toNat
  let below : Decimal := ⟨num / den, place⟩
  let above : Decimal := ⟨num / den + 1, place⟩
  if roundQuotient num den == num / den then [below, above] else [above, below]

/-- The decimal with the fewest digits that is rounded to the given double. -/
def Double.shortest (x : Double) : Decimal :=
  if x.mantissa == 0 then ⟨0, 0⟩
  else
    let places := (List.range 650).map fun i : Nat => (309 : Int) - i
    let found := places.findSome? fun place =>
      (x.neighbours place).find? fun d => d.digits != 0 && d.toDouble? == some x
    found.getD ⟨0, 0⟩

/-- A decimal in positional notation with at least one digit on either side of the point. -/
def Decimal.text (d : Decimal) : String :=
  let ds := Nat.toDigits 10 d.digits
  let places := (-d.exponent).toNat
  let ds := ds ++ List.replicate d.exponent.toNat '0'
  let ds := List.replicate (places + 1 - ds.length) '0' ++ ds
  let whole := ds.take (ds.length - places)
  let part := ds.drop (ds.length - places)
  String.ofList (whole ++ ['.'] ++ if part.isEmpty then ['0'] else part)

/-- The text of a number with a point, or of infinity or of what is no number, after rounding. -/
def roundedText (text : String) : String :=
  let negative := text.startsWith "-"
  let mark := if negative then "-" else ""
  if text.endsWith "nan" then "NaN"
  else if text.endsWith "inf" then mark ++ "inf"
  else match (Decimal.ofText text).toDouble? with
    | some x => mark ++ x.shortest.text
    | none => mark ++ "inf"

end SqlLayout.Toml
