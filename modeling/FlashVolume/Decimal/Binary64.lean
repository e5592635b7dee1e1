import FlashVolume.Word
/-!
# 64-bit floating point numbers

A number is `± m · 2 ^ e` with a natural `m < 2 ^ 53` and `-1074 ≤ e ≤ 971`, where `m ≥ 2 ^ 52`
unless `e = -1074`; besides there are two infinities and one value that is no number. All
arithmetic is exact, on naturals.

* `ofScaled` takes the number nearest to `± d · 10 ^ k`; a tie goes to the even `m`.
* `toUnsigned64` rounds a half away from zero and stays within 64 bits.
* `toText` writes the fewest digits that read back, without an exponent.
-/

namespace FlashVolume

/-- A 64-bit floating point number. -/
inductive Binary64 where
  | notANumber
  | infinite (negative : Bool)
  | finite (negative : Bool) (mantissa : Nat) (exponent : Int)
deriving DecidableEq, Repr, Inhabited

namespace Binary64

/-- The value of the leading bit of a mantissa, `2 ^ 52`. -/
def leadingBit : Nat := 0x10000000000000

/-- The quotient rounded to the nearest natural; a tie goes to the even one. -/
def roundQuotient (n d : Nat) : Nat :=
  let q := n / d
  let r := n % d
  if 2 * r < d ∨ (2 * r = d ∧ q % 2 = 0) then q else q + 1

/-- The numerator and the denominator of `n / d · b ^ k`. -/
def scale (b : Nat) (k : Int) (n d : Nat) : Nat × Nat :=
  if 0 ≤ k then (n * Nat.pow b k.toNat, d) else (n, d * Nat.pow b (-k).toNat)

/-- The greatest `k` with `2 ^ k ≤ n / d`, for positive `n` and `d`. -/
def binaryOrder (n d : Nat) : Int :=
  let k : Int := (Nat.log2 n : Int) - Nat.log2 d
  let (n', d') := scale 2 (-k) n d
  if d' ≤ n' then k else k - 1

/-- The number nearest to `± n / d`. -/
def ofQuotient (negative : Bool) (n d : Nat) : Binary64 :=
  if n = 0 then finite negative 0 (-1074)
  else
    let e := max (binaryOrder n d - 52) (-1074)
    let (n', d') := scale 2 (-e) n d
    let m := roundQuotient n' d'
    let (m, e) := if m = 2 * leadingBit then (leadingBit, e + 1) else (m, e)
    if e > 971 then infinite negative else finite negative m e

/-- The number nearest to `± digits · 10 ^ k`, where `digits` has `width` decimal digits. Powers
far outside the range are answered without being computed. -/
def ofScaled (negative : Bool) (digits width : Nat) (k : Int) : Binary64 :=
  if digits = 0 then finite negative 0 (-1074)
  else if k + width > 400 ∧ k > 400 then infinite negative
  else if k + width < -400 then finite negative 0 (-1074)
  else
    let (n, d) := scale 10 k digits 1
    ofQuotient negative n d

/-- Whether the number is zero, of either sign. -/
def isZero : Binary64 → Bool
  | finite _ m _ => m = 0
  | _ => false

/-- The nearest 64-bit unsigned number: a half goes away from zero, what lies below is 0, what
lies above is the largest, and what is no number is 0. -/
def toUnsigned64 : Binary64 → UInt64
  | notANumber => 0
  | infinite negative => if negative then 0 else UInt64.ofNat Word.maxUnsigned64
  | finite true _ _ => 0
  | finite false m e =>
    let (n, d) := scale 2 e m 1
    UInt64.ofNat (min ((2 * n + d) / (2 * d)) Word.maxUnsigned64)

/-! ## The shortest text -/

/-- A decimal `digits · 10 ^ exponent`. -/
structure Digits where
  digits : Nat
  exponent : Int
deriving DecidableEq, Repr

/-- The greatest `p` with `10 ^ p ≤ n / d`, searched downwards from `p` for at most `fuel`
steps. -/
def decimalOrderFrom (n d : Nat) : Nat → Int → Int
  | 0, p => p
  | fuel + 1, p =>
    let (n', d') := scale 10 (-p) n d
    if d' ≤ n' then p else decimalOrderFrom n d fuel (p - 1)

/-- The distance of `a / b` and `n / d`, times `b · d`. -/
def distance (a b n d : Nat) : Nat :=
  (a * d - n * b) + (n * b - a * d)

/-- Whether `c · 10 ^ x` reads back as `m · 2 ^ e`: whether it lies between the middles of the
gaps around it. A middle reads back as the number with the even `m`. -/
def readsBack (m : Nat) (e : Int) (c : Nat) (x : Int) : Bool :=
  let (a, b) := scale 10 x c 1
  let lower := if m = leadingBit ∧ e > -1074 then 4 * m - 1 else 4 * m - 2
  let (n, d) := scale 2 (e - 2) lower 1
  let (n', d') := scale 2 (e - 2) (4 * m + 2) 1
  if m % 2 = 0 then n * b ≤ a * d ∧ a * d' ≤ n' * b else n * b < a * d ∧ a * d' < n' * b

/-- The decimal of `width` digits that reads back as `m · 2 ^ e`, the nearer one of two, and the
greater one of two that are as near. -/
def ofWidth? (m : Nat) (e : Int) (top : Int) (width : Nat) : Option Digits :=
  let x := top + 1 - width
  let (n, d) := scale 2 e m 1
  let (n', d') := scale 10 (-x) n d
  let c := n' / d'
  match readsBack m e c x, readsBack m e (c + 1) x with
  | true, true =>
    some (if distance c 1 n' d' < distance (c + 1) 1 n' d' then ⟨c, x⟩ else ⟨c + 1, x⟩)
  | true, false => some ⟨c, x⟩
  | false, true => some ⟨c + 1, x⟩
  | false, false => none

/-- The fewest digits that read back as `m · 2 ^ e`; seventeen always do. -/
def shortest (m : Nat) (e : Int) : Digits :=
  let (n, d) := scale 2 e m 1
  let top := decimalOrderFrom n d 700 310
  ((List.range 17).findSome? fun w => ofWidth? m e top (w + 1)).getD ⟨m, 0⟩

/-- A decimal without an exponent, and without a point where none is needed. -/
def Digits.toText (t : Digits) : String :=
  let ds := Nat.toDigits 10 t.digits
  if 0 ≤ t.exponent then String.ofList (ds ++ List.replicate t.exponent.toNat '0')
  else
    let places := (-t.exponent).toNat
    let padded := List.replicate (places + 1 - ds.length) '0' ++ ds
    let whole := padded.take (padded.length - places)
    let fraction := ((padded.drop (padded.length - places)).reverse.dropWhile (· = '0')).reverse
    String.ofList (if fraction.isEmpty then whole else whole ++ '.' :: fraction)

/-- The text of a number: the fewest digits that read back, never with an exponent. -/
def toText : Binary64 → String
  | notANumber => "NaN"
  | infinite negative => if negative then "-inf" else "inf"
  | finite negative m e =>
    let text := if m = 0 then "0" else (shortest m e).toText
    if negative then "-" ++ text else text

end Binary64
end FlashVolume
