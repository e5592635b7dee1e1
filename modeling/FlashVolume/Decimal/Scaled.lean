import FlashVolume.Decimal.Binary64
/-!
# Numbers scaled step by step

A decimal `d · 10 ^ k` that is read in steps: `d` is rounded to a 64-bit floating point number, so
is the power of ten, and so is their product or quotient. What comes out may be next to the number
nearest to the decimal. A power above `10 ^ 308` is out of range, so a small decimal is divided by
`10 ^ 308` first.
-/

namespace FlashVolume
namespace Binary64

/-- The greatest exponent of a power of ten in range. -/
def maxPower : Nat := 308

/-- The product of a number and a power of ten. -/
def timesPower (k : Nat) (x : Binary64) : Binary64 :=
  match x, ofScaled false 1 1 k with
  | finite negative m e, finite _ m' e' =>
    let (n, d) := scale 2 (e + e') (m * m') 1
    ofQuotient negative n d
  | _, power => power

/-- The quotient of a number and a power of ten. -/
def overPower (k : Nat) (x : Binary64) : Binary64 :=
  match x, ofScaled false 1 1 k with
  | finite negative m e, finite _ m' e' =>
    let (n, d) := scale 2 (e - e') m m'
    ofQuotient negative n d
  | x, _ => x

/-- A number times `10 ^ k`, divided in at most as many steps as `fuel` says; `none` if it is out of
range. -/
def scaledBy? : Nat → Binary64 → Int → Option Binary64
  | fuel, x, k =>
    if k.natAbs ≤ maxPower then
      if 0 ≤ k then
        match x.timesPower k.natAbs with
        | infinite _ => none
        | y => some y
      else some (x.overPower k.natAbs)
    else if x.isZero then some x
    else if 0 ≤ k then none
    else
      match fuel with
      | 0 => some x
      | fuel + 1 => scaledBy? fuel (x.overPower maxPower) (k + maxPower)

/-- The number `± d · 10 ^ k`, read in steps; `none` if it is out of range. Three divisions make
any 64-bit `d` zero. -/
def ofSteps? (negative : Bool) (d : Nat) (k : Int) : Option Binary64 :=
  scaledBy? 3 (ofQuotient negative d 1) k

end Binary64
end FlashVolume
