import FlashVolume.Decimal.Binary64
import FlashVolume.Text.Numeral
/-!
# Reading a floating point number

```text
number   = [sign] ( "inf" | "infinity" | "nan" | decimal )
decimal  = ( digits [ "." [digits] ] | "." digits ) [ ("e" | "E") [sign] digits ]
```

The three words are read without regard to case.
-/

namespace FlashVolume
namespace Binary64

/-- Splits off a sign; true for `-`. -/
def splitSign : List Char → Bool × List Char
  | '-' :: cs => (true, cs)
  | '+' :: cs => (false, cs)
  | cs => (false, cs)

/-- What stands behind a sign is an end of the text. -/
theorem splitSign_suffix (cs : List Char) : (splitSign cs).2 <:+ cs := by
  unfold splitSign
  split
  · exact List.suffix_cons ..
  · exact List.suffix_cons ..
  · exact List.suffix_refl _

/-- Splits off the leading digits. -/
def splitDigits (cs : List Char) : List Char × List Char :=
  (cs.takeWhile Char.isDigit, cs.dropWhile Char.isDigit)

/-- A text is its leading digits and what follows them. -/
theorem splitDigits_append (cs : List Char) : (splitDigits cs).1 ++ (splitDigits cs).2 = cs :=
  List.takeWhile_append_dropWhile

/-- Splits off a point and the digits after it. -/
def splitFraction : List Char → List Char × List Char
  | '.' :: cs => splitDigits cs
  | cs => ([], cs)

/-- The value of what stands behind the digits: nothing, or an exponent. -/
def exponent? : List Char → Option Int
  | [] => some 0
  | c :: cs =>
    if c = 'e' ∨ c = 'E' then
      let (negative, ds) := splitSign cs
      (Text.digits? ds).map fun n => if negative then -(n : Int) else n
    else none

/-- The number that a decimal without a sign writes. -/
def decimal? (negative : Bool) (cs : List Char) : Option Binary64 :=
  let (whole, rest) := splitDigits cs
  let (fraction, rest) := splitFraction rest
  let digits := whole ++ fraction
  if digits.isEmpty then none
  else (exponent? rest).map fun k =>
    ofScaled negative (Text.digitsValue digits) digits.length (k - fraction.length)

/-- The number that a text writes. -/
def ofText? (s : String) : Option Binary64 :=
  let (negative, cs) := splitSign s.toList
  let word := String.ofList (cs.map Char.toLower)
  if word = "inf" ∨ word = "infinity" then some (infinite negative)
  else if word = "nan" then some notANumber
  else decimal? negative cs

end Binary64
end FlashVolume
