import FlashVolume.Config.Setting
import FlashVolume.Config.Toml.Text
/-!
# Numbers of TOML

```text
number  = [ "+" ] ( based | decimal | [ "-" ] ( "inf" | "nan" ) )
based   = "0x" digits | "0o" digits | "0b" digits
decimal = [ "-" ] digits [ "." digits ] [ ( "e" | "E" ) [ "+" | "-" ] digits ]
```

Between two digits there may be one `_`; the whole part of a decimal number has no needless zero
at its start. An integer has 64 bits, and a number written with digits is finite.
-/

namespace FlashVolume
namespace Toml

/-- The digits of a number without the `_` between them; `afterDigit` says whether the character
before is a digit. -/
def digitsWithout? (base : Nat) : Bool → List Char → Option (List Char)
  | afterDigit, [] => if afterDigit then some [] else none
  | afterDigit, c :: cs =>
    if c = '_' then if afterDigit then digitsWithout? base false cs else none
    else if (Text.digitIn? base c).isSome then (digitsWithout? base true cs).map (c :: ·)
    else none

/-- **The digits are what stands there, without the `_`.** -/
theorem eq_of_digitsWithout? {base : Nat} {afterDigit : Bool} {cs ds : List Char}
    (h : digitsWithout? base afterDigit cs = some ds) :
    ds = cs.filter (· ≠ '_') ∧ ∀ d ∈ ds, (Text.digitIn? base d).isSome = true := by
  fun_induction digitsWithout? base afterDigit cs generalizing ds with
  | case1 => cases h; simp
  | case2 | case4 | case6 => cases h
  | case3 _ ih => simpa using ih h
  | case5 _ c cs hmark hdigit ih =>
    obtain ⟨ds, hread, rfl⟩ := Option.map_eq_some_iff.1 h
    obtain ⟨rfl, hdigits⟩ := ih hread
    exact ⟨by simp [hmark], List.forall_mem_cons.2 ⟨hdigit, hdigits⟩⟩

/-- Behind a digit, digits alone are read as they stand. -/
theorem digitsWithout?_of_isSome {base : Nat} {ds : List Char}
    (h : ∀ d ∈ ds, d ≠ '_' ∧ (Text.digitIn? base d).isSome = true) :
    digitsWithout? base true ds = some ds := by
  induction ds with
  | nil => rfl
  | cons d ds ih =>
    obtain ⟨hmark, hdigit⟩ := h d (by simp)
    simp [digitsWithout?, hmark, hdigit, ih fun e he => h e (by simp [he])]

/-- The value of an integer in a base other than ten. -/
def based? (base : Nat) (cs : List Char) : Option Setting := do
  let n ← Text.valueIn? base (← digitsWithout? base false cs)
  if n ≤ Word.maxSigned64 then some (.int n) else none

/-- **An integer is read back from its digits** in each base up to sixteen, if it fits. -/
theorem based?_toDigits {base : Nat} (hbase : 1 < base) (hle : base ≤ 16) {n : Nat}
    (h : n ≤ Word.maxSigned64) : based? base (Nat.toDigits base n) = some (.int n) := by
  have hdigit : ∀ d ∈ Nat.toDigits base n, d ≠ '_' ∧ (Text.digitIn? base d).isSome = true :=
    fun d hd => ⟨Text.ne_underscore_of_mem_toDigits hbase hle hd, Text.isSome_digitIn? hbase hle hd⟩
  have hread : digitsWithout? base false (Nat.toDigits base n) = some (Nat.toDigits base n) := by
    obtain ⟨d, ds, hds⟩ := List.exists_cons_of_ne_nil (Nat.toDigits_ne_nil (n := n) (b := base))
    rw [hds] at hdigit ⊢
    obtain ⟨hmark, hfirst⟩ := hdigit d (by simp)
    have hmore : digitsWithout? base true ds = some ds :=
      digitsWithout?_of_isSome fun e he => hdigit e (by simp [he])
    simp [digitsWithout?, hmark, hfirst, hmore]
  simp [based?, hread, Text.valueIn?_toDigits hbase hle, h]

/-- The digits of the whole part of a decimal number: no needless leading zero. -/
def whole? (cs : List Char) : Option (List Char) := do
  let ds ← digitsWithout? 10 false cs
  if ds.head? = some '0' ∧ ds.length > 1 then none else some ds

/-- The value of a decimal number with a point or an exponent. -/
def float? (negative : Bool) (cs : List Char) : Option Setting := do
  let isExponent := fun c : Char => c = 'e' ∨ c = 'E'
  let decimal := cs.takeWhile (¬ isExponent ·)
  let ds ← whole? (decimal.takeWhile (· ≠ '.'))
  let fraction ← match decimal.dropWhile (· ≠ '.') with
    | [] => some []
    | _ :: fs => digitsWithout? 10 false fs
  let (minus, es) ← match cs.dropWhile (¬ isExponent ·) with
    | [] => some (false, ['0'])
    | _ :: es =>
      let (minus, es) := Binary64.splitSign es
      (digitsWithout? 10 false es).map (minus, ·)
  let k : Int := Text.digitsValue es
  let digits := ds ++ fraction
  match Binary64.ofScaled negative (Text.digitsValue digits) digits.length
      ((if minus then -k else k) - fraction.length) with
  | .finite s m e => some (.float (.finite s m e))
  | _ => none

/-- The value of a decimal number or of a name of one. -/
def decimal? (negative : Bool) (cs : List Char) : Option Setting :=
  if cs = ['i', 'n', 'f'] then some (.float (.infinite negative))
  else if cs = ['n', 'a', 'n'] then some (.float .notANumber)
  else if cs.any fun c => c = '.' ∨ c = 'e' ∨ c = 'E' then float? negative cs
  else do
    let n := Text.digitsValue (← whole? cs)
    if negative then if n ≤ Word.maxSigned64 + 1 then some (.int (-n)) else none
    else if n ≤ Word.maxSigned64 then some (.int n) else none

/-- The value of a number behind its `+`, if it has one. -/
def unsigned? : List Char → Option Setting
  | '0' :: 'x' :: ds => based? 16 ds
  | '0' :: 'o' :: ds => based? 8 ds
  | '0' :: 'b' :: ds => based? 2 ds
  | '-' :: cs => decimal? true cs
  | cs => decimal? false cs

/-- The value of a number. -/
def number? : List Char → Option Setting
  | '+' :: cs => unsigned? cs
  | cs => unsigned? cs

end Toml
end FlashVolume
