import FlashVolume.Config.Toml.Text
import FlashVolume.Text.Numeral
/-!
# Dates and times of TOML

```text
moment = date | date ( "T" | "t" | " " ) time [ zone ] | time
date   = year "-" month "-" day
time   = hour ":" minute ":" second [ "." digits ]
zone   = "Z" | "z" | ( "+" | "-" ) hour ":" minute
```

A year has four digits, all else two. A moment is read as a text: its parts with `T` and `Z` in
upper case, and of a fraction at most nine digits, without zeros at its end.
-/

namespace FlashVolume
namespace Toml

/-- Reads digits, as many as are asked for, and answers their value with what follows. -/
def digits? (count : Nat) (cs : List Char) : Option (Nat × List Char) :=
  if cs.length < count then none else (Text.digits? (cs.take count)).map (·, cs.drop count)

/-- **As many digits are read as are asked for.** -/
theorem exists_of_digits? {count n : Nat} {cs rest : List Char}
    (h : digits? count cs = some (n, rest)) :
    ∃ ds : List Char, ds.length = count ∧ cs = ds ++ rest := by
  obtain ⟨hlength, h⟩ := Option.ite_none_left_eq_some.1 h
  obtain ⟨_, _, ⟨⟩⟩ := Option.map_eq_some_iff.1 h
  refine ⟨cs.take count, ?_, (List.take_append_drop count cs).symm⟩
  rw [List.length_take]
  omega

/-- What follows some digits stands behind as many as were asked for. -/
theorem digits?_leaves (count : Nat) (cs : List Char) : Leaves Prod.snd cs (digits? count cs) :=
  .ite leaves_none (leaves_map fun _ => List.drop_suffix count cs)

/-- Reads one character. -/
def char? (c : Char) (cs : List Char) : Option (List Char) :=
  if cs.head? = some c then some cs.tail else none

/-- A character that is read stands there. -/
theorem eq_of_char? {c : Char} {cs rest : List Char} (h : char? c cs = some rest) :
    cs = c :: rest := by
  obtain ⟨hhead, htail⟩ := Option.ite_none_right_eq_some.1 h
  obtain ⟨_, rfl⟩ := List.head?_eq_some_iff.1 hhead
  rw [← Option.some.inj htail, List.tail_cons]

/-- What follows a character stands behind it. -/
theorem char?_leaves (c : Char) (cs : List Char) : Leaves id cs (char? c cs) :=
  .ite (leaves_some (List.tail_suffix cs)) leaves_none

/-- A number with at least two digits. -/
def twoDigits (n : Nat) : List Char :=
  if n < 10 then '0' :: Nat.toDigits 10 n else Nat.toDigits 10 n

/-- **Numbers below a hundred have two digits.** -/
theorem length_twoDigits {n : Nat} (h : n < 100) : (twoDigits n).length = 2 := by
  unfold twoDigits
  split
  case isTrue hlt => rw [Nat.toDigits_of_lt_base hlt]; rfl
  case isFalse hge =>
    rw [Nat.toDigits_of_base_le (by decide) (by omega), Nat.toDigits_of_lt_base (by omega)]
    rfl

/-- Reads a date, and answers its text with what follows. -/
def date? (cs : List Char) : Option (List Char × List Char) := do
  let (_, rest) ← digits? 4 cs
  let (month, rest) ← digits? 2 (← char? '-' rest)
  let (day, rest) ← digits? 2 (← char? '-' rest)
  guard (1 ≤ month ∧ month ≤ 12 ∧ 1 ≤ day ∧ day ≤ 31)
  return (cs.take 10, rest)

/-- **A date is read as it stands there.** -/
theorem date?_append {cs text rest : List Char} (h : date? cs = some (text, rest)) :
    text.length = 10 ∧ cs = text ++ rest := by
  obtain ⟨⟨_, _⟩, hyear, h⟩ := Option.bind_eq_some_iff.1 h
  obtain ⟨_, hdash, h⟩ := Option.bind_eq_some_iff.1 h
  obtain ⟨⟨_, _⟩, hmonth, h⟩ := Option.bind_eq_some_iff.1 h
  obtain ⟨_, hdash', h⟩ := Option.bind_eq_some_iff.1 h
  obtain ⟨⟨_, _⟩, hday, h⟩ := Option.bind_eq_some_iff.1 h
  obtain ⟨_, _, heq⟩ := Option.bind_eq_some_iff.1 h
  obtain ⟨year, hyearLength, rfl⟩ := exists_of_digits? hyear
  obtain ⟨month, hmonthLength, rfl⟩ := exists_of_digits? hmonth
  obtain ⟨day, hdayLength, rfl⟩ := exists_of_digits? hday
  obtain rfl := eq_of_char? hdash
  obtain rfl := eq_of_char? hdash'
  cases heq
  have hall : year ++ '-' :: (month ++ '-' :: (day ++ rest)) =
      (year ++ '-' :: (month ++ '-' :: day)) ++ rest := by
    simp
  rw [hall, List.take_left' (by simp [hyearLength, hmonthLength, hdayLength])]
  exact ⟨by simp [hyearLength, hmonthLength, hdayLength], rfl⟩

/-- What follows a date stands behind its day. -/
theorem date?_leaves (cs : List Char) : Leaves Prod.snd cs (date? cs) :=
  fun _ h => (date?_append h).2 ▸ List.suffix_append _ _

/-- Reads the fraction of a second, if there is one, and answers its text with what follows. -/
def fraction? (cs : List Char) : Option (List Char × List Char) := do
  match cs with
  | '.' :: cs =>
    let ds := cs.takeWhile Char.isDigit
    guard (¬ ds.isEmpty)
    let kept := ((ds.take 9).reverse.dropWhile (· = '0')).reverse
    return (if kept.isEmpty then [] else '.' :: kept, cs.dropWhile Char.isDigit)
  | cs => return ([], cs)

/-- **Nine digits of a fraction count** at most. -/
theorem length_of_fraction? {cs text rest : List Char} (h : fraction? cs = some (text, rest)) :
    text.length ≤ 10 := by
  unfold fraction? at h
  split at h
  case h_1 cs =>
    obtain ⟨_, _, ⟨⟩⟩ := Option.bind_eq_some_iff.1 h
    have hkept := (List.dropWhile_suffix (· = '0')
      (l := ((cs.takeWhile Char.isDigit).take 9).reverse)).length_le
    have hnine := List.length_take_le 9 (cs.takeWhile Char.isDigit)
    rw [List.length_reverse] at hkept
    split
    · exact Nat.zero_le _
    · rw [List.length_cons, List.length_reverse]
      omega
  case h_2 => cases h; exact Nat.zero_le _

/-- What follows a fraction stands behind all its digits, also those that do not count. -/
theorem fraction?_leaves (cs : List Char) : Leaves Prod.snd cs (fraction? cs) := by
  unfold fraction?
  split
  case h_1 cs =>
    refine leaves_bind fun _ => leaves_some ?_
    exact (List.dropWhile_suffix _).trans (List.suffix_cons '.' cs)
  case h_2 => exact leaves_some (List.suffix_refl _)

/-- Reads a time, and answers its text with what follows. -/
def time? (cs : List Char) : Option (List Char × List Char) := do
  let (hour, rest) ← digits? 2 cs
  let (minute, rest) ← digits? 2 (← char? ':' rest)
  let (second, rest) ← digits? 2 (← char? ':' rest)
  guard (hour ≤ 24 ∧ minute ≤ 59 ∧ second ≤ 59)
  let (fraction, rest) ← fraction? rest
  return (cs.take 8 ++ fraction, rest)

/-- What follows a time stands behind its seconds or their fraction. -/
theorem time?_leaves (cs : List Char) : Leaves Prod.snd cs (time? cs) := by
  refine (digits?_leaves 2 cs).bind fun ⟨_, rest⟩ => (char?_leaves ':' rest).bind fun rest => ?_
  refine (digits?_leaves 2 rest).bind fun ⟨_, rest⟩ => (char?_leaves ':' rest).bind fun rest => ?_
  refine (digits?_leaves 2 rest).bind fun ⟨_, rest⟩ => leaves_bind fun _ => ?_
  exact (fraction?_leaves rest).bind fun _ => leaves_some (List.suffix_refl _)

/-- Reads a time zone, if there is one, and answers its text with what follows. -/
def zone? : List Char → Option (List Char × List Char)
  | 'Z' :: cs => some (['Z'], cs)
  | 'z' :: cs => some (['Z'], cs)
  | c :: cs =>
    if c = '+' ∨ c = '-' then do
      let (hour, rest) ← digits? 2 cs
      let (minute, rest) ← digits? 2 (← char? ':' rest)
      let sign := if hour = 0 then '+' else c
      return (sign :: twoDigits hour ++ ':' :: twoDigits minute, rest)
    else some ([], c :: cs)
  | [] => some ([], [])

/-- What follows a time zone stands behind it. -/
theorem zone?_leaves (cs : List Char) : Leaves Prod.snd cs (zone? cs) := by
  unfold zone?
  split
  case h_1 cs => exact leaves_some (List.suffix_cons 'Z' cs)
  case h_2 cs => exact leaves_some (List.suffix_cons 'z' cs)
  case h_3 c cs _ _ =>
    refine .ite (.behind ?_ (List.suffix_cons c cs)) (leaves_some (List.suffix_refl _))
    refine (digits?_leaves 2 cs).bind fun ⟨_, rest⟩ => (char?_leaves ':' rest).bind fun rest => ?_
    exact (digits?_leaves 2 rest).bind fun _ => leaves_some (List.suffix_refl _)
  case h_4 => exact leaves_some (List.suffix_refl [])

/-- Reads a date or a time or both, and answers the text with what follows. Behind a date, a space
leads to a time if more than a blank follows it. -/
def moment? (cs : List Char) : Option (String × List Char) := do
  match date? cs with
  | none =>
    let (time, rest) ← time? cs
    return (String.ofList time, rest)
  | some (date, rest) =>
    let goesOn := match rest with
      | 'T' :: _ => true
      | 't' :: _ => true
      | ' ' :: c :: _ => isBare c
      | _ => false
    if goesOn then
      let (time, rest) ← time? rest.tail
      let (zone, rest) ← zone? rest
      return (String.ofList (date ++ 'T' :: time ++ zone), rest)
    else return (String.ofList date, rest)

/-- What follows a moment stands behind its last part. -/
theorem moment?_leaves (cs : List Char) : Leaves Prod.snd cs (moment? cs) := by
  unfold moment?
  split
  case h_1 => exact (time?_leaves cs).bind fun _ => leaves_some (List.suffix_refl _)
  case h_2 date rest heq =>
    refine .behind (.ite (.behind ?_ (List.tail_suffix rest)) (leaves_some (List.suffix_refl rest)))
      (date?_leaves cs _ heq)
    refine (time?_leaves rest.tail).bind fun ⟨_, rest⟩ => ?_
    exact (zone?_leaves rest).bind fun _ => leaves_some (List.suffix_refl _)

end Toml
end FlashVolume
