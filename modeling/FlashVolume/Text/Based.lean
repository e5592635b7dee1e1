/-!
# Digits of a base, and code points

In a base above ten the letters are digits too, in upper or lower case, and `a` is ten. A character
can be written by its code point in base sixteen.
-/

namespace FlashVolume
namespace Text

/-- The value of a digit in a base. -/
def digitIn? (base : Nat) (c : Char) : Option Nat :=
  let value :=
    if c.isDigit then c.toNat - '0'.toNat
    else if c.isLower then c.toNat - 'a'.toNat + 10
    else if c.isUpper then c.toNat - 'A'.toNat + 10
    else base
  if value < base then some value else none

/-- The digits that a number is written with have their values. -/
theorem digitIn?_digitChar : ∀ base ≤ 16, ∀ d < base, digitIn? base d.digitChar = some d := by
  decide

/-- A number is written with digits of its base. -/
theorem isSome_digitIn? {base : Nat} (hbase : 1 < base) (hle : base ≤ 16) {n : Nat} {c : Char}
    (h : c ∈ Nat.toDigits base n) : (digitIn? base c).isSome = true := by
  induction n using Nat.strongRecOn with
  | _ n ih =>
    rcases Nat.lt_or_ge n base with hlt | hge
    · rw [Nat.toDigits_of_lt_base hlt, List.mem_singleton] at h
      rw [h, digitIn?_digitChar base hle n hlt]
      rfl
    · rw [Nat.toDigits_of_base_le hbase hge, List.mem_append, List.mem_singleton] at h
      rcases h with hfront | rfl
      · exact ih (n / base) (Nat.div_lt_self (by omega) hbase) hfront
      · rw [digitIn?_digitChar base hle _ (Nat.mod_lt n (by omega))]
        rfl

/-- No digit is an underscore, which may stand between digits. -/
theorem ne_underscore_of_mem_toDigits {base : Nat} (hbase : 1 < base) (hle : base ≤ 16) {n : Nat}
    {c : Char} (h : c ∈ Nat.toDigits base n) : c ≠ '_' := by
  rintro rfl
  obtain ⟨v, hv⟩ := Option.isSome_iff_exists.1 (isSome_digitIn? hbase hle h)
  simp [digitIn?] at hv

/-- The number that digits of a base write, the most significant first. -/
def valueIn? (base : Nat) (ds : List Char) : Option Nat :=
  ds.foldlM (fun n d => (digitIn? base d).map (n * base + ·)) 0

/-- **A number is read back from its digits,** in each base up to sixteen. -/
theorem valueIn?_toDigits {base : Nat} (hbase : 1 < base) (hle : base ≤ 16) (n : Nat) :
    valueIn? base (Nat.toDigits base n) = some n := by
  induction n using Nat.strongRecOn with
  | _ n ih =>
    rcases Nat.lt_or_ge n base with hlt | hge
    · rw [Nat.toDigits_of_lt_base hlt]
      simp [valueIn?, digitIn?_digitChar base hle n hlt]
    · have hlast : n % base < base := Nat.mod_lt n (by omega)
      have hfront := ih (n / base) (Nat.div_lt_self (by omega) hbase)
      rw [Nat.toDigits_of_base_le hbase hge, valueIn?, List.foldlM_append]
      rw [valueIn?] at hfront
      simp [hfront, digitIn?_digitChar base hle _ hlast, Nat.div_add_mod']

/-! ## Code points -/

/-- The character with a code point, if it is one of a character. -/
def charOf? (n : Nat) : Option Char :=
  if h : n.isValidChar then some (Char.ofNatAux n h) else none

/-- A character is read back from its code point. -/
theorem charOf?_toNat (c : Char) : charOf? c.toNat = some c := by
  rw [charOf?, dif_pos (show c.toNat.isValidChar from c.valid)]
  rfl

/-- The character with the code point that digits of base sixteen write. -/
def codePoint? (ds : List Char) : Option Char :=
  (valueIn? 16 ds).bind charOf?

/-- **A character is read back from the digits of its code point.** -/
theorem codePoint?_toDigits (c : Char) : codePoint? (Nat.toDigits 16 c.toNat) = some c := by
  rw [codePoint?, valueIn?_toDigits (by decide) (Nat.le_refl 16)]
  exact charOf?_toNat c

end Text
end FlashVolume
