/-!
# White space

A character is blank when it has the Unicode property `White_Space`:

| code points | |
| --- | --- |
| `U+0009` … `U+000D`, `U+0020` | tab to carriage return, space |
| `U+0085`, `U+00A0` | next line, no-break space |
| `U+1680`, `U+2000` … `U+200A` | ogham space mark, the typographic spaces |
| `U+2028`, `U+2029`, `U+202F`, `U+205F`, `U+3000` | separators, narrow, mathematical, ideographic |

A line is cut at blanks in three ways: `trim` drops them at both ends, `words` keeps the
maximal blank-free runs, and `splitAtBlank` cuts once, at the first blank.
-/

namespace FlashVolume
namespace Text

/-- The ranges of `White_Space`, both ends included, in ascending order. -/
def blankRanges : List (Nat × Nat) :=
  [(0x9, 0xD), (0x20, 0x20), (0x85, 0x85), (0xA0, 0xA0), (0x1680, 0x1680), (0x2000, 0x200A),
   (0x2028, 0x2029), (0x202F, 0x202F), (0x205F, 0x205F), (0x3000, 0x3000)]

/-- White space, in the sense of the Unicode property. -/
def isBlank (c : Char) : Bool :=
  blankRanges.any fun r => r.1 ≤ c.toNat && c.toNat ≤ r.2

/-- The characters without the blanks at both ends. -/
def trimChars (cs : List Char) : List Char :=
  ((cs.dropWhile isBlank).reverse.dropWhile isBlank).reverse

/-- The text without the blanks at both ends. -/
def trim (s : String) : String :=
  String.ofList (trimChars s.toList)

/-- Puts one character in front of a list of words whose first word is still open: a blank
closes the word, any other character extends it. -/
def pushChar (c : Char) : List Char × List (List Char) → List Char × List (List Char)
  | (word, rest) =>
    if isBlank c then ([], if word.isEmpty then rest else word :: rest) else (c :: word, rest)

/-- The maximal blank-free runs, left to right. -/
def wordChars (cs : List Char) : List (List Char) :=
  let (word, rest) := cs.foldr pushChar ([], [])
  if word.isEmpty then rest else word :: rest

/-- The words of a text: its maximal blank-free runs, left to right. -/
def words (s : String) : List String :=
  (wordChars s.toList).map String.ofList

/-- What stands before the first blank, and what stands after it if there is one. -/
def splitChars (cs : List Char) : List Char × Option (List Char) :=
  (cs.takeWhile (!isBlank ·), (cs.dropWhile (!isBlank ·)).tail?)

/-- What stands before the first blank, and what stands after it if there is one. -/
def splitAtBlank (s : String) : String × Option String :=
  let (head, rest) := splitChars s.toList
  (String.ofList head, rest.map String.ofList)

end Text
end FlashVolume
