/-!
# Texts inside texts
-/

namespace FlashVolume
namespace Text

/-- Whether `part` stands somewhere in the characters. -/
def containsChars (part : List Char) : List Char → Bool
  | [] => part.isEmpty
  | c :: cs => part.isPrefixOf (c :: cs) || containsChars part cs

/-- Whether `part` stands somewhere in the text. Every text contains the empty one. -/
def contains (part s : String) : Bool :=
  containsChars part.toList s.toList

/-- What follows `stem` at the start of the text, if the text starts with it. -/
def stripStem? (stem s : String) : Option String :=
  if stem.toList.isPrefixOf s.toList then some (String.ofList (s.toList.drop stem.toList.length))
  else none

end Text
end FlashVolume
