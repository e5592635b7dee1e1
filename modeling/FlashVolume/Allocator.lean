/-!
# The memory of the machine

The slots of `find` (section 4.3 of the specification) and the buffer of `digest` (sections 4.5 and
5).

Two operations ask for memory before they go on, and have an answer of their own when they do not
get it: a digest asks for its buffer, and a search for the room of the entries that it has counted.
What a machine gives is nothing that an operation could know. It is therefore a parameter of the
operations, an `Allocator`, and what is stated of them is stated for every one.

| asked for | by | if it is refused |
| --- | --- | --- |
| a buffer of as many bytes as are read at a time | `Digest.stream` | the error `outOfMemory` |
| room for as many entries as have been counted | `Directory.find` | nothing is found |
-/

namespace FlashVolume

/-- What a machine answers when it is asked for memory. -/
class Allocator where
  /-- Whether a buffer of so many bytes is given. -/
  grantsBytes : Nat → Bool
  /-- Whether room for so many entries of a directory is given. -/
  grantsEntries : Nat → Bool
  /-- An empty buffer needs no memory. -/
  grantsBytes_zero : grantsBytes 0 = true

namespace Allocator

/-- A machine that gives buffers up to a length, and room for up to so many entries. -/
@[reducible]
def upTo (bytes entries : Nat) : Allocator where
  grantsBytes length := length ≤ bytes
  grantsEntries count := count ≤ entries
  grantsBytes_zero := by simp

end Allocator
end FlashVolume
