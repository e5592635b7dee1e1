/-!
# Contents of files

What `read`, `write` and `truncate` of section 6 of the specification do to the bytes of a file.

A file is a finite sequence of bytes. `overwrite` puts bytes at a position of it, `resize` gives
it a length; both fill what was not there with zeros.
-/

namespace FlashVolume

/-- File contents, and everything else that is read and written. -/
abbrev Bytes := List UInt8

namespace Bytes

/-- The data with some bytes at a position; a gap before them is filled with zeros. -/
def overwrite (data : Bytes) (position : Nat) (bytes : Bytes) : Bytes :=
  data.take position ++ List.replicate (position - data.length) 0 ++ bytes
    ++ data.drop (position + bytes.length)

/-- The data cut or filled with zeros to a length. -/
def resize (data : Bytes) (length : Nat) : Bytes :=
  data.take length ++ List.replicate (length - data.length) 0

/-- Writing behind the end makes the data longer, writing inside does not. -/
@[simp] theorem length_overwrite (data : Bytes) (position : Nat) (bytes : Bytes) :
    (overwrite data position bytes).length = max data.length (position + bytes.length) := by
  simp only [overwrite, List.length_append, List.length_take, List.length_replicate,
    List.length_drop]
  omega

/-- The data has the length that was asked for, whether it was cut or filled. -/
@[simp] theorem length_resize (data : Bytes) (length : Nat) :
    (resize data length).length = length := by
  simp only [resize, List.length_append, List.length_take, List.length_replicate]
  omega

end Bytes
end FlashVolume
