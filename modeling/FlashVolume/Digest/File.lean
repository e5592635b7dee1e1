import FlashVolume.Allocator
import FlashVolume.Digest.Algorithm
import FlashVolume.File
/-!
# Digests of files

Section 4.5 of the specification: `digest`, with `digest_into`, which zeroes its output first, and
`digest_in` of section 10.6.

The first `size` bytes of a file are read in chunks of at most the configured size and fed to an
accumulator. Each read has to answer all it is asked for. The buffer that the chunks are read into
is asked for before the first read.
-/

namespace FlashVolume
namespace Digest

/-- Reads `remaining` bytes in chunks and feeds them to an accumulator. -/
def feed (file : FileHandle) (path : String) (chunk : Nat) (hchunk : 0 < chunk)
    (remaining : Nat) (acc : Accumulator) : Operation Accumulator :=
  if _h : remaining = 0 then pure acc
  else do
    let length := min remaining chunk
    let bytes ← Operation.requestOr (fun e => .ioError s!"read {path}: {e.message}")
      (.read file length)
    if bytes.length ≠ length then
      throw (.ioError s!"short read of {path} ({bytes.length} of {length} bytes)")
    feed file path chunk hchunk (remaining - length) (acc.absorb bytes)
termination_by remaining
decreasing_by omega

variable [Allocator]

/-- The digest of the next `size` bytes of an open file. -/
def stream (file : FileHandle) (path : String) (size chunk : Nat) (algorithm : Algorithm) :
    Operation Digest := do
  if h : 0 < chunk then
    if !Allocator.grantsBytes (min size chunk) then
      throw (.outOfMemory s!"{min size chunk} byte digest buffer")
    return (← feed file path chunk h size (.start algorithm)).finish
  else if size > 0 then throw (.invalidInput "zero chunk size")
  else return (Accumulator.start algorithm).finish

/-- The digest of the first `size` bytes of a file. -/
def ofFile (path : String) (size : Nat) (algorithm : Algorithm) (config : Config) :
    Operation Digest := do
  File.requirePath path
  File.withFile path .readOnly fun file =>
    stream file path size (algorithm.chunkSize config) algorithm

/-- The digest of the first `size` bytes of a file in a directory. -/
def ofFileIn (dir name : String) (size : Nat) (algorithm : Algorithm) (config : Config) :
    Operation Digest :=
  File.inDirectory dir name config fun path => ofFile path size algorithm config

/-- Puts the digest of the first `size` bytes of a file into a cell. The cell is zeroed first, and
stays so if the digest fails. -/
def intoCell (path : String) (size : Nat) (algorithm : Algorithm) (config : Config) :
    StateT Digest Program (Except Error Unit) := do
  set algorithm.zeroed
  match ← (ofFile path size algorithm config).run with
  | .ok value =>
    set value
    return .ok ()
  | .error e => return .error e

end Digest
end FlashVolume
