import FlashVolume.Digest.Algorithm
import FlashVolume.Storage.Entry
import FlashVolume.Text.Blank
import FlashVolume.Text.Numeral
/-!
# Commands

Section 10.7 of the specification: `parse_command`.

A command line is a word and its arguments, separated by blanks:

```text
quit | q                       read <path> [offset]        sha256 <path> [size]
ls <dir>                       write <path> <text>         crc32 <path> [size]
find [-d] <dir> [name]         append <path> <text>        mkdir [-p] <path>
rm <path>                      size <path>                 history <dir> <prefix>
rmall <dir> [name]             exists <dir> <name>
```

The command word is read without regard to the case of ASCII letters. Arguments are words, but
the text of `write` and `append` is all that follows the blank behind the path, up to the blanks
at the end of the line. A line that has the word of a command and not its arguments is answered
with the usage, a line with another word is unknown.
-/

namespace FlashVolume

/-- The commands, by what their usage says. -/
inductive Usage where
  | ls
  | find
  | read
  | write
  | append
  | rm
  | rmall
  | size
  | unique
  | digest
  | mkdir
  | history
deriving DecidableEq, Repr

/-- The text of a usage. -/
def Usage.text : Usage → String
  | ls => "ls <dir>"
  | find => "find [-d] <dir> [name]"
  | read => "read <path> [offset]"
  | write => "write <path> <text>"
  | append => "append <path> <text>"
  | rm => "rm <path>"
  | rmall => "rmall <dir> [name]"
  | size => "size <path>"
  | unique => "exists <dir> <name>"
  | digest => "sha256|crc32 <path> [size]"
  | mkdir => "mkdir [-p] <path>"
  | history => "history <dir> <prefix>"

/-- A command. -/
inductive Command where
  | quit
  | ls (dir : String)
  | find (dir name : String) (kind : EntryKind)
  | read (path : String) (offset : Nat)
  | write (path data : String)
  | append (path data : String)
  | rm (path : String)
  | rmall (dir name : String)
  | size (path : String)
  | unique (dir name : String)
  | digest (algorithm : Algorithm) (path : String) (size : Option Nat)
  | mkdir (path : String) (recursive : Bool)
  | history (dir stem : String)
  | usage (usage : Usage)
  | unknown (line : String)
deriving DecidableEq, Repr

namespace Command

/-- The arguments of `find`. -/
def ofFindWords : List String → Command
  | ["-d", dir] => find dir "" .directory
  | ["-d", dir, name] => find dir name .directory
  | [dir] => find dir "" .file
  | [dir, name] => find dir name .file
  | _ => usage .find

/-- The arguments of `read`. -/
def ofReadWords : List String → Command
  | [path] => read path 0
  | [path, offset] =>
    match Text.unsigned64? offset with
    | some n => read path n
    | none => usage .read
  | _ => usage .read

/-- The arguments of `rmall`. -/
def ofRmallWords : List String → Command
  | [dir] => rmall dir ""
  | [dir, name] => rmall dir name
  | _ => usage .rmall

/-- The arguments of `sha256` and `crc32`. -/
def ofDigestWords (algorithm : Algorithm) : List String → Command
  | [path] => digest algorithm path none
  | [path, length] =>
    match Text.unsigned64? length with
    | some n => digest algorithm path (some n)
    | none => usage .digest
  | _ => usage .digest

/-- The arguments of `mkdir`. -/
def ofMkdirWords : List String → Command
  | [path] => mkdir path false
  | ["-p", path] => mkdir path true
  | _ => usage .mkdir

/-- The arguments of a command that takes one word. -/
def ofWord (make : String → Command) (fallback : Usage) : List String → Command
  | [word] => make word
  | _ => usage fallback

/-- The arguments of a command that takes two words. -/
def ofTwoWords (make : String → String → Command) (fallback : Usage) : List String → Command
  | [first, second] => make first second
  | _ => usage fallback

/-- The arguments of a command that takes a path and a text. -/
def ofPathAndText (make : String → String → Command) (fallback : Usage) (argument : String) :
    Command :=
  let (path, text) := Text.splitAtBlank argument
  if path.isEmpty then usage fallback else make path (text.getD "")

/-- The command of a line. -/
def parse (line : String) : Command :=
  let trimmed := Text.trim line
  let (word, rest) := Text.splitAtBlank trimmed
  let argument := Text.trim (rest.getD "")
  let words := Text.words argument
  match word.toLower with
  | "quit" | "q" => quit
  | "ls" => ofWord ls .ls words
  | "find" => ofFindWords words
  | "read" => ofReadWords words
  | "write" => ofPathAndText write .write argument
  | "append" => ofPathAndText append .append argument
  | "rm" => ofWord rm .rm words
  | "rmall" => ofRmallWords words
  | "size" => ofWord size .size words
  | "exists" => ofTwoWords unique .unique words
  | "sha256" => ofDigestWords .sha256 words
  | "crc32" => ofDigestWords .crc32 words
  | "mkdir" => ofMkdirWords words
  | "history" => ofTwoWords history .history words
  | _ => unknown trimmed

end Command
end FlashVolume
