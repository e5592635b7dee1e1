import FlashVolume.Config.Load
import FlashVolume.Gate
import FlashVolume.Host.Volume
import FlashVolume.Shell.Reply
/-!
# Shell sessions

Section 10.7 of the specification: what the binary does with its input.

A session loads the configuration, mounts the volume, and then reads lines until `quit` or the
end of the input. Before each line it writes a prompt, after each reply a line break. Blank lines
are skipped. It ends with the exit code 0, or with 1 if the configuration is refused, the mount
fails, a line is not UTF-8, or a command is stopped by an overflow.

`step` is a session's work on one line, whatever the volume; `run` is a whole session on a host.
-/

namespace FlashVolume
namespace Session

/-- What stands before each line that is read. -/
def promptText : String := "fsu> "

/-- What a line leads to. -/
inductive Step where
  /-- The line is blank. -/
  | skip
  | reply (text : String)
  | exit (code : Nat)
deriving DecidableEq, Repr

/-- The work on one line, line break included if it has one. -/
def step [Allocator] (config : Config) (line : Bytes) : Program Step :=
  match Text.decode? line with
  | none => pure (.exit 1)
  | some text =>
    if (Text.trim text).isEmpty then pure .skip
    else do
      match ← Reply.ofCommand config (Command.parse text) with
      | .quit => return .exit 0
      | .text reply => return .reply reply
      | .overflow => return .exit 1

/-- Puts a byte in front of lines: a line break ends a line of its own. -/
def pushByte (b : UInt8) (lines : List Bytes) : List Bytes :=
  if b = 10 then [b] :: lines
  else
    match lines with
    | [] => [[b]]
    | line :: rest => (b :: line) :: rest

/-- The lines of an input, each with its line break; the last may have none. -/
def splitLines (input : Bytes) : List Bytes :=
  input.foldr pushByte []

/-- What a session has written, and its exit code. -/
structure Outcome where
  output : String
  exitCode : Nat
deriving DecidableEq, Repr

/-- The lines of a session, after what has been written before. -/
def converse [Allocator] (config : Config) : String → List Bytes → Program Outcome
  | output, [] => .ret ⟨output ++ promptText, 0⟩
  | output, line :: rest => do
    match ← step config line with
    | .skip => converse config (output ++ promptText) rest
    | .reply reply => converse config (output ++ promptText ++ reply ++ "\n") rest
    | .exit code => return ⟨output ++ promptText, code⟩

/-- A session on a volume that is not mounted yet. -/
def serve [Allocator] (config : Config) (input : Bytes) : Program Outcome := do
  match ← (MountState.mount config.mountPoint).run {} with
  | (.error _, _) => return ⟨"", 1⟩
  | (.ok (), _) => converse config "" (splitLines input)

/-- The settings file in the working directory: the first there is of those names, unless there is
one without an extension. A file that is not UTF-8 does not count. -/
def settingsFile? (h : HostSystem) : Option SettingsFile := do
  guard (¬ h.isFile (.ofText SettingsFile.bareName))
  let (name, format) ← SettingsFile.names.find? fun (name, _) => h.isFile (.ofText name)
  return ⟨format, ← Text.decode? (← h.fileContents? (.ofText name))⟩

/-- A whole session: settings, environment and input, on a host. -/
def run [Allocator] (env : List (String × String)) (input : Bytes) (h : HostSystem) :
    Outcome × HostSystem :=
  match Config.load (settingsFile? h) env with
  | .error e => (⟨"", e.exitCode⟩, h)
  | .ok config =>
    let volume : HostVolume :=
      { mountPoint := config.mountPoint, root := .ofText config.hostRoot, system := h }
    let (outcome, volume) := (serve config input).run HostVolume.backend volume
    (outcome, volume.system)

end Session
end FlashVolume
