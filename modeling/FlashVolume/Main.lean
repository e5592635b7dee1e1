import FlashVolume.Shell.Session
/-!
# The command line

Section 10.7 of the specification: the binary.

A shell session on the host that the program runs on. This is the outer layer, and it decides
nothing: it takes the tree of the host over into a `HostSystem`, runs each line on that, stores what
has changed, and prints the reply. The host is taken for what its model is, a tree that one process
with all rights works on; a change that it refuses ends the program.
-/

namespace FlashVolume
namespace CommandLine

/-- The names on the way to a path of the host, from the root of its tree. -/
def locationOf (path : String) : List String :=
  (HostPath.ofText path).parts

/-- The path of a location. -/
def pathOf (location : List String) : String :=
  "/" ++ String.intercalate "/" location

/-- The contents of a file of the host. -/
def contentsOf (path : String) : IO Bytes := do
  return (← IO.FS.readBinFile path).toList

/-- Takes over what stands at a location of the host: nothing, a directory, or a file with its
contents. -/
def takeOver (h : HostSystem) (location : List String) : IO HostSystem := do
  let directory ← ((← IO.currentDir) / pathOf location).isDir
  if directory then return { h with nodes := h.nodes.insert location (.directory 0) }
  try
    let data ← contentsOf (pathOf location)
    let (number, h) := h.createFile location
    return h.setData number data
  catch _ => return h

/-- Takes over what stands at and below a location of the host. -/
partial def takeOverTree (h : HostSystem) (location : List String) : IO HostSystem := do
  let h ← takeOver h location
  if h.node? location ≠ some (.directory 0) then return h
  (← ((← IO.currentDir) / pathOf location).readDir).foldlM
    (fun h child => takeOverTree h (location ++ [child.fileName])) h

/-- The locations that a path leads through, from a location on. -/
def locationsOn : List String → List String → List (List String)
  | _, [] => []
  | location, part :: rest =>
    let next := if part = "." then location else if part = ".." then location.dropLast
      else location ++ [part]
    next :: locationsOn next rest

/-- The host with the settings files in the working directory. -/
def settled : IO HostSystem := do
  let location := locationOf (← IO.currentDir).toString
  -- No session looks at the numbers of the file system.
  let h := HostSystem.new (.ascending default) location
  (SettingsFile.bareName :: SettingsFile.names.map Prod.fst).foldlM
    (fun h name => takeOver h (location ++ [name])) h

/-- The host with what stands at and below the root of a volume, and on the way there. -/
def withRoot (h : HostSystem) (root : HostPath) : IO HostSystem := do
  let locations := locationsOn (if root.isAbsolute then [] else h.workingDirectory) root.parts
  let h ← locations.foldlM takeOver h
  takeOverTree h (locations.getLastD h.workingDirectory)

/-- Takes away from the host what is gone, and puts there what is new or has changed. -/
def store (before after : HostSystem) : IO Unit := do
  for (location, node) in before.nodes.toList.reverse do
    if after.node? location ≠ some node then
      match node with
      | .directory _ => IO.FS.removeDir (pathOf location)
      | .file _ => IO.FS.removeFile (pathOf location)
  for (location, node) in after.nodes.toList do
    match node with
    | .directory _ =>
      if before.node? location ≠ some node then IO.FS.createDir (pathOf location)
    | .file number =>
      if before.node? location ≠ some node ∨ before.data number ≠ after.data number then
        IO.FS.writeBinFile (pathOf location) ⟨(after.data number).toArray⟩

/-- Runs a program on the volume, and stores what it has changed. -/
def perform {α : Type} (volume : IO.Ref HostVolume) (p : Program α) : IO α := do
  let before ← volume.get
  let (a, after) := p.run HostVolume.backend before
  store before.system after.system
  volume.set after
  return a

/-- The variables of the environment of this process. -/
def environment : IO (List (String × String)) := do
  try
    let block ← contentsOf "/proc/self/environ"
    return ((Text.decodeLossy block).splitOn "\x00").filterMap fun line =>
      match line.splitOn "=" with
      | name :: value :: rest => some (name, String.intercalate "=" (value :: rest))
      | _ => none
  catch _ => return []

/-- Reads a line with its line break; nothing is left of the input if the line is empty. -/
partial def readLine (input : IO.FS.Stream) (line : Array UInt8) : IO Bytes := do
  let byte ← input.read 1
  match byte.toList with
  | [] => return line.toList
  | b :: _ => if b = 10 then return (line.push b).toList else readLine input (line.push b)

/-- Serves lines until the session ends, and answers its exit code. -/
partial def serve (volume : IO.Ref HostVolume) (config : Config) (input output : IO.FS.Stream) :
    IO UInt32 := do
  output.putStr Session.promptText
  output.flush
  let line ← readLine input #[]
  if line.isEmpty then return 0
  -- The machine gives what it can address.
  let _ : Allocator := .upTo Word.maxSigned64 Word.maxSigned64
  match ← perform volume (Session.step config line) with
  | .skip => serve volume config input output
  | .reply reply =>
    output.putStr (reply ++ "\n")
    serve volume config input output
  | .exit code => return UInt32.ofNat code

end CommandLine
end FlashVolume

open FlashVolume in
/-- Loads the configuration, mounts the volume, and serves the standard input. -/
def main : IO UInt32 := do
  let system ← CommandLine.settled
  match Config.load (Session.settingsFile? system) (← CommandLine.environment) with
  | .error e => return UInt32.ofNat e.exitCode
  | .ok config =>
    let root := HostPath.ofText config.hostRoot
    let volume ← IO.mkRef
      { mountPoint := config.mountPoint, root, system := ← CommandLine.withRoot system root }
    match ← CommandLine.perform volume ((MountState.mount config.mountPoint).run {}) with
    | (.error _, _) => return 1
    | (.ok (), _) => CommandLine.serve volume config (← IO.getStdin) (← IO.getStdout)
