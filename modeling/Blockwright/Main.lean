import Blockwright.CommandLine.Run
import Std.Time

/-!
# The program

The command line on the disk of the machine. The files that an invocation names are read first,
then it is carried out, and then the files that it has written are saved.
-/

namespace Blockwright

namespace Main

/-- The place where the program is started. -/
def startingPlace : IO Place := do
  let pieces := Text.splitOnChar '/' (← IO.currentDir).toString
  return pieces.filter (· != "")

/-- The disk with the file at a path, or with all files of the folder there. -/
def load (home : Place) (disk : Disk) (path : String) : IO Disk := do
  let keep (disk : Disk) (path : String) (bytes : ByteArray) : Disk :=
    (disk.store home path bytes).toOption.getD disk
  try
    let real ← IO.FS.realPath path
    if ← real.isDir then
      let made := disk.makeFolders (Disk.start home path) (Text.splitOnChar '/' path)
      let mut disk := (made.toOption.map Prod.fst).getD disk
      for found in ← real.walkDir do
        unless ← found.isDir do
          let below := (Text.dropStart? (real.toString ++ "/") found.toString).getD ""
          disk := keep disk (Path.append path below) (← IO.FS.readBinFile found)
      return disk
    else
      return keep disk path (← IO.FS.readBinFile real)
  catch _ => return disk

/-- Saves the files that differ between two disks. -/
def save (before after : Disk) : IO Unit := do
  for (place, node) in after.nodes do
    if let .file bytes := node then
      let same :=
        match before.node? place with
        | some (.file old) => old == bytes
        | _ => false
      unless same do
        IO.FS.createDirAll ("/" ++ Text.join "/" place.dropLast)
        IO.FS.writeBinFile ("/" ++ Text.join "/" place) bytes

/-- The values of the variables that override settings. -/
def statedValues : IO (List (String × String)) := do
  let names := [Settings.sourceVariable, Settings.versionVariable, Settings.retryVariable]
  let stated ← names.mapM fun name => do return (← IO.getEnv name).map (name, ·)
  return stated.filterMap id

/-- The text of an id of sixteen bytes, marked as a random one. -/
def runId (bytes : List UInt8) : String :=
  let digits := Bytes.hex (bytes.mapIdx fun position byte =>
    if position = 6 then byte &&& 0x0f ||| 0x40
    else if position = 8 then byte &&& 0x3f ||| 0x80
    else byte)
  let part (first count : Nat) : String :=
    String.ofList ((digits.toList.drop first).take count)
  Text.join "-" [part 0 8, part 8 4, part 12 4, part 16 4, part 20 12]

/-- The time in universal time. -/
def createdAt : IO String := do
  let now ← Std.Time.Timestamp.now
  return (Std.Time.DateTime.ofTimestamp now .UTC).format "uuuu-MM-dd'T'HH:mm:ss.SSSSSSSSS'Z'"

/-- Carries out an invocation and returns its status. -/
def carryOut (invocation : CommandLine.Invocation) : IO UInt32 := do
  let home ← startingPlace
  let stated ← statedValues
  let disk ← invocation.paths.foldlM (load home) (Disk.ofFiles home [])
  let host : CommandLine.Host := {
    disk
    home
    stated := fun name => stated.lookup name
    runId := runId (Bytes.list (← IO.getRandomBytes 16))
    createdAt := ← createdAt }
  let source :=
    match CommandLine.settingsOf host invocation with
    | .ok settings => settings.source
    | .error _ => none
  let host := { host with disk := ← source.toList.foldlM (load home) disk }
  let (report, disk) := CommandLine.invoke host invocation
  save host.disk disk
  if let some answer := report.answer then IO.print answer.pretty
  return UInt32.ofNat report.status

end Main

end Blockwright

/-- Carries out what the arguments state. -/
def main (arguments : List String) : IO UInt32 := do
  match Blockwright.CommandLine.parse arguments with
  | .ok invocation => Blockwright.Main.carryOut invocation
  | .error refusal =>
    let report := Blockwright.CommandLine.Report.ofRefusal refusal
    if report.status = 0 then IO.print Blockwright.CommandLine.usage
    else IO.eprint Blockwright.CommandLine.usage
    return UInt32.ofNat report.status
