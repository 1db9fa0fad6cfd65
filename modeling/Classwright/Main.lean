/-
The program on a real disk: the part of the disk that a command may touch is read, the command works on it as a value,
and what it made is written back.
-/
import Classwright.Console.Run

namespace Classwright.Program

/-- a place with the current directory as the way to name it -/
def located (p : Place) := do
  let here ← IO.currentDir
  pure (here / ("/" ++ Text.joinWith "/" p))

/-- the directories on the way to a place, as far as they are there -/
def loadWay (d : Disk) (p : Place) : IO Disk :=
  (List.range p.length).foldlM (fun d n => do
    let q := p.take n
    if ← (← located q).isDir then pure (d.withDirs q) else pure d) d

/-- a time of the disk in microseconds -/
def microseconds (t : IO.FS.SystemTime) : Int := t.sec * 1000000 + t.nsec.toNat / 1000

/-- the present time: that of a file which was just made -/
def present : IO Int := IO.FS.withTempFile fun _ q => do pure (microseconds (← q.metadata).modified)

/-- what stands at a place, without what is beneath it -/
def loadEntry (d : Disk) (p : Place) : IO Disk := do
  let d ← loadWay d p
  let q ← located p
  if ← q.isDir then pure ((d.withDirs p).setTime p (microseconds (← q.metadata).modified))
  else if ← q.pathExists then
    pure ((d.withFile p (← IO.FS.readBinFile q) Entry.defaultMode).setTime p (microseconds (← q.metadata).modified))
  else pure d

/-- what stands at a place, with all beneath it -/
partial def loadTree (d : Disk) (p : Place) : IO Disk := do
  let d ← loadEntry d p
  let q ← located p
  if ← q.isDir then (← q.readDir).foldlM (fun d e => loadTree d (p ++ [e.fileName])) d else pure d

/-- where a path leads from a directory -/
def placeOf (here : Place) (p : Path) : Place := Path.resolve (if p.isAbsolute then [] else here) p.parts

def loadDisk (s : Settings) (here : Place) (c : Console.Command) : IO Disk := do
  let start : Disk := Scaffold.install { items := [], here := here, now := ← present }
  let d ← loadEntry start here
  let d ← loadEntry d (placeOf here s.scratchRoot)
  let d ← loadEntry d (placeOf here (Path.ofString s.archiveName))
  let d ← c.filePaths.foldlM (fun d p => loadEntry d (placeOf here p)) d
  let trees := c.treePaths ++ s.templatePath.toList
  trees.foldlM (fun d p => loadTree d (placeOf here p)) d

def sameFile (before : Disk) (p : Place) (content : ByteArray) : Bool :=
  match before.get? p with
  | some (.file old _) => old.data == content.data
  | _ => false

/-- what is new on a disk, or has changed, written -/
def store (before after : Disk) : IO Unit :=
  (Work.inOrder after.items).forM fun (p, s) => do
    let q ← located p
    match s.entry with
    | .dir => if before.hasEntry p then pure () else IO.FS.createDirAll q
    | .file content mode =>
      if sameFile before p content then pure ()
      else do
        IO.FS.writeBinFile q content
        if mode == Scaffold.executableMode then
          IO.setAccessRights q ⟨⟨true, true, true⟩, ⟨true, false, true⟩, ⟨true, false, true⟩⟩
        else pure ()
    | .danglingLink => pure ()

/-- the settings of the process: its environment, and a file of variables in the current directory -/
def loadSettings : IO (Checked Settings) := do
  let here ← IO.currentDir
  let env ← Settings.names.filterMapM fun name => do pure ((← IO.getEnv name).map fun v => (name, v))
  let file := here / ".env"
  let text ← if ← file.pathExists then some <$> IO.FS.readFile file else pure none
  pure (Settings.read (Settings.Sources.ofTexts [] env text))

/-- the width of the terminal, if the environment tells it -/
def terminalColumns : IO Nat := do pure (((← IO.getEnv "COLUMNS").bind String.toNat?).getD 80)

def finish (o : Console.Outcome) : IO UInt32 := do
  IO.print o.out
  IO.eprint o.err
  match o.ending with
  | .code n | .stopped n => pure n.toUInt32
  | .fault f => do
    IO.eprintln f.text
    pure 1
  | .unmatched u => do
    IO.eprintln ("unmatched tag " ++ String.ofList u.name)
    pure 1

/-- a command carried out on the disk -/
def carryOut (s : Settings) (arguments : List String) (c : Console.Command) : IO UInt32 := do
  let here := (Path.ofString (← IO.currentDir).toString).parts
  let d ← loadDisk s here c
  let (o, w) := Console.run s (← terminalColumns) arguments { disk := d, serial := ← IO.rand 0 0xFFFFFFFF }
  store d w.disk
  finish o

end Classwright.Program

open Classwright in
def main (arguments : List String) : IO UInt32 := do
  match Console.Command.read arguments with
  | .error stop => Program.finish stop.outcome
  | .ok c =>
    match ← Program.loadSettings with
    | .ok s => Program.carryOut s arguments c
    | .error ps => do
      ps.forM fun p => IO.eprintln (p.location "" ++ ": " ++ p.cause.message)
      pure 1
