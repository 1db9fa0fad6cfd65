/-
Workspaces: a directory of its own for each request, with the archive beside it, which are removed exactly once.

- `Workspace.enter` makes the directory and refuses one that is there already;
- `Workspace.release` removes directory and archive the first time it is called and does nothing ever after; what cannot
  be removed is worth a warning only;
- `Workspace.stream`: the archive in chunks, the workspace released at the end;
- `Workspace.purge`: what an earlier process left behind is removed when it is old enough.
-/
import Classwright.Disk.Work
import Classwright.Glob

namespace Classwright

structure Workspace where
  root : Path
  name : String
  released : Bool := false
  deriving DecidableEq, Repr

namespace Workspace

def projectDir (w : Workspace) : Path := w.root.child w.name

def archivePath (w : Workspace) : Path := w.root.child (w.name ++ ".zip")

/-- a name made from a prefix, the time in milliseconds and eight hexadecimal digits -/
def stampedName (namePrefix : String) (microseconds : Int) (serial : Nat) : String :=
  namePrefix ++ "-" ++ Int.repr (microseconds / 1000) ++ "-" ++ String.ofList (Text.hexDigits 8 serial)

/-- a workspace beneath a root; without a name it gets one that was never used -/
def allocate (root : Path) (namePrefix name : String) : Work Workspace := do
  if name.isEmpty then do
    let serial ← Work.nextSerial
    pure ⟨root, stampedName namePrefix (← Work.disk).now serial, false⟩
  else pure ⟨root, name, false⟩

/-- the directory made; it must not be there already -/
def enter (w : Workspace) : Work Unit := Work.makeNewDir w.projectDir

/-- a removal that is allowed to fail -/
def tryRemove (path : Path) (removal : Work Unit) : Work Unit := do
  match ← Work.attempt removal with
  | .ok () => pure ()
  | .error (.disk ⟨.missing, _⟩) => pure ()
  | .error (.disk _) => Work.report (LogEntry.warning ("[Workspace] Failed to remove " ++ path.toString))
  | .error f => Work.fail f

/-- directory and archive removed -/
def clear (w : Workspace) : Work Unit := do
  if ← Work.exists? w.projectDir then tryRemove w.projectDir (Work.discardTree w.projectDir) else pure ()
  tryRemove w.archivePath (Work.discard w.archivePath)
  Work.report (LogEntry.debug ("[Workspace] Released " ++ w.name))

/-- directory and archive removed, unless they were before. The workspace counts as released whatever came of it -/
def release (w : Workspace) : Work (Except Fault Unit × Workspace) := do
  if w.released then pure (.ok (), w)
  else pure (← Work.attempt w.clear, { w with released := true })

/-! ## Streaming -/

/-- one read: at most so many bytes, everything for -1 -/
def readChunk (size : Int) (bs : List UInt8) : Except Fault (List UInt8) :=
  if 0x8000000000000000 ≤ size ∨ size < -0x8000000000000000 then .error .tooLarge
  else if size < -1 then .error (.badValue "read length must be non-negative or -1")
  else if size = -1 then .ok bs
  else .ok (bs.take size.toNat)

/-- the chunks of a content up to the first read that gives nothing, at most `limit` of them -/
def chunks (size : Int) : Nat → List UInt8 → Except Fault (List (List UInt8))
  | 0, _ => .ok []
  | limit + 1, bs =>
    match readChunk size bs with
    | .error f => .error f
    | .ok [] => .ok []
    | .ok (b :: rest) => (chunks size limit (bs.drop (rest.length + 1))).map ((b :: rest) :: ·)

/-- every chunk of a content -/
def allChunks (size : Int) (bs : List UInt8) : Except Fault (List (List UInt8)) := chunks size (bs.length + 1) bs

/-- the archive in chunks, or the first so many of them when the reader stops early. The workspace is released when the
stream ends, whichever way it ends -/
def stream (w : Workspace) (size : Int) (stop : Option Nat) : Work (Except Fault (List (List UInt8)) × Workspace) := do
  let read : Work (List (List UInt8)) := do
    let bs := (← Work.read w.archivePath).data.toList
    Work.ofExcept (match stop with
      | some n => chunks size n bs
      | none => allChunks size bs)
  let r ← Work.attempt read
  let (last, w) ← w.release
  pure (match last with
    | .ok () => r
    | .error f => .error f, w)

/-! ## Leftovers -/

/-- the pattern of the names that workspaces with a prefix have -/
def leftoverPattern (namePrefix : String) : String := namePrefix ++ "-*"

/-- the entries beneath a root that a prefix finds, as paths -/
def leftovers (root : Path) (namePrefix : String) : Work (List Path) := do
  let pattern := Path.ofString (leftoverPattern namePrefix)
  if pattern.isAbsolute then Work.fail .unsupported
  else if pattern.parts.any Glob.isMalformed then
    Work.fail (.badValue "Invalid pattern: '**' can only be an entire path component")
  else do
    let p ← Work.locate root
    pure ((Glob.select (← Work.disk) p pattern.parts).map fun names => root.join ⟨"", names⟩)

/-- one entry removed when it is older than a limit in microseconds; whether it was -/
def purgeOne (limit : Int) (path : Path) : Work Bool := do
  let r ← Work.attempt (do
    let p ← Work.locate path
    let d ← Work.disk
    match d.get? p with
    | none | some .danglingLink => Work.refuse .missing path
    | some e =>
      if d.now - limit ≤ d.timeOf p then pure false
      else do
        if e.isDir then Work.discardTree path else Work.discard path
        pure true)
  match r with
  | .ok removed => pure removed
  | .error (.disk _) => do
    Work.report (LogEntry.warning ("[Workspace] Failed to purge " ++ path.toString))
    pure false
  | .error f => Work.fail f

def purgeAll (limit : Int) : List Path → Work Nat
  | [] => pure 0
  | path :: rest => do
    let removed ← purgeOne limit path
    let more ← purgeAll limit rest
    pure (if removed then more + 1 else more)

/-- the workspaces of an earlier process removed when they are old enough; the number of entries removed -/
def purge (root : Path) (namePrefix : String) (limit : Int) : Work Nat := do
  if ← Work.isDir root then do purgeAll limit (← leftovers root namePrefix) else pure 0

end Workspace

end Classwright
