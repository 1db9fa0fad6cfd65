/-
Work on a disk: steps that read and change it, report what they do, and may end in a fault. What was done before a fault
stays done.

- `Work.attempt` turns the fault of a step into a value, `Work.always` takes a last step whether or not the first failed;
- `makeDir`, `makeDirs`, `save`, `read`, `copyFile`, `copyTree`, `discard`, `discardTree`: what a file system
  offers, with its refusals; copies keep the times of what they are made from;
- `report` adds to the log.
-/
import Classwright.Disk.Basic
import Classwright.Fault
import Classwright.Log

namespace Classwright

/-- what work is done on: the disk, what was reported so far, and a number that was not used yet -/
structure World where
  disk : Disk := {}
  log : Log := []
  serial : Nat := 0

/-- a step on a world: an answer or a fault, and the world afterwards -/
def Work (α : Type) : Type := World → Except Fault α × World

namespace Work

instance : Monad Work where
  pure a := fun w => (.ok a, w)
  bind x f := fun w =>
    match x w with
    | (.ok a, w') => f a w'
    | (.error e, w') => (.error e, w')

def fail {α : Type} (f : Fault) : Work α := fun w => (.error f, w)

/-- a refusal of the disk at a path -/
def refuse {α : Type} (cause : DiskCause) (p : Path) : Work α := fail (.disk ⟨cause, p.toString⟩)

def disk : Work Disk := fun w => (.ok w.disk, w)

def setDisk (d : Disk) : Work Unit := fun w => (.ok (), { w with disk := d })

def report (e : LogEntry) : Work Unit := fun w => (.ok (), { w with log := w.log ++ [e] })

def reportAll (l : Log) : Work Unit := fun w => (.ok (), { w with log := w.log ++ l })

/-- a number that no earlier call has given -/
def nextSerial : Work Nat := fun w => (.ok w.serial, { w with serial := w.serial + 1 })

/-- the outcome of a step as a value -/
def attempt {α : Type} (x : Work α) : Work (Except Fault α) := fun w => (.ok (x w).1, (x w).2)

/-- a step, and then a last one whatever came of it; a fault of the first is passed on -/
def always {α : Type} (x : Work α) (last : Work Unit) : Work α := do
  let r ← attempt x
  last
  match r with
  | .ok a => pure a
  | .error f => fail f

def ofExcept {α : Type} : Except Fault α → Work α
  | .ok a => pure a
  | .error f => fail f

/-! ## Paths -/

def hasNull (p : Path) : Bool := p.parts.any fun n => n.toList.contains '\x00'

/-- the place a path leads to -/
def locate (p : Path) : Work Place := do
  if hasNull p then fail (.badValue "embedded null byte")
  else
    match (← disk).locate p with
    | .ok q => pure q
    | .error cause => refuse cause p

/-- what is at a path; nothing when the way to it is broken off -/
def entryAt? (p : Path) : Work (Option Entry) := do
  let d ← disk
  if hasNull p then pure none
  else
    match d.locate p with
    | .ok q => pure (d.get? q)
    | .error .nameTooLong => refuse .nameTooLong p
    | .error _ => pure none

/-- whether there is a file or a directory; a link that leads nowhere does not count -/
def exists? (p : Path) : Work Bool := do
  match ← entryAt? p with
  | some (.file ..) | some .dir => pure true
  | _ => pure false

def isFile (p : Path) : Work Bool := do pure (((← entryAt? p).map Entry.isFile).getD false)

def isDir (p : Path) : Work Bool := do pure (((← entryAt? p).map Entry.isDir).getD false)

/-! ## Directories -/

/-- the cause why nothing can be made at a place: what its directory is -/
def parentCause (d : Disk) (q : Place) : Option DiskCause := d.enter q.dropLast

/-- a new directory; there must be nothing at the path -/
def makeDir (p : Path) : Work Unit := do
  let q ← locate p
  let d ← disk
  if d.hasEntry q then refuse .exists p
  else
    match parentCause d q with
    | some cause => refuse cause p
    | none => setDisk (d.put q .dir)

/-- a directory that may be there already -/
def ensureDir (p : Path) : Work Unit := do
  match ← attempt (makeDir p) with
  | .ok () => pure ()
  | .error f =>
    match f with
    | .disk ⟨.missing, _⟩ => fail f
    | .disk _ => if ← isDir p then pure () else fail f
    | _ => fail f

/-- what a refusal says when a directory on the way is missing -/
def isMissing : Fault → Bool
  | .disk ⟨.missing, _⟩ => true
  | _ => false

/-- a directory and those above it, the names given innermost first -/
def makeDirsUp (root : String) (last : Path → Work Unit) : List String → Work Unit
  | [] => last ⟨root, []⟩
  | name :: up => do
    let p : Path := ⟨root, (name :: up).reverse⟩
    match ← attempt (last p) with
    | .ok () => pure ()
    | .error f =>
      if isMissing f then do
        makeDirsUp root ensureDir up
        last p
      else fail f

/-- a directory with those above it, each of which may be there already -/
def makeDirs (p : Path) : Work Unit := makeDirsUp p.root ensureDir p.parts.reverse

/-- a new directory with those above it -/
def makeNewDir (p : Path) : Work Unit := makeDirsUp p.root makeDir p.parts.reverse

/-! ## Files -/

def read (p : Path) : Work ByteArray := do
  let q ← locate p
  match (← disk).get? q with
  | some (.file content _) => pure content
  | some .dir => refuse .isDirectory p
  | _ => refuse .missing p

/-- a file with a content, its mode kept when it was there before -/
def save (p : Path) (content : ByteArray) : Work Unit := do
  let q ← locate p
  let d ← disk
  match d.get? q with
  | some .dir => refuse .isDirectory p
  | some (.file _ mode) => setDisk (d.put q (.file content mode))
  | _ =>
    match parentCause d q with
    | some cause => refuse cause p
    | none => setDisk (d.put q (.file content Entry.defaultMode))

def setMode (p : Path) (mode : Nat) : Work Unit := do
  let q ← locate p
  let d ← disk
  match d.get? q with
  | some (.file content _) => setDisk { d with items := Table.set d.items q ⟨.file content mode, d.timeOf q⟩ }
  | some .dir => pure ()
  | _ => refuse .missing p

def discard (p : Path) : Work Unit := do
  let q ← locate p
  let d ← disk
  match d.get? q with
  | some (.file ..) | some .danglingLink => setDisk (d.erase q)
  | some .dir => refuse .isDirectory p
  | none => refuse .missing p

/-- a directory with all beneath it -/
def discardTree (p : Path) : Work Unit := do
  let q ← locate p
  let d ← disk
  match d.get? q with
  | some .dir => setDisk (d.erase q)
  | none => refuse .missing p
  | _ => refuse .notDirectory p

/-- the content of a file copied to a path -/
def copyContent (source target : Path) : Work Unit := do
  let content ← read source
  save target content

/-- what is at a path takes the time of what is at another -/
def copyTime (source target : Path) : Work Unit := do
  let p ← locate source
  let q ← locate target
  let d ← disk
  setDisk (d.setTime q (d.timeOf p))

/-- a file copied with its time and its mode; into a directory it goes under its own name -/
def copyFile (source target : Path) : Work Unit := do
  let into ← isDir target
  let p := if into then target.join ⟨"", source.parts.drop (source.parts.length - 1)⟩ else target
  copyContent source p
  copyTime source p
  match ← entryAt? source with
  | some (.file _ mode) => setMode p mode
  | _ => pure ()

/-- order of what is beneath a directory: name by name, so that a directory comes before what it holds -/
def inOrder {α : Type} (xs : List (List String × α)) : List (List String × α) :=
  xs.mergeSort fun a b => Path.precedes a.1 b.1

/-- one part of a tree copied; whether it could be -/
def copyPart (source target : Path) (part : List String × Entry) : Work Bool := do
  let p := target.join ⟨"", part.1⟩
  let r ← attempt (match part.2 with
    | .dir => makeDirs p
    | _ => copyFile (source.join ⟨"", part.1⟩) p)
  match r with
  | .ok () => pure true
  | .error _ => pure false

def copyParts (source target : Path) : List (List String × Entry) → Work Bool
  | [] => pure true
  | part :: rest => do
    let done ← copyPart source target part
    let others ← copyParts source target rest
    pure (done && others)

/-- a directory that was copied takes the time of the one it comes from, if it could be made -/
def settleDir (source target : Path) (names : List String) : Work Unit := do
  let p := target.join ⟨"", names⟩
  let _ ← attempt (do if ← isDir p then copyTime (source.join ⟨"", names⟩) p else pure ())
  pure ()

/-- a directory copied over what may be there already. What comes into a directory changes its time, so the times of
directories are copied last -/
def copyTree (source target : Path) : Work Unit := do
  let q ← locate source
  let parts := inOrder ((← disk).under q)
  makeDirs target
  let done ← copyParts source target parts
  ([] :: (parts.filter fun part => part.2.isDir).map Prod.fst).forM (settleDir source target)
  if done then pure () else refuse .incomplete target

/-- the files beneath a path, in the order of their names -/
def filesUnder (p : Path) : Work (List (List String × ByteArray)) := do
  let q ← locate p
  pure (inOrder ((← disk).filesUnder q))

end Work

end Classwright
