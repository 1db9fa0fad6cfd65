/-
The archive of a project: every file beneath a directory, in ascending order of paths, checked after it was written. The
format knows no dates before 1980 or after 2107, so a file that was last changed then is refused.

- `Archive.verify`: whether bytes are an archive with so many intact members;
- `Archive.create`: the archive of a directory;
- `Archive.entries?`: names, methods and contents of an archive.
-/
import Classwright.Archive.Zip
import Classwright.Disk.Work

namespace Classwright.Archive

/-- characters above ASCII in names that are not marked as UTF-8 -/
def codePage : List Char :=
  ("ÇüéâäàåçêëèïîìÄÅÉæÆôöòûùÿÖÜ¢£¥₧ƒáíóúñÑªº¿⌐¬½¼¡«»░▒▓│┤╡╢╖╕╣║╗╝╜╛┐└┴┬├─┼╞╟╚╔╩╦╠═╬╧╨╤╥╙╘╒╓╫╪┘┌█▄▌▐▀" ++
    "αßΓπΣσµτΦΘΩδ∞φε∩≡±≥≤⌠⌡÷≈°∙·√ⁿ²■\u00a0").toList

def codePageChar (b : UInt8) : Char :=
  if b < 128 then Char.ofNat b.toNat else (codePage[b.toNat - 128]?).getD ' '

def text? (bs : List UInt8) : Option String := String.fromUTF8? ⟨bs.toArray⟩

/-- the name in an entry -/
def Listed.nameText (e : Listed) : String :=
  match if e.flags / utf8Flag % 2 = 1 then text? e.name else none with
  | some s => s
  | none => String.ofList (e.name.map codePageChar)

def fault (message : String) (path : Path) : Fault :=
  .service (ServiceError.archive (.str message) (.str path.toString))

/-- the entry that a name stands for: the last one that carries it -/
def named (es : List Listed) (e : Listed) : Listed := (es.reverse.find? fun o => o.name == e.name).getD e

/-- the first member that cannot be read; a position before the start is a fault of its own -/
def firstCorrupt (bs : List UInt8) (path : Path) (all : List Listed) : List Listed → Except Fault (Option String)
  | [] => .ok none
  | e :: rest =>
    let e := named all e
    if e.offset < 0 then .error (.disk ⟨.badPosition, path.toString⟩)
    else if (content? bs e).isNone then .ok (some e.nameText)
    else firstCorrupt bs path all rest

/-- whether bytes are an archive with intact members, as many as expected -/
def verify (path : Path) (bs : List UInt8) (expected : Nat) : Except Fault Unit :=
  match directory bs with
  | .error reason => .error (fault ("Generated zip is unreadable: " ++ reason) path)
  | .ok es =>
    match firstCorrupt bs path es es with
    | .error f => .error f
    | .ok (some name) => .error (fault ("Generated zip has a corrupt member: " ++ name) path)
    | .ok none =>
      if es.length = expected then .ok ()
      else
        .error (fault ("Generated zip has " ++ Nat.repr es.length ++ " entries, expected " ++ Nat.repr expected) path)

/-- names, methods and contents, in the order of the directory -/
def entries? (bs : List UInt8) : Option (List (String × Nat × List UInt8)) :=
  (directory bs).toOption.map fun es => es.map fun e => (e.nameText, e.method, (content? bs e).getD [])

/-! ## Creating -/

structure Result where
  path : Path
  entries : List String
  size : Nat

/-- compression levels: from none to best, and below them the customary one -/
def isLevel (level : Int) : Bool := decide (-1 ≤ level ∧ level ≤ 9)

/-- what is wrong with a level: a member cannot be begun with it, and the archive not be ended behind it. Contents are
stored, so a level has no other effect -/
def levelFault : Fault :=
  .badValue ("Can't close the ZIP file while there is an open writing handle on it. Close the writing handle before " ++
    "closing the zip.")

/-- whether a moment has a date that can be written -/
def isDatable (time : Int) : Bool :=
  let year := (Calendar.readingAt time).year
  decide (firstYear ≤ year ∧ year ≤ lastYear)

/-- what is wrong with the date of a member -/
def dateFault (m : Member) : Fault :=
  if (Calendar.readingAt m.time).year < firstYear then .badValue "ZIP does not support timestamps before 1980"
  else .halted "ushort format requires 0 <= number <= 65535"

/-- the first moment that has a date -/
def firstMoment : Int := 315532800000000

/-- the members for files, in ascending order of their paths; a file whose time is not told gets the first date -/
def membersOf (files : List (List String × ByteArray)) (time : List String → Int := fun _ => firstMoment) : List Member :=
  (files.map fun f => ⟨Text.joinWith "/" f.1, f.2, time f.1⟩).mergeSort fun a b => Text.precedes a.name b.name

/-- the greatest position in a file -/
def positionLimit : Nat := 0x7FFFFFFFFFFFFFFF

/-- members written to a path: those before the first that has no date stay written when that one is refused -/
def writeMembers (level : Int) (ms : List Member) (path : Path) : Work Unit := do
  Work.save path ⟨#[]⟩
  let dated := ms.takeWhile fun m => isDatable m.time
  let bytes := encode dated
  if !dated.isEmpty && !isLevel level then Work.fail levelFault
  else if positionLimit < bytes.length then Work.refuse .badPosition path
  else do
    Work.save path ⟨bytes.toArray⟩
    match ms.drop dated.length with
    | [] => pure ()
    | m :: _ => Work.fail (dateFault m)

/-- the archive of a directory, written to a path -/
def create (level : Int) (source path : Path) : Work Result := do
  if !(← Work.isDir source) then
    Work.fail (fault ("Project folder not found at " ++ source.toString) path)
  else do
    let top ← Work.locate source
    let d ← Work.disk
    let ms := membersOf (← Work.filesUnder source) fun names => d.clock (d.timeOf (top ++ names))
    writeMembers level ms path
    if ms.isEmpty then Work.fail (.service (ServiceError.emptyArchive (.str path.toString)))
    else do
      let bytes ← Work.read path
      Work.ofExcept (verify path bytes.data.toList ms.length)
      Work.report (LogEntry.info ("[Archiver] Created ZIP: " ++ path.toString ++ " (" ++ Nat.repr ms.length ++
        " entries, " ++ Nat.repr bytes.size ++ " bytes)"))
      pure ⟨path, ms.map Member.name, bytes.size⟩

end Classwright.Archive
