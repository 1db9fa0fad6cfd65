/-
Archives in the ZIP format.

An archive holds its members one after the other, each behind a header with its name, date, size and checksum, then a
directory that repeats the headers with the position of each member, and at the very end a record that says where the
directory is. Names are marked as UTF-8 when they are not ASCII. Contents are deflate streams made of stored blocks. Numbers
that are too large for the fields of the format are written once more in eight bytes: those of a member in an extra field,
those of the directory in records of their own before the last one.

- `Member`, `encode`: the bytes of an archive;
- `directory`: the directory of an archive, or what is wrong with the bytes;
- `content?`: the content of a member, or nothing when the bytes at its position do not hold it.
-/
import Classwright.Archive.Bytes
import Classwright.Calendar
import Classwright.Text.Quoted

namespace Classwright.Archive

structure Member where
  name : String
  content : ByteArray
  /-- the moment that is written as its date, as the clocks show it -/
  time : Int

/-! ## Writing -/

def localSignature : List UInt8 := [0x50, 0x4B, 3, 4]

def directorySignature : List UInt8 := [0x50, 0x4B, 1, 2]

def endSignature : List UInt8 := [0x50, 0x4B, 5, 6]

def largeEndSignature : List UInt8 := [0x50, 0x4B, 6, 6]

def locatorSignature : List UInt8 := [0x50, 0x4B, 6, 7]

/-- the flag of a name that is written in UTF-8 -/
def utf8Flag : Nat := 0x800

def nameBytes (name : String) : List UInt8 := name.toUTF8.data.toList

def nameFlags (name : String) : Nat := if name.toList.all fun c => c.toNat < 128 then 0 else utf8Flag

/-- the greatest size of a stored block -/
def blockLimit : Nat := 65535

/-- the method of a deflate stream -/
def deflateMethod : Nat := 8

def block (last : Bool) (bs : List UInt8) : List UInt8 :=
  (if last then 1 else 0) :: little 2 bs.length ++ little 2 (blockLimit - bs.length) ++ bs

/-- a deflate stream of stored blocks, at most `fuel` of them before the last -/
def storedBlocks : Nat → List UInt8 → List UInt8
  | 0, bs => block true bs
  | fuel + 1, bs =>
    if bs.length ≤ blockLimit then block true bs
    else block false (bs.take blockLimit) ++ storedBlocks fuel (bs.drop blockLimit)

def deflate (bs : List UInt8) : List UInt8 := storedBlocks (bs.length / blockLimit) bs

/-! ### Dates -/

/-- the years that a date can have -/
def firstYear : Int := 1980

def lastYear : Int := 2107

/-- a date in two bytes: seven bits for the year, four for the month and five for the day -/
def dateStamp (r : Calendar.Reading) : Nat := (r.year - firstYear).toNat * 512 + r.month * 32 + r.day

/-- a time of day in two bytes, by steps of two seconds -/
def timeStamp (r : Calendar.Reading) : Nat := r.hour * 2048 + r.minute * 32 + r.second / 2

/-! ### Large numbers -/

/-- numbers above are written in eight bytes -/
def wideLimit : Nat := 0x7FFFFFFF

def isWide (n : Nat) : Bool := wideLimit < n

/-- what stands in the four bytes of a number that is written elsewhere -/
def wideMark : Nat := 0xFFFFFFFF

/-- a number in four bytes, unless it is written elsewhere -/
def narrow (elsewhere : Bool) (n : Nat) : List UInt8 := little 4 (if elsewhere then wideMark else n)

/-- the kind of the extra field that holds large numbers -/
def wideKind : Nat := 1

/-- the extra field with the numbers that are written elsewhere, if there are any -/
def extraField (ns : List Nat) : List UInt8 :=
  if ns.isEmpty then [] else little 2 wideKind ++ little 2 (8 * ns.length) ++ ns.flatMap (little 8)

/-- the version of the format that a reader has to know -/
def version (large : Bool) : Nat := if large then 45 else 20

namespace Member

def bytes (m : Member) : List UInt8 := m.content.data.toList

def packed (m : Member) : List UInt8 := deflate m.bytes

/-- a size that may become too large on packing: a twentieth is added -/
def mayGrow (m : Member) : Bool := wideLimit * 20 < m.bytes.length * 21

/-- a size that turned out too large -/
def isLarge (m : Member) : Bool := isWide m.bytes.length || isWide m.packed.length

/-- the sizes, if they are written elsewhere -/
def wideSizes (m : Member) (elsewhere : Bool) : List Nat := if elsewhere then [m.bytes.length, m.packed.length] else []

end Member

/-! ### Records -/

/-- what the header of a member and its directory entry have in common: flags, method, time and date, checksum, sizes, and
the sizes of what follows -/
def description (m : Member) (elsewhere : Bool) (extra : List UInt8) : List UInt8 :=
  let shown := Calendar.readingAt m.time
  little 2 (nameFlags m.name) ++ little 2 deflateMethod ++ little 2 (timeStamp shown) ++ little 2 (dateStamp shown) ++
    little 4 (checksum m.bytes) ++ narrow elsewhere m.packed.length ++ narrow elsewhere m.bytes.length ++
    little 2 (nameBytes m.name).length ++ little 2 extra.length

/-- a member behind its header -/
def localRecord (m : Member) : List UInt8 :=
  let extra := extraField (m.wideSizes m.mayGrow)
  localSignature ++ little 2 (version m.mayGrow) ++ description m m.mayGrow extra ++ nameBytes m.name ++ extra ++ m.packed

/-- the extra field of the directory entry of a member at a position -/
def entryExtra (m : Member) (offset : Nat) : List UInt8 :=
  extraField (m.wideSizes m.isLarge ++ if isWide offset then [offset] else [])

/-- the directory entry of a member at a position -/
def directoryRecord (m : Member) (offset : Nat) : List UInt8 :=
  let extra := entryExtra m offset
  let needed := little 2 (version (m.mayGrow || !extra.isEmpty))
  directorySignature ++ needed ++ needed ++ description m m.isLarge extra ++ little 2 0 ++ little 2 0 ++ little 2 0 ++
    little 4 0 ++ narrow (isWide offset) offset ++ nameBytes m.name ++ extra

def directoryRecords (offset : Nat) : List Member → List UInt8
  | [] => []
  | m :: rest => directoryRecord m offset ++ directoryRecords (offset + (localRecord m).length) rest

/-- the greatest number of members that is written in two bytes -/
def countLimit : Nat := 0xFFFF

def isLargeDirectory (count size offset : Nat) : Bool := countLimit < count || isWide offset || isWide size

/-- what is said of a large directory, and where that is -/
def largeRecords (count size offset : Nat) : List UInt8 :=
  largeEndSignature ++ little 8 44 ++ little 2 (version true) ++ little 2 (version true) ++ little 4 0 ++ little 4 0 ++
    little 8 count ++ little 8 count ++ little 8 size ++ little 8 offset ++
    (locatorSignature ++ little 4 0 ++ little 8 (offset + size) ++ little 4 1)

def endRecord (count size offset : Nat) : List UInt8 :=
  endSignature ++ little 2 0 ++ little 2 0 ++ little 2 (min count countLimit) ++ little 2 (min count countLimit) ++
    little 4 (min size wideMark) ++ little 4 (min offset wideMark) ++ little 2 0

/-- what stands behind a directory -/
def ending (count size offset : Nat) : List UInt8 :=
  (if isLargeDirectory count size offset then largeRecords count size offset else []) ++ endRecord count size offset

/-- the bytes of an archive -/
def encode (ms : List Member) : List UInt8 :=
  let members := ms.flatMap localRecord
  let dir := directoryRecords 0 ms
  members ++ dir ++ ending ms.length dir.length members.length

/-! ## Reading the directory -/

def startsWith (sig bs : List UInt8) : Bool := sig.isPrefixOf bs

/-- the position of the last occurrence of a signature -/
def lastIndex? (sig : List UInt8) (position : Nat) : List UInt8 → Option Nat
  | [] => none
  | b :: rest =>
    match lastIndex? sig (position + 1) rest with
    | some i => some i
    | none => if startsWith sig (b :: rest) then some position else none

def endSize : Nat := 22

/-- the position of the last record: at the very end, or further up with a comment behind it -/
def endPosition? (bs : List UInt8) : Option Nat :=
  let size := bs.length
  if size < endSize then none
  else
    let tail := bs.drop (size - endSize)
    if startsWith endSignature tail && field tail 20 2 == 0 then some (size - endSize)
    else
      let start := size - (Nat.pow 2 16 + endSize)
      match lastIndex? endSignature start (bs.drop start) with
      | some i => if i + endSize ≤ size then some i else none
      | none => none

/-- where a directory ends, its size, and the position it is said to have -/
structure Ending where
  position : Nat
  size : Nat
  offset : Nat

def locatorSize : Nat := 20

def largeEndSize : Nat := 56

def notArchive : String := "File is not a zip file"

/-- what the last record says at a position, or the records of a large directory before it. What looks like a locator of
several volumes, or of a record before the start, makes the archive unreadable -/
def endingAt (bs : List UInt8) (position : Nat) : Except String Ending :=
  let tail := bs.drop position
  let plain : Ending := ⟨position, field tail 12 4, field tail 16 4⟩
  let locator := bs.drop (position - locatorSize)
  if position < locatorSize || !startsWith locatorSignature locator then .ok plain
  else if field locator 4 4 ≠ 0 ∨ 1 < field locator 16 4 then .error "zipfiles that span multiple disks are not supported"
  else if position < locatorSize + largeEndSize then .error notArchive
  else
    let start := position - locatorSize - largeEndSize
    let record := bs.drop start
    if startsWith largeEndSignature record then .ok ⟨start, field record 40 8, field record 48 8⟩ else .ok plain

/-- an entry of the directory -/
structure Listed where
  name : List UInt8
  flags : Nat
  method : Nat
  checksum : Nat
  packedSize : Nat
  size : Nat
  /-- seen from where the archive starts -/
  offset : Int

/-- a number, or the next one of an extra field when it is marked as written there -/
def widened (what : String) (marks : List Nat) (n : Nat) (data : List UInt8) : Except String (Nat × List UInt8) :=
  if n ∉ marks then .ok (n, data)
  else if data.length < 8 then .error ("Corrupt zip64 extra field. " ++ what ++ " not found.")
  else .ok (field data 0 8, data.drop 8)

namespace Listed

/-- an entry with the large numbers that are in an extra field -/
def widened (e : Listed) (data : List UInt8) : Except String Listed := do
  let (size, data) ← Archive.widened "File size" [wideMark, 0xFFFFFFFFFFFFFFFF] e.size data
  let (packedSize, data) ← Archive.widened "Compress size" [wideMark] e.packedSize data
  let (offset, _) ← Archive.widened "Header offset" [wideMark] e.offset.toNat data
  .ok { e with size := size, packedSize := packedSize, offset := offset }

/-- an entry with what its extra fields say -/
def extended (e : Listed) (extra : List UInt8) : Except String Listed :=
  if _h : extra.length < 4 then .ok e
  else
    let kind := field extra 0 2
    let size := field extra 2 2
    if extra.length < 4 + size then
      .error ("Corrupt extra field " ++ String.ofList (Text.hexDigits 4 kind) ++ " (size=" ++ Nat.repr size ++ ")")
    else
      match if kind = wideKind then e.widened ((extra.drop 4).take size) else .ok e with
      | .ok e => e.extended (extra.drop (4 + size))
      | .error reason => .error reason
termination_by extra.length
decreasing_by
  rw [List.length_drop]
  omega

end Listed

def entrySize : Nat := 46

/-- what stands in the fields of an entry -/
def readFields (bs : List UInt8) : Listed where
  name := (bs.drop entrySize).take (field bs 28 2)
  flags := field bs 8 2
  method := field bs 10 2
  checksum := field bs 16 4
  packedSize := field bs 20 4
  size := field bs 24 4
  offset := field bs 42 4

def readEntry (bs : List UInt8) (shift : Int) : Except String Listed :=
  ((readFields bs).extended ((bs.drop (entrySize + field bs 28 2)).take (field bs 30 2))).map fun e =>
    { e with offset := e.offset + shift }

/-- the size of an entry with its name, extra field and comment -/
def entryLength (bs : List UInt8) : Nat := entrySize + field bs 28 2 + field bs 30 2 + field bs 32 2

/-- the entries in so many bytes -/
def readEntries (bs : List UInt8) (remaining : Nat) (shift : Int) : Except String (List Listed) :=
  if _h : remaining = 0 then .ok []
  else if bs.length < entrySize then .error "Truncated central directory"
  else if !startsWith directorySignature bs then .error "Bad magic number for central directory"
  else
    match readEntry bs shift with
    | .ok e => (readEntries (bs.drop (entryLength bs)) (remaining - entryLength bs) shift).map (e :: ·)
    | .error reason => .error reason
termination_by remaining
decreasing_by
  have : 0 < entryLength bs := by unfold entryLength entrySize; omega
  omega

/-- the directory; what was put in front of an archive shifts all positions -/
def directory (bs : List UInt8) : Except String (List Listed) :=
  match endPosition? bs with
  | none => .error notArchive
  | some position =>
    match endingAt bs position with
    | .error reason => .error reason
    | .ok e =>
      if e.position < e.size then .error "Bad offset for central directory"
      else readEntries ((bs.drop (e.position - e.size)).take e.size) e.size (e.position - e.size - e.offset)

/-! ## Reading a member -/

/-- the bytes in a deflate stream of stored blocks, of which there are at most `fuel` -/
def inflate? : Nat → List UInt8 → Option (List UInt8)
  | 0, _ => none
  | fuel + 1, bs =>
    match bs with
    | [] => none
    | header :: rest =>
      let size := field rest 0 2
      let found := (rest.drop 4).take size
      if field rest 2 2 + size ≠ blockLimit ∨ found.length ≠ size then none
      else if header = 1 then some found
      else if header = 0 then (inflate? fuel (rest.drop (4 + size))).map (found ++ ·)
      else none

def headerSize : Nat := 30

/-- the content at the position of an entry, when header, name and checksum agree with the directory -/
def content? (bs : List UInt8) (e : Listed) : Option (List UInt8) :=
  let at' := bs.drop e.offset.toNat
  let name := (at'.drop headerSize).take (field at' 26 2)
  let packed := (at'.drop (headerSize + field at' 26 2 + field at' 28 2)).take e.packedSize
  if at'.length < headerSize || !startsWith localSignature at' || name != e.name then none
  else
    match if e.method = 0 then some packed else inflate? (packed.length + 1) packed with
    | some content => if checksum (content.take e.size) = e.checksum then some (content.take e.size) else none
    | none => none

end Classwright.Archive
