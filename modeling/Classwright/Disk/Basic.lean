/-
A file system as a value: what stands at each place and when it was last changed.

Nothing on it is hidden: a link is only known when it leads nowhere, so a path is followed name by name, down into
directories and up at `..`.

- `Disk.get?`, `Disk.put`, `Disk.erase`: what is at a place, something put there, a place cleared with all beneath it;
- `Disk.walk`: the place that names lead to, or why they lead nowhere;
- `Disk.filesUnder`: the files beneath a place, each with its names seen from there.

`get?_put_self`, `get?_put_of_ne` and `get?_erase` say what each change does to what is at a place, and `timeOf_put_self` and
`timeOf_put_of_ne` what it does to times.
-/
import Classwright.Path
import Classwright.Table
import Classwright.Text.Quoted

namespace Classwright

/-- where something is: the names from the top down -/
abbrev Place := List String

/-! ## Refusals -/

inductive DiskCause where
  | exists
  | isDirectory
  | notDirectory
  | missing
  | nameTooLong
  /-- a position that no file has -/
  | badPosition
  /-- parts of a tree that could not be copied -/
  | incomplete
  deriving DecidableEq, Repr

namespace DiskCause

def number : DiskCause → Nat
  | .exists => 17
  | .isDirectory => 21
  | .notDirectory => 20
  | .missing => 2
  | .nameTooLong => 36
  | .badPosition => 22
  | .incomplete => 5

def phrase : DiskCause → String
  | .exists => "File exists"
  | .isDirectory => "Is a directory"
  | .notDirectory => "Not a directory"
  | .missing => "No such file or directory"
  | .nameTooLong => "File name too long"
  | .badPosition => "Invalid argument"
  | .incomplete => "Input/output error"

end DiskCause

/-- a refusal with the path as it was asked for -/
structure DiskFault where
  cause : DiskCause
  path : String
  deriving DecidableEq, Repr

def DiskFault.message (f : DiskFault) : String :=
  "[Errno " ++ Nat.repr f.cause.number ++ "] " ++ f.cause.phrase ++ ": " ++ Text.quoted f.path

/-! ## Places -/

inductive Entry where
  | file (content : ByteArray) (mode : Nat)
  | dir
  /-- a link that leads nowhere -/
  | danglingLink

namespace Entry

def isFile : Entry → Bool
  | .file .. => true
  | _ => false

def isDir : Entry → Bool
  | .dir => true
  | _ => false

/-- the permissions of a file that was just made -/
def defaultMode : Nat := 0o644

end Entry

/-- something on the disk with the time of its last change, in microseconds since 1970 -/
structure Stamped where
  entry : Entry
  time : Int

structure Disk where
  items : List (Place × Stamped) := []
  /-- where relative paths start -/
  here : Place := []
  /-- the time -/
  now : Int := 0
  /-- how far the clocks are ahead of universal time at a moment -/
  zone : Int → Int := fun _ => 0

namespace Disk

/-- the top is a directory without being listed -/
def get? (d : Disk) (p : Place) : Option Entry :=
  if p = [] then some .dir else (Table.get? d.items p).map Stamped.entry

/-- whether a place is `top` itself or beneath it -/
def beneath (top p : Place) : Bool := top.isPrefixOf p

/-- the time of the last change; the top was never changed -/
def timeOf (d : Disk) (p : Place) : Int := ((Table.get? d.items p).map Stamped.time).getD 0

/-- a moment as the clocks show it -/
def clock (d : Disk) (time : Int) : Int := time + d.zone time

/-- another time of the last change, if anything is there -/
def setTime (d : Disk) (p : Place) (time : Int) : Disk :=
  match Table.get? d.items p with
  | some s => { d with items := Table.set d.items p { s with time := time } }
  | none => d

/-- a directory takes the present time when something in it comes or goes -/
def touch (d : Disk) (p : Place) : Disk := d.setTime p d.now

/-- something put at a place, in the place of what was there -/
def set (d : Disk) (p : Place) (e : Entry) : Disk := { d with items := Table.set d.items p ⟨e, d.now⟩ }

/-- something put at a place; its directory changes when there was nothing before -/
def put (d : Disk) (p : Place) (e : Entry) : Disk :=
  if Table.has d.items p then d.set p e else (d.set p e).touch p.dropLast

/-- a place cleared, with all that is beneath it -/
def erase (d : Disk) (p : Place) : Disk :=
  ({ d with items := d.items.filter fun i => !beneath p i.1 } : Disk).touch p.dropLast

theorem entry_setTime (d : Disk) (p : Place) (time : Int) (q : Place) :
    (Table.get? (d.setTime p time).items q).map Stamped.entry = (Table.get? d.items q).map Stamped.entry := by
  unfold setTime
  cases h : Table.get? d.items p with
  | none => rfl
  | some s =>
    by_cases hq : p = q
    · subst hq; simp [Table.get?_set_self, h]
    · simp [Table.get?_set_of_ne _ _ hq]

theorem get?_setTime (d : Disk) (p : Place) (time : Int) (q : Place) : (d.setTime p time).get? q = d.get? q := by
  unfold get?
  rw [entry_setTime]

theorem get?_touch (d : Disk) (p q : Place) : (d.touch p).get? q = d.get? q := get?_setTime d p d.now q

theorem get?_set_self (d : Disk) {p : Place} (e : Entry) (h : p ≠ []) : (d.set p e).get? p = some e := by
  simp [get?, set, h, Table.get?_set_self]

theorem get?_set_of_ne (d : Disk) {p q : Place} (e : Entry) (h : p ≠ q) : (d.set p e).get? q = d.get? q := by
  simp [get?, set, Table.get?_set_of_ne _ _ h]

theorem get?_put_self (d : Disk) {p : Place} (e : Entry) (h : p ≠ []) : (d.put p e).get? p = some e := by
  unfold put
  split
  · exact get?_set_self d e h
  · rw [get?_touch, get?_set_self d e h]

theorem get?_put_of_ne (d : Disk) {p q : Place} (e : Entry) (h : p ≠ q) : (d.put p e).get? q = d.get? q := by
  unfold put
  split
  · exact get?_set_of_ne d e h
  · rw [get?_touch, get?_set_of_ne d e h]

theorem timeOf_setTime_of_ne (d : Disk) {p q : Place} (time : Int) (h : p ≠ q) : (d.setTime p time).timeOf q = d.timeOf q := by
  unfold timeOf setTime
  split
  · rw [Table.get?_set_of_ne _ _ h]
  · rfl

/-- what is put at a place was changed just now -/
theorem timeOf_put_self (d : Disk) {p : Place} (e : Entry) (h : p ≠ []) : (d.put p e).timeOf p = d.now := by
  have hset : (d.set p e).timeOf p = d.now := by
    unfold timeOf set
    rw [Table.get?_set_self]
    rfl
  have hne : p.dropLast ≠ p := fun heq => by
    have hlength := congrArg List.length heq
    have hpos := List.length_pos_iff.2 h
    rw [List.length_dropLast] at hlength
    omega
  unfold put
  split
  · exact hset
  · exact (timeOf_setTime_of_ne _ _ hne).trans hset

/-- and nothing else was but its directory -/
theorem timeOf_put_of_ne (d : Disk) {p q : Place} (e : Entry) (h : p ≠ q) (hdir : p.dropLast ≠ q) :
    (d.put p e).timeOf q = d.timeOf q := by
  have hset : (d.set p e).timeOf q = d.timeOf q := by
    unfold timeOf set
    rw [Table.get?_set_of_ne _ _ h]
  unfold put
  split
  · exact hset
  · exact (timeOf_setTime_of_ne _ _ hdir).trans hset

theorem get?_erase (d : Disk) (p : Place) {q : Place} (h : q ≠ []) :
    (d.erase p).get? q = if beneath p q then none else d.get? q := by
  unfold erase
  rw [get?_touch]
  simp only [get?, h, if_false, Table.get?_filter d.items (fun i => !beneath p i)]
  cases beneath p q <;> simp

/-! ## Following names -/

/-- the greatest number of bytes in a name, and in a path -/
def nameLimit : Nat := 255

def pathLimit : Nat := 4095

def hasEntry (d : Disk) (p : Place) : Bool := (d.get? p).isSome

/-- what is needed of a place before a name can be looked up in it -/
def enter (d : Disk) (p : Place) : Option DiskCause :=
  match d.get? p with
  | some .dir => none
  | some (.file ..) => some .notDirectory
  | _ => some .missing

/-- the place that names lead to from a place; nothing need be at the end of the way -/
def walk (d : Disk) (p : Place) : List String → Except DiskCause Place
  | [] => .ok p
  | name :: rest =>
    match d.enter p with
    | some cause => .error cause
    | none =>
      if name = ".." then d.walk p.dropLast rest
      else if nameLimit < name.utf8ByteSize then .error .nameTooLong
      else d.walk (p ++ [name]) rest

/-- where a path starts -/
def origin (d : Disk) (p : Path) : Place := if p.isAbsolute then [] else d.here

def locate (d : Disk) (p : Path) : Except DiskCause Place :=
  if pathLimit < p.toString.utf8ByteSize then .error .nameTooLong else d.walk (d.origin p) p.parts

/-! ## Listings -/

/-- what is beneath a place, with its names seen from there, in no particular order -/
def under (d : Disk) (p : Place) : List (List String × Entry) :=
  d.items.filterMap fun i =>
    if beneath p i.1 && i.1 != p then some (i.1.drop p.length, i.2.entry) else none

/-- the files beneath a place -/
def filesUnder (d : Disk) (p : Place) : List (List String × ByteArray) :=
  (d.under p).filterMap fun i =>
    match i.2 with
    | .file content _ => some (i.1, content)
    | _ => none

/-- the names directly beneath a place, in ascending order -/
def namesIn (d : Disk) (p : Place) : List String :=
  Text.sort ((d.under p).filterMap fun i =>
    match i.1 with
    | [name] => some name
    | _ => none)

/-- a directory made at a place, with the directories on the way to it -/
def withDirs (d : Disk) (p : Place) : Disk :=
  (List.range p.length).foldl (fun d n =>
    let q := p.take (n + 1)
    if d.hasEntry q then d else d.put q .dir) d

/-- a file with the directories on the way to it -/
def withFile (d : Disk) (p : Place) (content : ByteArray) (mode : Nat) : Disk :=
  (d.withDirs p.dropLast).put p (.file content mode)

end Disk

end Classwright
