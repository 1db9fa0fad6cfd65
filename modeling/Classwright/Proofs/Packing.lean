/-
The archive of a directory.

Its members are the files beneath the directory in ascending order of their paths. As long as its path can be written and is
not in the directory, the archive is written and found intact if there is a file at all and all of them can be taken, and
refused otherwise.

- `Text.ascending_of_nodup`, `ascending_ext`: lists in order, and ascending lists with the same elements;
- `Archive.members`: the members for the files beneath a place; `mem_members`, `ascending_members`;
- `Archive.Holds`: bytes from which the files beneath a place are read back; `holds_encode`: an archive of them is such;
- `Archive.Acceptable`: files that an archive can take; `writeMembers_front`: what is written of members;
  `writeMembers_ok`, `of_writeMembers`: when all are; `writeMembers_undated`: one without a date is refused;
- `Archive.create_ok`, `of_create`: when an archive is created, and what it is.
-/
import Mathlib.Data.List.Sort
import Mathlib.Data.List.TakeWhile
import Mathlib.Order.Basic
import Classwright.Proofs.Archives
import Classwright.Proofs.Copies
import Classwright.Proofs.Dates

namespace Classwright

/-! ## Sorting -/

namespace Text

theorem precedes_trans (a b c : String) (h : precedes a b = true) (h' : precedes b c = true) : precedes a c = true := by
  simp only [precedes, decide_eq_true_eq] at *
  exact String.le_trans h h'

theorem precedes_total (a b : String) : (precedes a b || precedes b a) = true := by
  simp only [precedes, Bool.or_eq_true, decide_eq_true_eq]
  exact String.le_total a b

/-- in an ordered list without repetitions every element is below the next -/
theorem ascending_of_nodup {xs : List String} (h : xs.Pairwise fun a b => precedes a b = true) (hnodup : xs.Nodup) :
    xs.Pairwise (· < ·) := by
  refine (h.and hnodup).imp fun hab => ?_
  have hle := of_decide_eq_true hab.1
  exact String.not_le.1 fun hba => hab.2 (String.le_antisymm hle hba)

/-- ascending lists with the same elements are the same -/
theorem ascending_ext {xs ys : List String} (hx : xs.Pairwise (· < ·)) (hy : ys.Pairwise (· < ·))
    (h : ∀ s, s ∈ xs ↔ s ∈ ys) : xs = ys := by
  have hne : ∀ {zs : List String}, zs.Pairwise (· < ·) → zs.Nodup := fun hz => hz.imp fun hab => String.ne_of_lt hab
  refine List.Perm.eq_of_pairwise ?_ hx hy ((List.perm_ext_iff_of_nodup (hne hx) (hne hy)).2 h)
  exact fun a b _ _ hab hba => absurd hba (String.lt_asymm hab)

theorem not_mem_joinWith {c : Char} {sep : String} {xs : List String} (hsep : c ∉ sep.toList)
    (h : ∀ s ∈ xs, c ∉ s.toList) : c ∉ (joinWith sep xs).toList := by
  induction xs with
  | nil => simp [joinWith]
  | cons s rest ih =>
    have hs := h s List.mem_cons_self
    have hrest := ih fun t ht => h t (List.mem_cons_of_mem s ht)
    cases rest with
    | nil => exact hs
    | cons t more =>
      rw [joinWith, String.toList_append, String.toList_append, List.mem_append, List.mem_append]
      · exact not_or.2 ⟨not_or.2 ⟨hs, hsep⟩, hrest⟩
      · exact List.cons_ne_nil t more

end Text

/-! ## Files beneath a place -/

/-- files beneath a place that can be told apart by their paths, all of which can be looked up -/
structure Disk.Listable (d : Disk) (r : Place) : Prop where
  tree : d.Tree
  dir : d.get? r = some .dir
  named : ∀ names content, d.fileAt? (r ++ names) = some content → ∀ name ∈ names, Path.IsName name
  usable : ∀ names content, d.fileAt? (r ++ names) = some content → Path.Usable ⟨"", names⟩

/-- nothing is listed twice -/
theorem Disk.nodup_under {d : Disk} (h : d.Tree) (r : Place) : ((d.under r).map Prod.fst).Nodup := by
  have hitems : d.items.Pairwise fun a b => a.1 ≠ b.1 := List.pairwise_map.1 h.distinct
  have hkey : ∀ {i : Place × Stamped} {x : List String × Entry},
      (if beneath r i.1 && i.1 != r then some (i.1.drop r.length, i.2.entry) else none) = some x → i.1 = r ++ x.1 := by
    intro i x hx
    split_ifs at hx with hbeneath
    cases hx
    obtain ⟨rest, hrest⟩ := List.isPrefixOf_iff_prefix.1 (Bool.and_eq_true_iff.1 hbeneath).1
    rw [← hrest, List.drop_left]
  rw [List.Nodup, List.pairwise_map, under, List.pairwise_filterMap]
  exact hitems.imp fun {a b} hab x hx y hy heq => hab (by rw [hkey hx, hkey hy, heq])

theorem Disk.nodup_filesUnder {d : Disk} (h : d.Tree) (r : Place) : ((d.filesUnder r).map Prod.fst).Nodup := by
  have hunder : (d.under r).Pairwise fun a b => a.1 ≠ b.1 := List.pairwise_map.1 (nodup_under h r)
  rw [List.Nodup, List.pairwise_map, filesUnder, List.pairwise_filterMap]
  refine hunder.imp fun {a b} hab f hf g hg heq => hab ?_
  obtain ⟨names, e⟩ := a
  obtain ⟨names', e'⟩ := b
  cases e <;> cases hf
  cases e' <;> cases hg
  exact heq

namespace Archive

open Disk (Listable)

variable {d : Disk} {r : Place}

/-- the members for the files beneath a place, dated as the clocks show their times -/
def members (d : Disk) (r : Place) : List Member :=
  membersOf (Work.inOrder (d.filesUnder r)) fun names => d.clock (d.timeOf (r ++ names))

theorem mem_members (h : Listable d r) {m : Member} : m ∈ members d r ↔ ∃ names, d.fileAt? (r ++ names) = some m.content ∧
    m.name = Text.joinWith "/" names ∧ m.time = d.clock (d.timeOf (r ++ names)) := by
  unfold members membersOf
  rw [(List.mergeSort_perm _ _).mem_iff, List.mem_map]
  constructor
  · rintro ⟨⟨names, content⟩, hmem, rfl⟩
    exact ⟨names, (Disk.mem_filesUnder h.tree h.dir).1 (Work.mem_inOrder.1 hmem), rfl, rfl⟩
  · rintro ⟨names, hfile, hname, htime⟩
    refine ⟨(names, m.content), Work.mem_inOrder.2 ((Disk.mem_filesUnder h.tree h.dir).2 hfile), ?_⟩
    dsimp only
    rw [← hname, ← htime]

/-- **The members are in ascending order**, and no two have the same name. -/
theorem ascending_members (h : Listable d r) : ((members d r).map Member.name).Pairwise (· < ·) := by
  refine Text.ascending_of_nodup ?_ ?_
  · exact List.pairwise_map.2 (List.pairwise_mergeSort (fun a b c => Text.precedes_trans a.name b.name c.name)
      (fun a b => Text.precedes_total a.name b.name) _)
  · have hperm : ((members d r).map Member.name).Perm ((d.filesUnder r).map fun f => Text.joinWith "/" f.1) := by
      have hmembers := (List.mergeSort_perm ((Work.inOrder (d.filesUnder r)).map fun f =>
        Member.mk (Text.joinWith "/" f.1) f.2 (d.clock (d.timeOf (r ++ f.1)))) fun a b =>
          Text.precedes a.name b.name).map Member.name
      rw [List.map_map] at hmembers
      exact hmembers.trans ((List.mergeSort_perm _ _).map _)
    have hnamed : ∀ f ∈ d.filesUnder r, ∀ name ∈ f.1, Path.IsName name := fun f hf =>
      h.named f.1 f.2 ((Disk.mem_filesUnder h.tree h.dir).1 hf)
    rw [hperm.nodup_iff, List.Nodup, List.pairwise_map]
    refine (List.pairwise_map.1 (Disk.nodup_filesUnder h.tree r)).imp_of_mem fun {f g} hf hg hne heq => ?_
    exact hne (Path.joinWith_inj (hnamed f hf) (hnamed g hg) heq)

/-- no member has a name that a path cannot have -/
theorem name_members (h : Listable d r) {m : Member} (hm : m ∈ members d r) :
    (nameBytes m.name).length < Nat.pow 256 2 ∧ '\x00' ∉ m.name.toList := by
  obtain ⟨names, hfile, hname, -⟩ := (mem_members h).1 hm
  obtain ⟨hnull, hshort⟩ := h.usable names _ hfile
  rw [hname]
  constructor
  · have hsize := (Path.short_iff _).1 hshort
    rw [String.utf8ByteSize_empty, Nat.zero_add] at hsize
    exact Nat.lt_of_le_of_lt hsize (by decide)
  · refine Text.not_mem_joinWith (by decide) fun name hmem hc => ?_
    exact List.any_eq_false.1 hnull name hmem (List.contains_iff_mem.2 hc)

/-- files beneath a place that an archive can take: each has a date, all of them fit, and together they do not look like a
part of an archive -/
structure Acceptable (d : Disk) (r : Place) : Prop where
  dated : ∀ names s, d.stampAt? (r ++ names) = some s → firstMoment ≤ d.clock s.2 ∧ d.clock s.2 < pastMoment
  size : (encode (members d r)).length ≤ positionLimit
  whole : looksSplit (members d r) = false

theorem dated_iff (h : Listable d r) : (∀ m ∈ members d r, isDatable m.time = true) ↔
    ∀ names s, d.stampAt? (r ++ names) = some s → firstMoment ≤ d.clock s.2 ∧ d.clock s.2 < pastMoment := by
  constructor
  · intro hdated names s hs
    obtain ⟨hfile, htime⟩ := Disk.stampAt?_eq_some_iff.1 hs
    rw [← htime]
    exact isDatable_iff.1 (hdated ⟨_, s.1, _⟩ ((mem_members h).2 ⟨names, hfile, rfl, rfl⟩))
  · intro hdated m hm
    obtain ⟨names, hfile, -, htime⟩ := (mem_members h).1 hm
    rw [htime]
    exact isDatable_iff.2 (hdated names (m.content, _) (Disk.stampAt?_eq_some_iff.2 ⟨hfile, rfl⟩))

/-- the files beneath a place, as members, fit into an archive that can take them -/
theorem writable_members (h : Listable d r) (hacceptable : Acceptable d r) : Writable (members d r) where
  distinct := (ascending_members h).imp fun hab => String.ne_of_lt hab
  names := fun _ hm => (name_members h hm).1
  size := hacceptable.size
  whole := hacceptable.whole

/-- bytes from which the files beneath a place are read back, by these names in this order -/
def Holds (bytes : ByteArray) (names : List String) (d : Disk) (r : Place) : Prop :=
  ∃ entries, entries? bytes.data.toList = some entries ∧ entries.map (fun e => e.1) = names ∧
    ∀ e ∈ entries, ∃ path content, d.fileAt? (r ++ path) = some content ∧
      e = (Text.joinWith "/" path, deflateMethod, content.data.toList)

/-- **An archive of the files beneath a place holds them.** -/
theorem holds_encode (h : Listable d r) (hacceptable : Acceptable d r) :
    Holds ⟨(encode (members d r)).toArray⟩ ((members d r).map Member.name) d r := by
  refine ⟨_, entries?_encode (writable_members h hacceptable), ?_, fun e he => ?_⟩
  · rw [List.map_map]
    rfl
  · obtain ⟨m, hm, rfl⟩ := List.mem_map.1 he
    obtain ⟨path, hfile, hname, -⟩ := (mem_members h).1 hm
    exact ⟨path, m.content, hfile, by rw [hname]; rfl⟩

/-! ## Creating -/

variable {root path : Path} {w : World} {level : Int}

theorem isDir_of_holding (h : w.disk.Holding root r .dir) : Work.isDir root w = (.ok true, w) := by
  rw [Work.isDir_eq, Disk.sight_eq_some_iff.2 ⟨r, h⟩]
  rfl

theorem filesUnder_eq (h : w.disk.Holding root r .dir) :
    Work.filesUnder root w = (.ok (Work.inOrder (w.disk.filesUnder r)), w) := by
  unfold Work.filesUnder
  rw [Work.bind_ok (Work.locate_of_holding h)]
  rfl

/-- **Members with dates are written**, those that stand before the first without one. -/
theorem writeMembers_front (hlevel : isLevel level = true) {front back : List Member}
    (hdated : ∀ m ∈ front, isDatable m.time = true) (hback : ∀ m ∈ back.head?, isDatable m.time = false)
    (hsize : (encode front).length ≤ positionLimit) {c : ByteArray} (hpath : (Work.save path c w).1 = .ok ()) :
    ∃ w₁ w₂, Work.save path ⟨#[]⟩ w = (.ok (), w₁) ∧ Work.save path ⟨(encode front).toArray⟩ w₁ = (.ok (), w₂) ∧
      writeMembers level (front ++ back) path w =
        (back.head?.elim (pure ()) fun m => Work.fail (dateFault m) : Work Unit) w₂ := by
  have hrest : back.takeWhile (fun m => isDatable m.time) = [] := by
    cases back with
    | nil => rfl
    | cons m rest => exact List.takeWhile_cons_of_neg (by rw [hback m rfl]; exact Bool.false_ne_true)
  have hfront : (front ++ back).takeWhile (fun m => isDatable m.time) = front := by
    rw [List.takeWhile_append_of_pos hdated, hrest, List.append_nil]
  obtain ⟨w₁, hfirst⟩ := Work.save_instead (Prod.ext hpath rfl : Work.save path c w = (.ok (), _)) ⟨#[]⟩
  obtain ⟨w₂, hsecond⟩ := Work.save_again hfirst ⟨(encode front).toArray⟩
  refine ⟨w₁, w₂, hfirst, hsecond, ?_⟩
  unfold writeMembers
  rw [Work.bind_ok hfirst, hfront, hlevel, Bool.not_true, Bool.and_false, if_neg Bool.false_ne_true,
    if_neg (Nat.not_lt.2 hsize), Work.bind_ok hsecond, List.drop_left]
  cases back <;> rfl

/-- when all have dates, all of them are written -/
theorem writeMembers_ok (hlevel : isLevel level = true) {ms : List Member} (hdated : ∀ m ∈ ms, isDatable m.time = true)
    (hsize : (encode ms).length ≤ positionLimit) {c : ByteArray} (hpath : (Work.save path c w).1 = .ok ()) :
    ∃ w', writeMembers level ms path w = (.ok (), w') ∧ Work.read path w' = (.ok ⟨(encode ms).toArray⟩, w') ∧
      ∃ time, Disk.Wrote (w.disk.placeOf path) (⟨(encode ms).toArray⟩, time) w.disk w'.disk := by
  have hnone : ∀ m ∈ ([] : List Member).head?, isDatable m.time = false := nofun
  obtain ⟨w₁, w₂, hfirst, hsecond, hwritten⟩ := writeMembers_front hlevel hdated hnone hsize hpath
  have hwrote := Work.save_wrote hfirst
  have hwrote' := Work.save_wrote hsecond
  rw [Disk.placeOf_congr hwrote.here] at hwrote'
  rw [List.append_nil] at hwritten
  exact ⟨w₂, hwritten, Work.read_saved hsecond, _, hwrote.trans hwrote'⟩

/-- and all that can be written is written so -/
theorem of_writeMembers {ms : List Member} {w' : World} (h : writeMembers level ms path w = (.ok (), w')) :
    (∀ m ∈ ms, isDatable m.time = true) ∧ (encode ms).length ≤ positionLimit ∧
      (Work.save path ⟨#[]⟩ w).1 = .ok () := by
  obtain ⟨dated, hdated⟩ : ∃ dated, dated = ms.takeWhile fun m => isDatable m.time := ⟨_, rfl⟩
  unfold writeMembers at h
  obtain ⟨_, w₁, hsave, h⟩ := Work.bind_eq_ok h
  dsimp only at h
  rw [← hdated] at h
  split_ifs at h with hlevel hlong
  · cases h
  · cases h
  · obtain ⟨_, w₂, -, h⟩ := Work.bind_eq_ok h
    cases hrest : ms.drop dated.length with
    | cons m rest =>
      rw [hrest] at h
      cases h
    | nil =>
      have hprefix : dated <+: ms := hdated ▸ List.takeWhile_prefix _
      have hall : dated = ms := hprefix.eq_of_length_le (List.drop_eq_nil_iff.1 hrest)
      rw [hall] at hdated hlong
      exact ⟨List.takeWhile_eq_self_iff.1 hdated.symm, Nat.not_lt.1 hlong, congrArg Prod.fst hsave⟩

/-- **A member without a date** is refused, whatever comes after it. -/
theorem writeMembers_undated (hlevel : isLevel level = true) {front : List Member} (hdated : ∀ m ∈ front, isDatable m.time = true)
    (hsize : (encode front).length ≤ positionLimit) {m : Member} (hm : isDatable m.time = false) (back : List Member)
    {c : ByteArray} (hpath : (Work.save path c w).1 = .ok ()) :
    (writeMembers level (front ++ m :: back) path w).1 = .error (dateFault m) := by
  have hback : ∀ m' ∈ (m :: back).head?, isDatable m'.time = false := by
    rintro m' ⟨⟩
    exact hm
  obtain ⟨w₁, w₂, -, -, hwritten⟩ := writeMembers_front hlevel hdated hback hsize hpath
  rw [hwritten]
  rfl

/-- what is left to do when the members were written -/
def conclude (ms : List Member) (path : Path) : Work Result := do
  let bytes ← Work.read path
  Work.ofExcept (verify path bytes.data.toList ms.length)
  Work.report (LogEntry.info ("[Archiver] Created ZIP: " ++ path.toString ++ " (" ++ Nat.repr ms.length ++
    " entries, " ++ Nat.repr bytes.size ++ " bytes)"))
  pure ⟨path, ms.map Member.name, bytes.size⟩

theorem create_eq (hroot : w.disk.Holding root r .dir) : create level root path w =
    (writeMembers level (members w.disk r) path >>= fun _ =>
      if (members w.disk r).isEmpty then Work.fail (.service (ServiceError.emptyArchive (.str path.toString)))
      else conclude (members w.disk r) path) w := by
  unfold create
  rw [Work.bind_ok (isDir_of_holding hroot), Bool.not_true, if_neg Bool.false_ne_true, Work.bind_ok (Work.locate_of_holding hroot),
    Work.bind_ok (show Work.disk w = (.ok w.disk, w) from rfl), Work.bind_ok (filesUnder_eq hroot)]
  rfl

/-- **An archive of a directory with files** that it can take is created and lists them, and nothing but its path changes. -/
theorem create_ok (h : Listable w.disk r) (hroot : w.disk.Holding root r .dir) (hlevel : isLevel level = true)
    {c : ByteArray} (hpath : (Work.save path c w).1 = .ok ()) (hacceptable : Acceptable w.disk r)
    (hne : members w.disk r ≠ []) :
    ∃ result w', create level root path w = (.ok result, w') ∧ result.entries = (members w.disk r).map Member.name ∧
      ∃ time, Disk.Wrote (w.disk.placeOf path) (⟨(encode (members w.disk r)).toArray⟩, time) w.disk w'.disk := by
  obtain ⟨w', hwrite, hread, time, hwrote⟩ :=
    writeMembers_ok hlevel ((dated_iff h).2 hacceptable.dated) hacceptable.size hpath
  have hnonempty : (members w.disk r).isEmpty = false := List.isEmpty_eq_false_iff.2 hne
  have hverify := verify_encode (writable_members h hacceptable) path
  have hconclude : ∃ result w'', conclude (members w.disk r) path w' = (.ok result, w'') ∧
      result.entries = (members w.disk r).map Member.name ∧ w''.disk = w'.disk := by
    unfold conclude
    have hchecked : Work.ofExcept (verify path (encode (members w.disk r)) (members w.disk r).length) w' = (.ok (), w') := by
      rw [hverify]
      rfl
    rw [Work.bind_ok hread]
    dsimp only
    rw [Work.bind_ok hchecked]
    exact ⟨_, _, rfl, rfl, rfl⟩
  obtain ⟨result, w'', hdone, hentries, hdisk⟩ := hconclude
  refine ⟨result, w'', ?_, hentries, time, hdisk ▸ hwrote⟩
  rw [create_eq hroot, Work.bind_ok hwrite, hnonempty, if_neg Bool.false_ne_true, hdone]

/-- **An archive that was created** is one of a directory with files that it can take. -/
theorem of_create (h : Listable w.disk r) (hroot : w.disk.Holding root r .dir) (hlevel : isLevel level = true)
    {result : Result} {w' : World} (hcreate : create level root path w = (.ok result, w')) :
    members w.disk r ≠ [] ∧ Acceptable w.disk r := by
  rw [create_eq hroot] at hcreate
  obtain ⟨_, w₁, hwrite, hcreate⟩ := Work.bind_eq_ok hcreate
  obtain ⟨hdated, hsize, hpath⟩ := of_writeMembers hwrite
  split_ifs at hcreate with hempty
  · cases hcreate
  refine ⟨fun hnil => hempty (by rw [hnil]; rfl), (dated_iff h).1 hdated, hsize, ?_⟩
  -- what looks like a part of an archive would not have been found intact
  rw [Bool.eq_false_iff]
  intro hsplit
  obtain ⟨w₂, hwrite', hread, -⟩ := writeMembers_ok hlevel hdated hsize hpath
  cases hwrite.symm.trans hwrite'
  unfold conclude at hcreate
  rw [Work.bind_ok hread] at hcreate
  obtain ⟨_, w₃, hchecked, -⟩ := Work.bind_eq_ok hcreate
  rw [verify_split hsplit fun m hm => (name_members h hm).2] at hchecked
  cases hchecked

end Archive

end Classwright
