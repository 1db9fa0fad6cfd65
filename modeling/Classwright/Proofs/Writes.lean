/-
What was done by a step that succeeded.

A step that puts a file somewhere changes one place, and directories only come. So the files on a disk and their times, as
a function of places, change at one place at a time, and that is all that is needed to follow them through a run.

- `Disk.placeOf`: where the names of a path lead;
- `Disk.Tree`: a disk on which everything stands in a directory, and nothing is listed twice;
- `Disk.Wrote`: a file was put at a place, and nothing else happened;
- `Work.save_wrote`, `copyTime_wrote`, `setMode_wrote`, `copyFile_wrote`: what these steps have done when they succeed;
- `Work.tree_makeDirs`, `widened_makeDirs`: what making directories does in any case; `holding_of_makeDirs`: that they stand.
-/
import Classwright.Proofs.Making
import Classwright.Proofs.Stamps

namespace Classwright

theorem Path.prefix_append_cases {front a b : List String} (h : front <+: a ++ b) :
    front <+: a ∨ ∃ back, back <+: b ∧ front = a ++ back := by
  rcases List.prefix_or_prefix_of_prefix h (List.prefix_append a b) with hfront | ⟨back, rfl⟩
  · exact Or.inl hfront
  · exact Or.inr ⟨back, (List.prefix_append_right_inj a).1 h, rfl⟩

namespace Disk

/-- where the names of a path lead, when the way can be gone -/
def placeOf (d : Disk) (p : Path) : Place := Path.resolve (d.origin p) p.parts

variable {d d' d'' : Disk} {p : Path} {q : Place} {e : Entry} {c : ByteArray} {s s' : ByteArray × Int}

theorem origin_congr (h : d'.here = d.here) (p : Path) : d'.origin p = d.origin p := by
  rw [origin, h, origin]

theorem placeOf_congr (h : d'.here = d.here) (p : Path) : d'.placeOf p = d.placeOf p := by
  rw [placeOf, origin_congr h, placeOf]

theorem placeOf_of_locate (h : d.locate p = .ok q) : q = d.placeOf p := locate_eq_resolve h

theorem Stands.placeOf {root : Path} {r : Place} (h : d.Stands root r) : d.placeOf root = r := (walk_eq_resolve h.walk).symm

theorem Holding.stands {root : Path} {r : Place} (h : d.Holding root r .dir) : d.Stands root r := by
  obtain ⟨-, hlocate, hdir⟩ := h
  unfold locate at hlocate
  split_ifs at hlocate
  exact ⟨hlocate, hdir⟩

theorem usable_of_locate (hnull : Work.hasNull p = false) (h : d.locate p = .ok q) : p.Usable := by
  unfold locate at h
  split_ifs at h with hlong
  exact ⟨hnull, Nat.not_lt.1 hlong⟩

theorem placeOf_below (d : Disk) (p : Path) {names : List String} (h : ".." ∉ names) :
    d.placeOf (p.below names) = d.placeOf p ++ names := by
  show Path.resolve (d.origin p) (p.parts ++ names) = _
  rw [Path.resolve_append, Path.resolve_of_not_mem h, placeOf]

/-- a path leads where it led, as long as the directories stay -/
theorem locate_mono (hhere : d'.here = d.here) (hdirs : ∀ q, d.get? q = some .dir → d'.get? q = some .dir)
    (hq : d.locate p = .ok q) : d'.locate p = .ok q := by
  unfold locate at hq ⊢
  rw [origin_congr hhere]
  split_ifs at hq ⊢
  exact walk_mono hdirs hq

/-- names are looked up in directories only -/
theorem dir_of_walk {name : String} {rest : List String} {place : Place} (h : d.walk place (name :: rest) = .ok q) :
    d.get? place = some .dir := by
  rw [walk] at h
  unfold enter at h
  split at h
  · cases h
  · next henter =>
    split at henter
    · assumption
    · cases henter
    · cases henter

/-- a way to a directory goes through directories -/
theorem dir_of_front {place : Place} {names front : List String} (h : d.walk place names = .ok q)
    (hdir : d.get? q = some .dir) (hfront : front <+: names) : d.get? (Path.resolve place front) = some .dir := by
  obtain ⟨back, rfl⟩ := hfront
  rw [walk_append] at h
  cases hwalk : d.walk place front with
  | error cause => rw [hwalk] at h; cases h
  | ok mid =>
    rw [hwalk] at h
    rw [← walk_eq_resolve hwalk]
    cases back with
    | nil => cases h; exact hdir
    | cons name rest => exact dir_of_walk h

/-! ## Trees -/

/-- everything stands in a directory, and nothing is listed twice -/
structure Tree (d : Disk) : Prop where
  distinct : (Table.keys d.items).Nodup
  above : ∀ {q e}, d.get? q = some e → d.get? q.dropLast = some .dir

/-- what holds at the top and wherever something is listed, holds of everything on a disk -/
theorem forall_get? {P : Place → Entry → Prop} (htop : P [] .dir) (hitems : ∀ i ∈ d.items, P i.1 i.2.entry) :
    ∀ q e, d.get? q = some e → P q e := by
  intro q e hq
  unfold get? at hq
  split_ifs at hq with hnil
  · cases hq
    rwa [hnil]
  · obtain ⟨stamped, hstamped, rfl⟩ := Option.map_eq_some_iff.1 hq
    exact hitems (q, stamped) (Table.mem_of_get? hstamped)

/-- whatever stands beneath a place, stands in a directory there -/
theorem Tree.dir_above (h : d.Tree) {names : List String} (hne : names ≠ []) (hq : d.get? (q ++ names) = some e) :
    d.get? q = some .dir := by
  induction names using List.reverseRecOn generalizing e with
  | nil => exact absurd rfl hne
  | append_singleton front name ih =>
    have hfront := h.above hq
    rw [← List.append_assoc, List.dropLast_concat] at hfront
    by_cases hnil : front = []
    · rwa [hnil, List.append_nil] at hfront
    · exact ih hnil hfront

theorem Tree.dir_of_prefix (h : d.Tree) {place : Place} (hq : q <+: place) (hne : q ≠ place) (he : d.get? place = some e) :
    d.get? q = some .dir := by
  obtain ⟨names, rfl⟩ := hq
  exact h.dir_above (fun hnil => hne (by rw [hnil, List.append_nil])) he

/-- nothing is beneath a file -/
theorem Tree.nothing_beneath (h : d.Tree) {names : List String} (hfile : d.fileAt? q = some c)
    (he : d.get? (q ++ names) = some e) : names = [] := by
  by_contra hne
  rw [fileAt?_of_dir (h.dir_above hne he)] at hfile
  cases hfile

theorem Tree.fileAt?_append (h : d.Tree) (hfile : d.fileAt? q = some c) (names : List String) :
    d.fileAt? (q ++ names) = if names = [] then some c else none := by
  split_ifs with hnil
  · rw [hnil, List.append_nil, hfile]
  · rw [Option.eq_none_iff_forall_ne_some]
    intro c' hc'
    obtain ⟨mode, hentry⟩ := fileAt?_eq_some_iff.1 hc'
    exact hnil (h.nothing_beneath hfile hentry)

theorem Tree.stampAt?_append (h : d.Tree) (hfile : d.stampAt? q = some s) (names : List String) :
    d.stampAt? (q ++ names) = if names = [] then some s else none := by
  split_ifs with hnil
  · rw [hnil, List.append_nil, hfile]
  · rw [stampAt?, h.fileAt?_append (stampAt?_eq_some_iff.1 hfile).1, if_neg hnil, Option.map_none]

theorem Tree.congr (h : d.Tree) (hkeys : (Table.keys d'.items).Nodup) (hget : ∀ q, d'.get? q = d.get? q) : d'.Tree where
  distinct := hkeys
  above := fun {q e} hq => by
    rw [hget] at hq ⊢
    exact h.above hq

theorem Tree.settled (h : d.Tree) (hsettled : Settled d d') : d'.Tree :=
  h.congr (hsettled.keys.symm ▸ h.distinct) hsettled.entry

theorem Tree.put (h : d.Tree) (habove : d.get? q.dropLast = some .dir) (he : d.get? q ≠ some .dir ∨ e = .dir)
    (hne : q ≠ []) : (d.put q e).Tree where
  distinct := by
    unfold Disk.put
    split_ifs
    · exact Table.nodup_set h.distinct _ _
    · rw [keys_touch]
      exact Table.nodup_set h.distinct _ _
  above := by
    intro q' e' hq'
    have hdir : ∀ top, d.get? top = some .dir → (d.put q e).get? top = some .dir := by
      intro top htop
      by_cases heq : q = top
      · subst heq
        rw [get?_put_self d e hne, he.resolve_left (not_not.2 htop)]
      · rwa [get?_put_of_ne d e heq]
    by_cases heq : q = q'
    · exact hdir _ (heq ▸ habove)
    · rw [get?_put_of_ne d e heq] at hq'
      exact hdir _ (h.above hq')

/-! ## Files that were written -/

/-- a file was put at a place where there was no directory, and nothing else happened -/
structure Wrote (q : Place) (s : ByteArray × Int) (d d' : Disk) : Prop where
  here : d'.here = d.here
  free : d.get? q ≠ some .dir
  there : d'.stampAt? q = some s
  other : ∀ place, place ≠ q → d'.get? place = d.get? place
  stamps : ∀ place, place ≠ q → d'.stampAt? place = d.stampAt? place
  tree : d.Tree → d'.Tree

namespace Wrote

theorem trans (h : Wrote q s d d') (h' : Wrote q s' d' d'') : Wrote q s' d d'' where
  here := h'.here.trans h.here
  free := h.free
  there := h'.there
  other := fun place hne => (h'.other place hne).trans (h.other place hne)
  stamps := fun place hne => (h'.stamps place hne).trans (h.stamps place hne)
  tree := fun htree => h'.tree (h.tree htree)

theorem content (h : Wrote q s d d') : d'.fileAt? q = some s.1 := (stampAt?_eq_some_iff.1 h.there).1

theorem dir_iff (h : Wrote q s d d') (place : Place) : d'.get? place = some .dir ↔ d.get? place = some .dir := by
  by_cases hne : place = q
  · rw [hne]
    obtain ⟨mode, hfile⟩ := fileAt?_eq_some_iff.1 h.content
    rw [hfile]
    exact ⟨nofun, fun hdir => absurd hdir h.free⟩
  · rw [h.other place hne]

theorem stampAt? (h : Wrote q s d d') (place : Place) :
    d'.stampAt? place = if place = q then some s else d.stampAt? place := by
  split_ifs with hq
  · rw [hq, h.there]
  · exact h.stamps place hq

theorem put (mode : Nat) (hfree : d.get? q ≠ some .dir)
    (habove : d.get? q.dropLast = some .dir ∨ ∃ old, d.fileAt? q = some old) :
    Wrote q (c, d.now) d (d.put q (.file c mode)) where
  here := here_put d q _
  free := hfree
  there := stampAt?_eq_some_iff.2 ⟨fileAt?_eq_some_iff.2 ⟨mode, get?_put_self d _ (ne_nil_of_get? hfree)⟩,
    timeOf_put_self d _ (ne_nil_of_get? hfree)⟩
  other := fun place hne => get?_put_of_ne d _ (Ne.symm hne)
  stamps := by
    refine fun place hne => stampAt?_put_of_ne (Ne.symm hne) (habove.symm.imp_left ?_)
    rintro ⟨old, hfile⟩ hnone
    obtain ⟨mode, hentry⟩ := fileAt?_eq_some_iff.1 hfile
    cases hentry.symm.trans hnone
  tree := by
    intro htree
    refine htree.put ?_ (Or.inl hfree) (ne_nil_of_get? hfree)
    rcases habove with hdir | ⟨old, hfile⟩
    · exact hdir
    · obtain ⟨mode, hfile⟩ := fileAt?_eq_some_iff.1 hfile
      exact htree.above hfile

/-- a file that is there already -/
theorem same (hfile : d.stampAt? q = some s) : Wrote q s d d where
  here := rfl
  free := fun hdir => by cases hfile.symm.trans (stampAt?_of_dir hdir)
  there := hfile
  other := fun _ _ => rfl
  stamps := fun _ _ => rfl
  tree := id

/-- a file with another time -/
theorem setTime (time : Int) (hfile : d.fileAt? q = some c) : Wrote q (c, time) d (d.setTime q time) where
  here := here_setTime d q time
  free := fun hdir => by cases hfile.symm.trans (fileAt?_of_dir hdir)
  there := by
    obtain ⟨mode, hentry⟩ := fileAt?_eq_some_iff.1 hfile
    refine stampAt?_eq_some_iff.2 ⟨(fileAt?_congr (get?_setTime d q time q)).trans hfile, timeOf_setTime_self ?_ ?_⟩
    · rw [hentry]
      nofun
    · exact ne_nil_of_get? (by rw [hentry]; nofun)
  other := fun place _ => get?_setTime d q time place
  stamps := fun place hne => stampAt?_congr (get?_setTime d q time place) (timeOf_setTime_of_ne d time (Ne.symm hne))
  tree := fun htree => htree.congr ((keys_setTime d q time).symm ▸ htree.distinct) (get?_setTime d q time)

/-- a file with another mode -/
theorem setMode (mode : Nat) (hfile : d.stampAt? q = some s) :
    Wrote q s d { d with items := Table.set d.items q ⟨.file s.1 mode, d.timeOf q⟩ } := by
  obtain ⟨hcontent, htime⟩ := stampAt?_eq_some_iff.1 hfile
  obtain ⟨old, hentry⟩ := fileAt?_eq_some_iff.1 hcontent
  have hfree : d.get? q ≠ some .dir := by
    rw [hentry]
    nofun
  have hnil := ne_nil_of_get? hfree
  -- as far as entries are concerned, the file was put there again
  have hget : ∀ place, ({ d with items := Table.set d.items q ⟨.file s.1 mode, d.timeOf q⟩ } : Disk).get? place =
      (d.put q (.file s.1 mode)).get? place := by
    intro place
    by_cases hq : place = q
    · subst hq
      rw [get?_put_self d _ hnil, Disk.get?, if_neg hnil, Table.get?_set_self]
      rfl
    · rw [get?_put_of_ne d _ (Ne.symm hq), Disk.get?, Disk.get?, Table.get?_set_of_ne _ _ (Ne.symm hq)]
  have hput : Wrote q (s.1, d.now) d (d.put q (.file s.1 mode)) := .put mode hfree (Or.inr ⟨s.1, hcontent⟩)
  exact {
    here := rfl
    free := hfree
    there := by
      refine stampAt?_eq_some_iff.2 ⟨(fileAt?_congr (hget q)).trans hput.content, ?_⟩
      rw [timeOf, Table.get?_set_self]
      exact htime
    other := fun place hne => (hget place).trans (hput.other place hne)
    stamps := by
      intro place hne
      refine stampAt?_congr ((hget place).trans (hput.other place hne)) ?_
      rw [timeOf, Table.get?_set_of_ne _ _ (Ne.symm hne), timeOf]
    tree := fun htree => (hput.tree htree).congr (Table.nodup_set htree.distinct _ _) hget }

end Wrote

end Disk

namespace Work

open Disk (Wrote Widened)

variable {p source target : Path} {w w' : World} {q : Place} {c : ByteArray} {s : ByteArray × Int}

/-- a step that starts from where a path leads -/
theorem locate_bind_eq_ok {α : Type} {f : Place → Work α} {a : α} (h : (locate p >>= f) w = (.ok a, w')) :
    f (w.disk.placeOf p) w = (.ok a, w') := by
  obtain ⟨q, hq, h⟩ := (still_locate p).bind_eq_ok h
  obtain rfl := Disk.placeOf_of_locate (locate_ok (congrArg Prod.fst hq))
  exact h

/-! ## Writing -/

/-- the mode of a file that is written to a place: that of the file there, if there is one -/
def modeAt (d : Disk) (q : Place) : Nat :=
  match d.get? q with
  | some (.file _ mode) => mode
  | _ => Entry.defaultMode

/-- when a file can be written, and what is written -/
theorem save_eq_ok_iff : save p c w = (.ok (), w') ↔ ∃ q, place w.disk p = .ok q ∧ w.disk.get? q ≠ some .dir ∧
    (w.disk.get? q.dropLast = some .dir ∨ ∃ old, w.disk.fileAt? q = some old) ∧
    w' = { w with disk := w.disk.put q (.file c (modeAt w.disk q)) } := by
  have hlocate := locate_eq p w
  unfold save
  cases hplace : place w.disk p with
  | error f =>
    rw [hplace] at hlocate
    rw [bind_error hlocate]
    simp
  | ok q =>
    rw [hplace] at hlocate
    rw [bind_ok hlocate, bind_ok (show disk w = (.ok w.disk, w) from rfl)]
    simp only [Except.ok.injEq, exists_eq_left', modeAt, Disk.fileAt?]
    have habove := parentCause_eq_none_iff (d := w.disk) (q := q)
    have hset : ∀ d : Disk, setDisk d w = (.ok (), w') ↔ w' = { w with disk := d } := by
      intro d
      unfold setDisk
      rw [Prod.mk.injEq, eq_comm (a := w')]
      exact and_iff_right rfl
    rcases hentry : w.disk.get? q with _ | _ | ⟨old, mode⟩ | _
    case some.dir => simp [refuse, fail]
    case some.file => simp [hset]
    -- where nothing is, there has to be a directory above
    case none | some.danglingLink =>
      cases hcause : parentCause w.disk q with
      | some cause =>
        rw [hcause] at habove
        simp [refuse, fail, ← habove]
      | none => simp [hset, habove.1 hcause]

/-- **A file that was saved** is at its place with its content and the present time. -/
theorem save_wrote (h : save p c w = (.ok (), w')) : Wrote (w.disk.placeOf p) (c, w.disk.now) w.disk w'.disk := by
  obtain ⟨q, hq, hfree, habove, rfl⟩ := save_eq_ok_iff.1 h
  rw [← Disk.placeOf_of_locate (place_eq_ok_iff.1 hq).2]
  exact .put _ hfree habove

theorem usable_of_save (h : save p c w = (.ok (), w')) : p.Usable := by
  obtain ⟨q, hq, -⟩ := save_eq_ok_iff.1 h
  obtain ⟨hnull, hlocate⟩ := place_eq_ok_iff.1 hq
  exact Disk.usable_of_locate hnull hlocate

/-- the path of a file that was saved leads where it led before -/
theorem place_saved (h : save p c w = (.ok (), w')) : place w'.disk p = .ok (w.disk.placeOf p) := by
  have hwrote := save_wrote h
  obtain ⟨q, hq, -⟩ := save_eq_ok_iff.1 h
  obtain ⟨hnull, hlocate⟩ := place_eq_ok_iff.1 hq
  obtain rfl := Disk.placeOf_of_locate hlocate
  exact place_eq_ok_iff.2 ⟨hnull, Disk.locate_mono hwrote.here (fun q hdir => (hwrote.dir_iff q).2 hdir) hlocate⟩

/-- where a file can be saved, another can be saved instead -/
theorem save_instead (h : save p c w = (.ok (), w')) (c' : ByteArray) : ∃ w'', save p c' w = (.ok (), w'') := by
  obtain ⟨q, hq, hfree, habove, -⟩ := save_eq_ok_iff.1 h
  exact ⟨_, save_eq_ok_iff.2 ⟨q, hq, hfree, habove, rfl⟩⟩

/-- and another after it -/
theorem save_again (h : save p c w = (.ok (), w')) (c' : ByteArray) : ∃ w'', save p c' w' = (.ok (), w'') := by
  have hwrote := save_wrote h
  have hfree : w'.disk.get? (w.disk.placeOf p) ≠ some .dir := fun hdir => hwrote.free ((hwrote.dir_iff _).1 hdir)
  exact ⟨_, save_eq_ok_iff.2 ⟨_, place_saved h, hfree, Or.inr ⟨c, hwrote.content⟩, rfl⟩⟩

/-- a file that was saved can be read -/
theorem read_saved (h : save p c w = (.ok (), w')) : read p w' = (.ok c, w') := by
  obtain ⟨mode, hfile⟩ := Disk.fileAt?_eq_some_iff.1 (save_wrote h).content
  have hlocate := (locate_eq p w').trans (by rw [place_saved h])
  unfold read
  rw [bind_ok hlocate, bind_ok (show disk w' = (.ok w'.disk, w') from rfl), hfile]
  rfl

theorem setMode_wrote {mode : Nat} (h : setMode p mode w = (.ok (), w'))
    (hfile : w.disk.stampAt? (w.disk.placeOf p) = some s) : Wrote (w.disk.placeOf p) s w.disk w'.disk := by
  obtain ⟨old, hentry⟩ := Disk.fileAt?_eq_some_iff.1 (Disk.stampAt?_eq_some_iff.1 hfile).1
  have h := locate_bind_eq_ok h
  rw [bind_ok (show disk w = (.ok w.disk, w) from rfl), hentry] at h
  cases h
  exact .setMode mode hfile

/-- a file that may have been given another mode -/
theorem setModeIf_wrote {b : Bool} {mode : Nat} (h : (if b then setMode p mode else pure ()) w = (.ok (), w'))
    (hfile : w.disk.stampAt? (w.disk.placeOf p) = some s) : Wrote (w.disk.placeOf p) s w.disk w'.disk := by
  cases b with
  | false =>
    cases h
    exact .same hfile
  | true => exact setMode_wrote h hfile

/-- a file that was given the time of another -/
theorem copyTime_wrote (h : copyTime source p w = (.ok (), w')) (hfile : w.disk.fileAt? (w.disk.placeOf p) = some c) :
    Wrote (w.disk.placeOf p) (c, w.disk.timeOf (w.disk.placeOf source)) w.disk w'.disk := by
  have h := locate_bind_eq_ok (locate_bind_eq_ok h)
  cases h
  exact .setTime _ hfile

theorem read_eq_ok {w₁ : World} (h : read p w = (.ok c, w₁)) : w₁ = w ∧ w.disk.fileAt? (w.disk.placeOf p) = some c := by
  have h := locate_bind_eq_ok h
  rw [bind_ok (show disk w = (.ok w.disk, w) from rfl)] at h
  unfold Disk.fileAt?
  cases hentry : w.disk.get? (w.disk.placeOf p) with
  | none => rw [hentry] at h; cases h
  | some e =>
    rw [hentry] at h
    cases e <;> cases h
    exact ⟨rfl, rfl⟩

/-- **A file that was copied** is at its new place with the content and the time that it has at the old one. -/
theorem copyFile_wrote (h : copyFile source target w = (.ok (), w')) (hfree : w.disk.get? (w.disk.placeOf target) ≠ some .dir)
    (hne : w.disk.placeOf source ≠ w.disk.placeOf target) :
    ∃ s, w.disk.stampAt? (w.disk.placeOf source) = some s ∧ Wrote (w.disk.placeOf target) s w.disk w'.disk ∧
      target.Usable := by
  obtain ⟨into, hinto, h⟩ := (still_isDir target).bind_eq_ok h
  have hno : into = false := by
    rw [Bool.eq_false_iff]
    rintro rfl
    obtain ⟨q, e, hq, hdir⟩ := isDir_iff.1 (congrArg Prod.fst hinto)
    obtain rfl := Disk.placeOf_of_locate hq.2.1
    cases e <;> cases hdir
    exact hfree hq.2.2
  subst hno
  change (copyContent source target >>= fun _ => copyTime source target >>= fun _ => entryAt? source >>= fun e =>
    match e with
    | some (.file _ mode) => setMode target mode
    | _ => pure ()) w = (.ok (), w') at h
  obtain ⟨_, w₁, hcopy, hrest⟩ := Work.bind_eq_ok h
  obtain ⟨c, w₂, hread, hsave⟩ := Work.bind_eq_ok hcopy
  obtain ⟨_, w₃, htime, hmode⟩ := Work.bind_eq_ok hrest
  obtain ⟨e, -, hmode⟩ := (still_entryAt? source).bind_eq_ok hmode
  obtain ⟨rfl, hsource⟩ := read_eq_ok hread
  have hsaved := save_wrote hsave
  have hstamp : w₂.disk.stampAt? (w₂.disk.placeOf source) = some (c, w₂.disk.timeOf (w₂.disk.placeOf source)) :=
    Disk.stampAt?_eq_some_iff.2 ⟨hsource, rfl⟩
  -- the old place has the time that it had before
  have hold : w₁.disk.timeOf (w₁.disk.placeOf source) = w₂.disk.timeOf (w₂.disk.placeOf source) := by
    rw [Disk.placeOf_congr hsaved.here]
    exact (Disk.stampAt?_eq_some_iff.1 ((hsaved.stamps _ hne).trans hstamp)).2
  have htimed := copyTime_wrote htime (by rw [Disk.placeOf_congr hsaved.here]; exact hsaved.content)
  rw [hold, Disk.placeOf_congr hsaved.here] at htimed
  have hwrote := hsaved.trans htimed
  refine ⟨_, hstamp, ?_, usable_of_save hsave⟩
  split at hmode
  · have hmoded := setMode_wrote hmode (by rw [Disk.placeOf_congr hwrote.here]; exact hwrote.there)
    rw [Disk.placeOf_congr hwrote.here] at hmoded
    exact hwrote.trans hmoded
  · cases hmode
    exact hwrote

/-! ## Making directories -/

theorem tree_makeDirs (p : Path) (w : World) (h : w.disk.Tree) : (makeDirs p w).2.disk.Tree := by
  have hallows : Allows fun d d' => d.Tree → d'.Tree := ⟨fun _ htree => htree, fun h h' htree => h' (h htree)⟩
  refine hallows.makeDirs (fun front _ d q _ hnone habove htree => ?_) w h
  exact htree.put habove (Or.inr rfl) (Disk.ne_nil_of_get? (by rw [hnone]; nofun))

/-- new directories come on the way, and nothing else changes -/
theorem widened_makeDirs (p : Path) (w : World) :
    Widened (fun q => ∃ front, front <+: p.parts ∧ q = Path.resolve (w.disk.origin p) front) w.disk (makeDirs p w).2.disk := by
  have hallows : ∀ S : Place → Prop, Allows fun d d' => d.here = w.disk.here → Widened S d d' := fun S =>
    ⟨fun d _ => Widened.refl S d, fun h h' hhere => (h hhere).trans (h' ((h hhere).here.trans hhere))⟩
  refine (hallows _).makeDirs (fun front hfront d q hq hnone _ hhere => ?_) w rfl
  refine Widened.put_dir ⟨front, hfront, ?_⟩ hnone
  rw [Disk.placeOf_of_locate hq, Disk.placeOf, Disk.origin_congr hhere]
  rfl

/-- **Below a directory that stands**, nothing comes but the directories on the way down. -/
theorem widened_below {root : Path} {r : Place} (hroot : w.disk.Stands root r) {names : List String} (hdown : ".." ∉ names) :
    Widened (OnWay r names) w.disk (makeDirs (root.below names) w).2.disk := by
  have hwidened := widened_makeDirs (root.below names) w
  refine ⟨hwidened.here, fun q => (hwidened.entry q).imp id ?_⟩
  rintro ⟨⟨front, hfront, hq⟩, hnone, hdir⟩
  refine ⟨?_, hnone, hdir⟩
  change q = Path.resolve (w.disk.origin root) front at hq
  rcases Path.prefix_append_cases hfront with habove | ⟨back, hback, rfl⟩
  · rw [hq, Disk.dir_of_front hroot.walk hroot.dir habove] at hnone
    cases hnone
  · refine ⟨back, hback, ?_⟩
    have hback' : ".." ∉ back := fun hmem => hdown (hback.subset hmem)
    rw [hq, Path.resolve_append, Path.resolve_of_not_mem hback', Disk.walk_eq_resolve hroot.walk]

theorem makeDir_eq_ok (h : makeDir p w = (.ok (), w')) : ∃ q, place w.disk p = .ok q ∧ w.disk.get? q = none ∧
    w' = { w with disk := w.disk.put q .dir } := by
  have hlocate := locate_eq p w
  unfold makeDir at h
  cases hplace : place w.disk p with
  | error f =>
    rw [hplace] at hlocate
    rw [bind_error hlocate] at h
    cases h
  | ok q =>
    rw [hplace] at hlocate
    rw [bind_ok hlocate, bind_ok (show disk w = (.ok w.disk, w) from rfl)] at h
    split at h
    · cases h
    · next hentry =>
      cases hcause : parentCause w.disk q with
      | some cause => rw [hcause] at h; cases h
      | none =>
        rw [hcause] at h
        cases h
        exact ⟨q, rfl, by simpa [Disk.hasEntry] using hentry, rfl⟩

theorem attempt_eq {α : Type} {x : Work α} {r : Except Fault α} (h : x w = (r, w')) : attempt x w = (.ok r, w') := by
  unfold attempt
  rw [h]

theorem holding_of_ensureDir (h : ensureDir p w = (.ok (), w')) : ∃ q, w'.disk.Holding p q .dir := by
  rcases hr : makeDir p w with ⟨r, w₁⟩
  unfold ensureDir at h
  rw [bind_ok (attempt_eq hr)] at h
  cases r with
  | ok _ =>
    cases h
    obtain ⟨q, hq, hnone, rfl⟩ := makeDir_eq_ok hr
    obtain ⟨hnull, hlocate⟩ := place_eq_ok_iff.1 hq
    have hwidened : Widened (fun _ => True) w.disk (w.disk.put q .dir) := .put_dir trivial hnone
    exact ⟨q, hnull, Disk.locate_mono hwidened.here (fun _ hdir => hwidened.get? hdir) hlocate,
      Disk.get?_put_self _ _ (Disk.ne_nil_of_get? (by rw [hnone]; nofun))⟩
  | error f =>
    dsimp only at h
    split at h
    · cases h
    · obtain ⟨b, hb, h⟩ := (still_isDir p).bind_eq_ok h
      split at h
      · next htrue =>
        cases h
        obtain ⟨q, e, hq, hdir⟩ := isDir_iff.1 (htrue ▸ congrArg Prod.fst hb)
        cases e <;> cases hdir
        exact ⟨q, hq⟩
      · cases h
    · cases h

/-- **Directories that were made** stand. -/
theorem holding_of_makeDirs (h : makeDirs p w = (.ok (), w')) : ∃ q, w'.disk.Holding p q .dir := by
  have hup : ∀ names : List String, ∀ w w', makeDirsUp p.root ensureDir names w = (.ok (), w') →
      ∃ q, w'.disk.Holding ⟨p.root, names.reverse⟩ q .dir := by
    intro names
    cases names with
    | nil => exact fun w w' h => holding_of_ensureDir h
    | cons name up =>
      intro w w' h
      rcases hr : ensureDir ⟨p.root, (name :: up).reverse⟩ w with ⟨r, w₁⟩
      unfold makeDirsUp at h
      rw [bind_ok (attempt_eq hr)] at h
      cases r with
      | ok _ =>
        cases h
        exact holding_of_ensureDir hr
      | error f =>
        dsimp only at h
        split at h
        · obtain ⟨_, w₂, -, hlast⟩ := Work.bind_eq_ok h
          exact holding_of_ensureDir hlast
        · cases h
  have hparts := hup p.parts.reverse w w' h
  rwa [List.reverse_reverse] at hparts

end Work

end Classwright
