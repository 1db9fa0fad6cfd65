/-
A directory that is copied to a place where nothing is.

The parts of the directory are copied one after the other, directories before what they hold. What is at the new place
after some of the parts are these parts; when all could be copied, it has the same files as the old one, with their times.

- `Disk.mem_under`, `mem_filesUnder`: what a listing lists;
- `Disk.Copied`: what is at the new place after some of the parts; `Copied.start`: before the first of them; `Copied.dir`,
  `Copied.file`: one more part; `Copied.settled`: times of directories do not matter;
- `Disk.Mirrors`: the new place has the files of the old one; `Copied.mirrors`: when all parts were copied;
- `Disk.Added`: elsewhere nothing changed, but for directories on the way;
- `Work.copyTree_mirrors`: that is what copying a directory comes to.
-/
import Classwright.Proofs.Writes

namespace Classwright

namespace Disk

variable {d d' : Disk} {p q : Place} {e : Entry} {names : List String}

/-! ## Listings -/

theorem mem_under (h : d.Tree) : (names, e) ∈ d.under p ↔ names ≠ [] ∧ d.get? (p ++ names) = some e := by
  unfold under
  rw [List.mem_filterMap]
  constructor
  · rintro ⟨⟨place, stamped⟩, hmem, hsome⟩
    dsimp only at hsome
    split_ifs at hsome with hbeneath
    cases hsome
    obtain ⟨hfront, hne⟩ := Bool.and_eq_true_iff.1 hbeneath
    obtain ⟨rest, rfl⟩ := List.isPrefixOf_iff_prefix.1 hfront
    have hrest : rest ≠ [] := by
      rintro rfl
      simp at hne
    rw [List.drop_left, get?, if_neg (List.append_ne_nil_of_right_ne_nil p hrest), Table.get?_of_mem h.distinct hmem]
    exact ⟨hrest, rfl⟩
  · rintro ⟨hne, hentry⟩
    rw [get?, if_neg (List.append_ne_nil_of_right_ne_nil p hne)] at hentry
    obtain ⟨stamped, hstamped, rfl⟩ := Option.map_eq_some_iff.1 hentry
    refine ⟨(p ++ names, stamped), Table.mem_of_get? hstamped, ?_⟩
    have hbeneath : (beneath p (p ++ names) && p ++ names != p) = true := by
      rw [Bool.and_eq_true_iff]
      exact ⟨List.isPrefixOf_iff_prefix.2 (List.prefix_append p names), by simpa using hne⟩
    dsimp only
    rw [if_pos hbeneath, List.drop_left]

theorem mem_filesUnder (h : d.Tree) (hdir : d.get? p = some .dir) {content : ByteArray} :
    (names, content) ∈ d.filesUnder p ↔ d.fileAt? (p ++ names) = some content := by
  unfold filesUnder
  rw [List.mem_filterMap, fileAt?_eq_some_iff]
  constructor
  · rintro ⟨⟨rest, entry⟩, hmem, hsome⟩
    cases entry <;> cases hsome
    exact ⟨_, ((mem_under h).1 hmem).2⟩
  · rintro ⟨mode, hfile⟩
    refine ⟨(names, .file content mode), (mem_under h).2 ⟨?_, hfile⟩, rfl⟩
    rintro rfl
    rw [List.append_nil, hdir] at hfile
    cases hfile

/-! ## Copies -/

/-- what is at the place `new` when some of the parts of the place `old` were copied there; `d` is the disk before them -/
structure Copied (target : Path) (old new : Place) (done : List (List String × Entry)) (d d' : Disk) : Prop where
  stands : d'.Stands target new
  here : d'.here = d.here
  tree : d'.Tree
  outside : ∀ q, ¬ new <+: q → d'.get? q = d.get? q
  stamps : ∀ q, ¬ new <+: q → d'.stampAt? q = d.stampAt? q
  dirs : ∀ names, d'.get? (new ++ names) = some .dir → d.get? (old ++ names) = some .dir
  files : ∀ names s, d'.stampAt? (new ++ names) = some s ↔
    (∃ mode, (names, .file s.1 mode) ∈ done) ∧ d.timeOf (old ++ names) = s.2
  usable : ∀ names s, d'.stampAt? (new ++ names) = some s → (target.below names).Usable

/-- one place has the files of another, with their times -/
structure Mirrors (old new : Place) (d d' : Disk) : Prop where
  dirs : ∀ names, d'.get? (new ++ names) = some .dir → d.get? (old ++ names) = some .dir
  files : ∀ names, d'.stampAt? (new ++ names) = d.stampAt? (old ++ names)

namespace Copied

variable {target : Path} {old new : Place} {done : List (List String × Entry)} {d d' d'' : Disk} {names : List String}

/-- one more directory -/
theorem dir (h : Copied target old new done d d') (htree : d.Tree) (htree' : d''.Tree)
    (hnew : Widened (Work.OnWay new names) d' d'') (hstamps : ∀ q, d''.stampAt? q = d'.stampAt? q)
    (hpart : d.get? (old ++ names) = some .dir) : Copied target old new (done ++ [(names, .dir)]) d d'' where
  stands := h.stands.widened hnew
  here := hnew.here.trans h.here
  tree := htree'
  outside := by
    intro q hq
    rcases hnew.entry q with heq | ⟨⟨front, -, rfl⟩, -, -⟩
    · rw [heq, h.outside q hq]
    · exact absurd (List.prefix_append new front) hq
  stamps := fun q hq => (hstamps q).trans (h.stamps q hq)
  dirs := by
    intro ns hns
    rcases hnew.entry (new ++ ns) with heq | ⟨⟨front, hfront, heq⟩, -, -⟩
    · exact h.dirs ns (heq ▸ hns)
    · -- what stands above a directory of the old place is a directory there
      obtain rfl : ns = front := List.append_cancel_left heq
      by_cases hends : ns = names
      · rwa [hends]
      · exact htree.dir_of_prefix ((List.prefix_append_right_inj old).2 hfront)
          (fun heq => hends (List.append_cancel_left heq)) hpart
  files := by
    intro ns s
    rw [hstamps, h.files]
    simp
  usable := fun ns s hns => h.usable ns s (hstamps _ ▸ hns)

/-- one more file -/
theorem file {s : ByteArray × Int} {mode : Nat} (h : Copied target old new done d d')
    (hdone : ∀ c m, (names, .file c m) ∈ done → c = s.1) (htime : d.timeOf (old ++ names) = s.2)
    (hnew : Wrote (new ++ names) s d' d'') (husable : (target.below names).Usable) :
    Copied target old new (done ++ [(names, .file s.1 mode)]) d d'' where
  stands := h.stands.mono hnew.here fun q => (hnew.dir_iff q).2
  here := hnew.here.trans h.here
  tree := hnew.tree h.tree
  outside := by
    intro q hq
    rw [hnew.other q fun heq => hq (heq ▸ List.prefix_append new names), h.outside q hq]
  stamps := by
    intro q hq
    rw [hnew.stamps q fun heq => hq (heq ▸ List.prefix_append new names), h.stamps q hq]
  dirs := fun ns hns => h.dirs ns ((hnew.dir_iff _).1 hns)
  files := by
    intro ns s'
    rw [hnew.stampAt?]
    by_cases hns : ns = names
    · subst hns
      rw [if_pos rfl, Option.some.injEq]
      constructor
      · rintro rfl
        exact ⟨⟨mode, by simp⟩, htime⟩
      · rintro ⟨⟨m, hm⟩, htime'⟩
        refine Prod.ext ?_ (htime.symm.trans htime')
        rcases List.mem_append.1 hm with hm | hm
        · exact (hdone _ m hm).symm
        · exact (Entry.file.inj (Prod.mk.inj (List.mem_singleton.1 hm)).2).1.symm
    · rw [if_neg fun heq => hns (List.append_cancel_left heq), h.files]
      simp [hns]
  usable := by
    intro ns s' hs
    rw [hnew.stampAt?] at hs
    split_ifs at hs with hns
    · rwa [List.append_cancel_left hns]
    · exact h.usable ns s' hs

/-- times of directories do not matter -/
theorem settled (h : Copied target old new done d d') (hsettled : Settled d' d'') : Copied target old new done d d'' where
  stands := h.stands.mono hsettled.here fun q hq => (hsettled.entry q).trans hq
  here := hsettled.here.trans h.here
  tree := h.tree.settled hsettled
  outside := fun q hq => (hsettled.entry q).trans (h.outside q hq)
  stamps := fun q hq => (hsettled.stamp q).trans (h.stamps q hq)
  dirs := fun ns hns => h.dirs ns ((hsettled.entry _).symm.trans hns)
  files := fun ns s => by rw [hsettled.stamp, h.files]
  usable := fun ns s hs => h.usable ns s ((hsettled.stamp _).symm.trans hs)

/-- nothing was copied yet to a place with nothing beneath it -/
theorem start (hstands : d.Stands target new) (htree : d.Tree) (hdir : d.get? old = some .dir)
    (hfree : ∀ ns, ns ≠ [] → d.get? (new ++ ns) ≠ some .dir) (hempty : ∀ ns, d.stampAt? (new ++ ns) = none) :
    Copied target old new [] d d where
  stands := hstands
  here := rfl
  tree := htree
  outside := fun _ _ => rfl
  stamps := fun _ _ => rfl
  dirs := by
    intro ns hns
    by_cases hnil : ns = []
    · rw [hnil, List.append_nil, hdir]
    · exact absurd hns (hfree ns hnil)
  files := by
    intro ns s
    simp [hempty]
  usable := by
    intro ns s hs
    rw [hempty] at hs
    cases hs

/-- all parts of a directory were copied -/
theorem mirrors (h : Copied target old new done d d') (hdir : d.get? old = some .dir)
    (hall : ∀ ns e, (ns, e) ∈ done ↔ ns ≠ [] ∧ d.get? (old ++ ns) = some e) : Mirrors old new d d' where
  dirs := h.dirs
  files := by
    intro ns
    refine Option.ext fun s => ?_
    rw [h.files, stampAt?_eq_some_iff, fileAt?_eq_some_iff]
    refine and_congr_left' (exists_congr fun mode => ?_)
    rw [hall]
    refine and_iff_right_of_imp fun hfile hnil => ?_
    rw [hnil, List.append_nil, hdir] at hfile
    cases hfile

end Copied

/-- what is mirrored may be read off any disk that has the same there -/
theorem Mirrors.congr {old new : Place} {d d₁ d' : Disk} (h : Mirrors old new d d')
    (hsame : ∀ ns, d.get? (old ++ ns) = d₁.get? (old ++ ns))
    (hstamps : ∀ ns, d.stampAt? (old ++ ns) = d₁.stampAt? (old ++ ns)) : Mirrors old new d₁ d' where
  dirs := fun ns hns => hsame ns ▸ h.dirs ns hns
  files := fun ns => (h.files ns).trans (hstamps ns)

/-! ## Additions -/

/-- something was added where names lead to from a place: elsewhere nothing changed, but for directories on the way -/
structure Added (r : Place) (names : List String) (d d' : Disk) : Prop where
  here : d'.here = d.here
  tree : d'.Tree
  outside : ∀ q, ¬ r ++ names <+: q →
    d'.get? q = d.get? q ∨ Work.OnWay r names q ∧ d.get? q = none ∧ d'.get? q = some .dir
  stamps : ∀ q, ¬ r ++ names <+: q → d'.stampAt? q = d.stampAt? q

namespace Added

variable {r : Place} {d₁ : Disk}

theorem kept (h : Added r names d d') (hq : ¬ r ++ names <+: q) (he : d.get? q = some e) : d'.get? q = some e := by
  rcases h.outside q hq with heq | ⟨-, hnone, -⟩
  · rw [heq, he]
  · rw [hnone] at he
    cases he

/-- a file behind the directories on its way -/
theorem of_file {s : ByteArray × Int} (hwidened : Widened (Work.OnWay r names.dropLast) d d₁)
    (hstamps : ∀ q, d₁.stampAt? q = d.stampAt? q) (htree : d₁.Tree) (hwrote : Wrote (r ++ names) s d₁ d') :
    Added r names d d' where
  here := hwrote.here.trans hwidened.here
  tree := hwrote.tree htree
  outside := by
    intro q hq
    rw [hwrote.other q fun heq => hq (heq ▸ List.prefix_refl _)]
    refine (hwidened.entry q).imp id ?_
    rintro ⟨⟨front, hfront, rfl⟩, hnew⟩
    exact ⟨⟨front, hfront.trans (List.dropLast_prefix names), rfl⟩, hnew⟩
  stamps := fun q hq => (hwrote.stamps q fun heq => hq (heq ▸ List.prefix_refl _)).trans (hstamps q)

end Added

namespace Widened

variable {r : Place}

/-- directories on the way to a place are in no place apart from it -/
theorem same_apart {old : Place} (h : Widened (Work.OnWay r names) d d') (hapart : ¬ old <+: r ++ names) (ns : List String) :
    d'.get? (old ++ ns) = d.get? (old ++ ns) := by
  rcases h.entry (old ++ ns) with heq | ⟨⟨front, hfront, heq⟩, -, -⟩
  · exact heq
  · refine absurd ((List.prefix_append old ns).trans ?_) hapart
    rw [heq]
    exact (List.prefix_append_right_inj r).2 hfront

/-- nor are they beneath the place -/
theorem same_beneath (h : Widened (Work.OnWay r names) d d') {ns : List String} (hne : ns ≠ []) :
    d'.get? (r ++ names ++ ns) = d.get? (r ++ names ++ ns) := by
  rcases h.entry (r ++ names ++ ns) with heq | ⟨⟨front, hfront, heq⟩, -, -⟩
  · exact heq
  · rw [List.append_assoc] at heq
    have hlength := (List.append_cancel_left heq ▸ hfront : names ++ ns <+: names).length_le
    rw [List.length_append] at hlength
    exact absurd (List.length_eq_zero_iff.1 (by omega)) hne

end Widened

end Disk

namespace Work

open Disk (Added Copied Mirrors Widened Wrote)

variable {source target : Path} {old new : Place} {w w' : World}

theorem copyPart_ok {part : List String × Entry} (h : copyPart source target part w = (.ok true, w')) :
    (match part.2 with
      | .dir => makeDirs (target.below part.1)
      | _ => copyFile (source.below part.1) (target.below part.1)) w = (.ok (), w') := by
  rcases hr : (match part.2 with
    | .dir => makeDirs (target.below part.1)
    | _ => copyFile (source.below part.1) (target.below part.1)) w with ⟨r, w₁⟩
  have hrest := (bind_ok (attempt_eq hr) _).symm.trans h
  cases r <;> cases hrest
  exact hr

/-- **One part is copied.** -/
theorem copied_part {done : List (List String × Entry)} {part : List String × Entry} {d : Disk} (htree : d.Tree)
    (hold : ∀ names, ¬ new <+: old ++ names) (hplace : d.placeOf source = old)
    (hcopied : Copied target old new done d w.disk) (hdone : ∀ p ∈ done, d.get? (old ++ p.1) = some p.2)
    (hpart : d.get? (old ++ part.1) = some part.2) (hdown : ".." ∉ part.1)
    (h : copyPart source target part w = (.ok true, w')) : Copied target old new (done ++ [part]) d w'.disk := by
  obtain ⟨names, e⟩ := part
  have htarget : w.disk.placeOf (target.below names) = new ++ names := by
    rw [Disk.placeOf_below _ _ hdown, hcopied.stands.placeOf]
  have hsource : w.disk.placeOf (source.below names) = old ++ names := by
    rw [Disk.placeOf_below _ _ hdown, Disk.placeOf_congr hcopied.here, hplace]
  have hmade := copyPart_ok h
  have hfile : copyFile (source.below names) (target.below names) w = (.ok (), w') → e ≠ .dir →
      Copied target old new (done ++ [(names, e)]) d w'.disk := by
    intro hcopy hno
    have hfree : w.disk.get? (w.disk.placeOf (target.below names)) ≠ some .dir := by
      rw [htarget]
      intro hdir
      exact hno (Option.some.inj (hpart.symm.trans (hcopied.dirs names hdir)))
    have hne : w.disk.placeOf (source.below names) ≠ w.disk.placeOf (target.below names) := by
      rw [hsource, htarget]
      exact fun heq => hold names (heq ▸ List.prefix_append new names)
    obtain ⟨s, hs, hwrote, husable⟩ := copyFile_wrote hcopy hfree hne
    rw [hsource, hcopied.stamps _ (hold names)] at hs
    obtain ⟨hcontent, htime⟩ := Disk.stampAt?_eq_some_iff.1 hs
    obtain ⟨mode, hentry⟩ := Disk.fileAt?_eq_some_iff.1 hcontent
    cases hpart.symm.trans hentry
    rw [htarget] at hwrote
    refine hcopied.file (fun c m hm => ?_) htime hwrote husable
    cases (hdone _ hm).symm.trans hpart
    rfl
  cases e with
  | dir =>
    have hwidened := widened_below hcopied.stands hdown
    have htree' := tree_makeDirs (target.below names) w hcopied.tree
    dsimp only at hmade
    rw [hmade] at hwidened htree'
    exact hcopied.dir htree htree' hwidened ((stampAt?_makeDirs _).of_run hmade) hpart
  | file content mode => exact hfile hmade nofun
  | danglingLink => exact hfile hmade nofun

/-- **All parts are copied**, one after the other. -/
theorem copied_parts {done parts : List (List String × Entry)} {d : Disk} (htree : d.Tree)
    (hold : ∀ names, ¬ new <+: old ++ names) (hplace : d.placeOf source = old)
    (hcopied : Copied target old new done d w.disk) (hparts : ∀ p ∈ done ++ parts, d.get? (old ++ p.1) = some p.2)
    (hdown : ∀ p ∈ parts, ".." ∉ p.1) (h : copyParts source target parts w = (.ok true, w')) :
    Copied target old new (done ++ parts) d w'.disk := by
  induction parts generalizing done w with
  | nil =>
    cases h
    rwa [List.append_nil]
  | cons part rest ih =>
    obtain ⟨one, w₁, hone, h⟩ := Work.bind_eq_ok h
    obtain ⟨others, w₂, hothers, h⟩ := Work.bind_eq_ok h
    obtain ⟨rfl, rfl⟩ := Bool.and_eq_true_iff.1 (Except.ok.inj (congrArg Prod.fst h))
    obtain rfl : w₂ = w' := congrArg Prod.snd h
    have happend : done ++ part :: rest = done ++ [part] ++ rest := by rw [List.append_assoc, List.singleton_append]
    rw [happend] at hparts ⊢
    have hnext := copied_part htree hold hplace hcopied (fun p hp => hparts p (by simp [hp])) (hparts part (by simp))
      (hdown part List.mem_cons_self) hone
    exact ih hnext hparts (fun p hp => hdown p (List.mem_cons_of_mem part hp)) hothers

theorem mem_inOrder {α : Type} {xs : List (List String × α)} {x : List String × α} : x ∈ inOrder xs ↔ x ∈ xs :=
  (List.mergeSort_perm xs _).mem_iff

/-- **A directory that was copied** to a place where nothing is: that place has its files with their times, and nothing else
changed but for directories on the way. -/
theorem copyTree_mirrors {root : Path} {r : Place} {names : List String}
    (hroot : w.disk.Stands root r) (htree : w.disk.Tree) (hdown : ".." ∉ names)
    (hold : w.disk.placeOf source = old) (hdir : w.disk.get? old = some .dir)
    (hapart : ¬ old <+: r ++ names ∧ ¬ r ++ names <+: old)
    (hnames : ∀ ns e, w.disk.get? (old ++ ns) = some e → ".." ∉ ns)
    (hfree : ∀ ns, ns ≠ [] → w.disk.get? (r ++ names ++ ns) ≠ some .dir)
    (hempty : ∀ ns, w.disk.stampAt? (r ++ names ++ ns) = none)
    (h : copyTree source (root.below names) w = (.ok (), w')) :
    Added r names w.disk w'.disk ∧ Mirrors old (r ++ names) w.disk w'.disk ∧
      ∀ ns s, w'.disk.stampAt? (r ++ names ++ ns) = some s → (root.below (names ++ ns)).Usable := by
  have h := locate_bind_eq_ok h
  rw [hold, bind_ok (show disk w = (.ok w.disk, w) from rfl)] at h
  obtain ⟨_, w₁, hmade, h⟩ := Work.bind_eq_ok h
  obtain ⟨all, w₂, hcopy, h⟩ := Work.bind_eq_ok h
  obtain ⟨_, w₃, hsettle, h⟩ := Work.bind_eq_ok h
  cases all with
  | false => cases h
  | true =>
  cases h
  have hsettled := (settled_settleDirs source (root.below names) _).of_run hsettle
  -- the directories that are made first are neither in the old place nor beneath the new one
  have hwidened := widened_below hroot hdown
  have htree₁ := tree_makeDirs (root.below names) w htree
  rw [hmade] at hwidened htree₁
  have hstamps := (stampAt?_makeDirs _).of_run hmade
  have hsame := hwidened.same_apart hapart.1
  have haway : ∀ ns, ¬ r ++ names <+: old ++ ns := fun ns hns =>
    (List.prefix_or_prefix_of_prefix hns (List.prefix_append old ns)).elim hapart.2 hapart.1
  obtain ⟨place, hplace⟩ := holding_of_makeDirs hmade
  obtain rfl : place = r ++ names := by
    rw [Disk.placeOf_of_locate hplace.2.1, Disk.placeOf_below _ _ hdown, Disk.placeOf_congr hwidened.here,
      hroot.placeOf]
  have hdir₁ : w₁.disk.get? old = some .dir := hwidened.get? hdir
  have hstart : Copied (root.below names) old (r ++ names) [] w₁.disk w₁.disk :=
    Copied.start hplace.stands htree₁ hdir₁ (fun ns hne => hwidened.same_beneath hne ▸ hfree ns hne)
      fun ns => (hstamps _).trans (hempty ns)
  have hparts : ∀ ns e, (ns, e) ∈ inOrder (w.disk.under old) ↔ ns ≠ [] ∧ w₁.disk.get? (old ++ ns) = some e := by
    intro ns e
    rw [mem_inOrder, hsame]
    exact Disk.mem_under htree
  have hcopied := copied_parts htree₁ haway (by rw [Disk.placeOf_congr hwidened.here, hold]) hstart
    (fun p hp => ((hparts p.1 p.2).1 hp).2) (fun p hp => hnames p.1 p.2 (hsame p.1 ▸ ((hparts p.1 p.2).1 hp).2)) hcopy
  rw [List.nil_append] at hcopied
  have hcopied := hcopied.settled hsettled
  refine ⟨⟨hcopied.here.trans hwidened.here, hcopied.tree, fun x hx => ?_, fun x hx => ?_⟩,
    (hcopied.mirrors hdir₁ hparts).congr hsame fun ns => hstamps _, fun ns s hns => ?_⟩
  · rw [hcopied.outside x hx]
    exact hwidened.entry x
  · exact (hcopied.stamps x hx).trans (hstamps x)
  · have husable := hcopied.usable ns s hns
    unfold Path.below at husable ⊢
    rwa [List.append_assoc] at husable

end Work

end Classwright
