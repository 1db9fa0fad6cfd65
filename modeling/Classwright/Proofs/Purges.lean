/-
What is removed from a directory of workspaces when a process starts.

Names are found by a pattern that begins with the prefix of workspaces, and what is found is removed when it is old enough,
one thing after the other. Each removal leaves the others as they were, with their times. Which names are found depends on
the prefix: one without special characters finds the names that begin with it and a hyphen, any other one finds a name that
does not, or misses one that does.

- `Disk.isStale`: something is old enough to be removed; `Disk.Listing`: a directory whose entries can be reached;
- `Disk.Swept`: entries of a directory that went, with all beneath them, and nothing else;
- `Workspace.purgeOne_eq`, `purgeAll_swept`: one removal, and all of them;
- `Workspace.leftovers_eq`, `purge_found`: what is found goes; `Workspace.PurgesOwn`: what goes has the prefix;
- `stale_purged`: it has exactly when the prefix has no special characters.
-/
import Classwright.Proofs.Packing
import Classwright.Proofs.Patterns
import Classwright.Proofs.Releases

namespace Classwright

namespace Disk

variable {d d' d'' : Disk} {root : Path} {r q top : Place} {name : String} {e : Entry}

/-! ## Times -/

/-- something that is there and was last changed longer ago than a limit; a link that leads nowhere has no time -/
def isStale (d : Disk) (limit : Int) (q : Place) : Bool := Work.seen (d.get? q) && decide (d.timeOf q < d.now - limit)

theorem now_erase (d : Disk) (top : Place) : (d.erase top).now = d.now :=
  (SameClock.setTime { d with items := d.items.filter fun i => !beneath top i.1 } top.dropLast d.now).now

theorem here_erase (d : Disk) (top : Place) : (d.erase top).here = d.here := here_touch _ _

/-- a removal changes the time of the directory above, and of nothing that stays -/
theorem timeOf_erase (hout : ¬ top <+: q) (habove : q ≠ top.dropLast) : (d.erase top).timeOf q = d.timeOf q := by
  have hfilter : Table.get? (d.items.filter fun i => !beneath top i.1) q = Table.get? d.items q := by
    have hbeneath : beneath top q = false := by
      rw [beneath, Bool.eq_false_iff, Ne, List.isPrefixOf_iff_prefix]
      exact hout
    rw [Table.get?_filter d.items (fun i => !beneath top i), hbeneath]
    rfl
  unfold erase touch
  rw [timeOf_setTime_of_ne _ _ (Ne.symm habove), timeOf, hfilter, timeOf]

theorem not_prefix_sibling {other : String} (h : name ≠ other) : ¬ r ++ [name] <+: r ++ [other] := by
  rw [List.prefix_append_right_inj]
  exact fun hprefix => h (List.cons_prefix_cons.1 hprefix).1

theorem isStale_erase {other : String} (limit : Int) (h : name ≠ other) :
    (d.erase (r ++ [name])).isStale limit (r ++ [other]) = d.isStale limit (r ++ [other]) := by
  have hout := not_prefix_sibling (r := r) h
  have habove : r ++ [other] ≠ (r ++ [name]).dropLast := by
    rw [List.dropLast_concat]
    exact fun heq => by simpa using congrArg List.length heq
  unfold isStale
  rw [get?_erase_of_not hout, timeOf_erase hout habove, now_erase]

/-! ## Directories whose entries can be reached -/

/-- no entry of a directory is on the way to it -/
structure Reached (d : Disk) (root : Path) (r : Place) : Prop where
  holding : d.Holding root r .dir
  way : ∀ front, front <+: root.parts → ∀ name, ¬ r ++ [name] <+: Path.resolve (d.origin root) front

/-- a directory of a disk, with names of its entries that a path can end in -/
structure Listing (d : Disk) (root : Path) (r : Place) : Prop extends Reached d root r where
  tree : d.Tree
  named : ∀ name e, d.get? (r ++ [name]) = some e → root.Fits [name]

/-- the same places on a way make it the same way -/
theorem walk_congr {p : Place} {names : List String}
    (h : ∀ front, front <+: names → d'.get? (Path.resolve p front) = d.get? (Path.resolve p front)) :
    d'.walk p names = d.walk p names := by
  induction names generalizing p with
  | nil => rfl
  | cons n rest ih =>
    have henter : d'.enter p = d.enter p := by
      unfold enter
      rw [show d'.get? p = d.get? p from h [] List.nil_prefix]
    have hrest : ∀ p', Path.walk p n = p' → d'.walk p' rest = d.walk p' rest := by
      rintro p' rfl
      exact ih fun front hfront => h (n :: front) (List.cons_prefix_cons.2 ⟨rfl, hfront⟩)
    rw [walk, walk, henter]
    unfold Path.walk at hrest
    split
    · rfl
    · split_ifs with hup
      · exact hrest _ (if_pos hup)
      · rfl
      · exact hrest _ (if_neg hup)

/-- a directory is reached after one of its entries went -/
theorem Reached.erase (h : d.Reached root r) (name : String) : (d.erase (r ++ [name])).Reached root r := by
  have horigin : (d.erase (r ++ [name])).origin root = d.origin root := origin_congr (here_erase d _) root
  refine ⟨⟨h.holding.1, ?_, ?_⟩, ?_⟩
  · have hlocate := h.holding.2.1
    unfold locate at hlocate ⊢
    rw [horigin, walk_congr fun front hfront => get?_erase_of_not (h.way front hfront name)]
    exact hlocate
  · have hout : ¬ r ++ [name] <+: r := by
      intro hprefix
      have hle := hprefix.length_le
      rw [List.length_append, List.length_singleton] at hle
      omega
    rw [get?_erase_of_not hout]
    exact h.holding.2.2
  · rw [horigin]
    exact h.way

theorem Reached.place (h : d.Reached root r) (hfits : root.Fits [name]) :
    Work.place d (root.below [name]) = .ok (r ++ [name]) := by
  have hlocate := Work.disk_locate_below (w := { disk := d }) h.holding.stands hfits
  rw [Work.place_eq_ok_iff]
  refine ⟨hfits.noNull, hlocate.trans (walk_of_dirs hfits.down hfits.shortNames fun front hfront hne => ?_)⟩
  rcases List.prefix_cons_iff.1 hfront with rfl | ⟨rest, rfl, hrest⟩
  · rw [List.append_nil]
    exact h.holding.2.2
  · rw [List.prefix_nil.1 hrest] at hne
    exact absurd rfl hne

/-! ## Entries that went -/

/-- some entries of a directory went with all beneath them, and nothing else -/
structure Swept (gone : String → Prop) (r : Place) (d d' : Disk) : Prop where
  removed : ∀ name, gone name → ∀ q, r ++ [name] <+: q → d'.get? q = none
  kept : ∀ q, (∀ name, gone name → ¬ r ++ [name] <+: q) → d'.get? q = d.get? q

namespace Swept

variable {gone gone' : String → Prop}

theorem refl (r : Place) (d : Disk) : Swept (fun _ => False) r d d := ⟨fun _ h => h.elim, fun _ _ => rfl⟩

theorem erase (r : Place) (d : Disk) (name : String) : Swept (· = name) r d (d.erase (r ++ [name])) where
  removed := by
    rintro _ rfl q hq
    have hne : q ≠ [] := by
      rintro rfl
      simpa using hq.length_le
    rw [get?_erase d _ hne, beneath, if_pos (List.isPrefixOf_iff_prefix.2 hq)]
  kept := fun q hq => get?_erase_of_not (hq name rfl)

/-- where nothing was, nothing is -/
theorem none (h : Swept gone r d d') (hq : d.get? q = none) : d'.get? q = none := by
  by_cases hgone : ∃ name, gone name ∧ r ++ [name] <+: q
  · obtain ⟨name, hname, hprefix⟩ := hgone
    exact h.removed name hname q hprefix
  · rw [h.kept q fun name hname hprefix => hgone ⟨name, hname, hprefix⟩, hq]

theorem trans (h : Swept gone r d d') (h' : Swept gone' r d' d'') : Swept (fun n => gone n ∨ gone' n) r d d'' where
  removed := by
    rintro name (hname | hname) q hq
    · exact h'.none (h.removed name hname q hq)
    · exact h'.removed name hname q hq
  kept := fun q hq => (h'.kept q fun name hname => hq name (Or.inr hname)).trans
    (h.kept q fun name hname => hq name (Or.inl hname))

theorem congr (h : Swept gone r d d') (hiff : ∀ name, gone name ↔ gone' name) : Swept gone' r d d' where
  removed := fun name hname => h.removed name ((hiff name).2 hname)
  kept := fun q hq => h.kept q fun name hname => hq name ((hiff name).1 hname)

/-- an entry went if it is not there any more -/
theorem gone_iff (h : Swept gone r d d') (he : d.get? (r ++ [name]) = some e) :
    gone name ↔ d'.get? (r ++ [name]) = .none := by
  refine ⟨fun hname => h.removed name hname _ (List.prefix_refl _), fun hnone => ?_⟩
  by_contra hno
  rw [h.kept _ fun other hother hprefix => ?_, he] at hnone
  · cases hnone
  · by_cases heq : other = name
    · exact hno (heq ▸ hother)
    · exact not_prefix_sibling heq hprefix

end Swept

/-- entries of a directory went, and they were counted -/
structure Purged (gone : String → Prop) (r : Place) (d d' : Disk) (count : Nat) : Prop extends Swept gone r d d' where
  counted : ∃ names : List String, names.Nodup ∧ (∀ name, name ∈ names ↔ gone name) ∧ names.length = count

/-! ## Listings -/

theorem mem_namesIn (h : d.Tree) : name ∈ d.namesIn r ↔ ∃ e, d.get? (r ++ [name]) = some e := by
  unfold namesIn Text.sort
  rw [List.mem_mergeSort, List.mem_filterMap]
  constructor
  · rintro ⟨⟨names, e⟩, hmem, hsome⟩
    match names, hsome with
    | [n], hsome =>
      cases hsome
      exact ⟨e, ((mem_under h).1 hmem).2⟩
  · rintro ⟨e, he⟩
    exact ⟨([name], e), (mem_under h).2 ⟨List.cons_ne_nil _ _, he⟩, rfl⟩

theorem nodup_namesIn (h : d.Tree) (r : Place) : (d.namesIn r).Nodup := by
  have hunder : (d.under r).Pairwise fun a b => a.1 ≠ b.1 := List.pairwise_map.1 (nodup_under h r)
  unfold namesIn Text.sort
  rw [(List.mergeSort_perm _ _).nodup_iff, List.Nodup, List.pairwise_filterMap]
  refine hunder.imp fun {a b} hab n hn m hm heq => hab ?_
  obtain ⟨names, e⟩ := a
  obtain ⟨names', e'⟩ := b
  match names, names', hn, hm with
  | [x], [y], hn, hm =>
    cases hn
    cases hm
    rw [heq]

end Disk

namespace Workspace

variable {w w' : World} {root path : Path} {r q : Place} {s : String} {limit : Int}

/-! ## Removals -/

/-- what is at a path removed when it is stale; a refusal when nothing is there that has a time -/
def removeStale (limit : Int) (path : Path) : Work Bool := do
  let p ← Work.locate path
  let d ← Work.disk
  match d.get? p with
  | none | some .danglingLink => Work.refuse .missing path
  | some e =>
    if d.now - limit ≤ d.timeOf p then pure false
    else do
      if e.isDir then Work.discardTree path else Work.discard path
      pure true

theorem removeStale_eq (hplace : Work.place w.disk path = .ok q) (limit : Int) : removeStale limit path w =
    if Work.seen (w.disk.get? q) then
      (.ok (w.disk.isStale limit q), { w with disk := if w.disk.isStale limit q then w.disk.erase q else w.disk })
    else (.error (.disk ⟨.missing, path.toString⟩), w) := by
  have hlocate := Work.locate_eq path w
  rw [hplace] at hlocate
  -- directories and files differ in the step that removes them
  have hremove : ∀ {x : Work Unit}, x w = (.ok (), { w with disk := w.disk.erase q }) → Work.seen (w.disk.get? q) = true →
      (if w.disk.now - limit ≤ w.disk.timeOf q then pure false else x >>= fun _ => pure true : Work Bool) w =
        (.ok (w.disk.isStale limit q), { w with disk := if w.disk.isStale limit q then w.disk.erase q else w.disk }) := by
    intro x hx hseen
    have hage : w.disk.isStale limit q = decide (w.disk.timeOf q < w.disk.now - limit) := by
      rw [Disk.isStale, hseen, Bool.true_and]
    by_cases hyoung : w.disk.now - limit ≤ w.disk.timeOf q
    · rw [hage, decide_eq_false (by omega)]
      exact congrFun (if_pos hyoung) w
    · rw [hage, decide_eq_true (by omega)]
      exact (congrFun (if_neg hyoung) w).trans (Work.bind_ok hx _)
  unfold removeStale
  rw [Work.bind_ok hlocate, Work.bind_ok (show Work.disk w = (.ok w.disk, w) from rfl)]
  cases hentry : w.disk.get? q with
  | none => rfl
  | some e =>
    rw [hentry] at hremove
    cases e with
    | danglingLink => rfl
    | dir =>
      refine hremove (x := Work.discardTree path) ?_ rfl
      rw [Work.discardTree_eq, Work.remove_eq hplace, hentry]
      rfl
    | file content mode =>
      refine hremove (x := Work.discard path) ?_ rfl
      rw [Work.discard_eq, Work.remove_eq hplace, hentry]
      rfl

/-- **One removal.** What a path leads to is removed when it is stale, and nothing else changes but the log. -/
theorem purgeOne_eq (hplace : Work.place w.disk path = .ok q) (limit : Int) :
    ∃ log, purgeOne limit path w = (.ok (w.disk.isStale limit q),
      { w with disk := if w.disk.isStale limit q then w.disk.erase q else w.disk, log := log }) := by
  have hremove := removeStale_eq hplace limit
  cases hseen : Work.seen (w.disk.get? q) with
  | true =>
    rw [hseen] at hremove
    refine ⟨w.log, ?_⟩
    show (Work.attempt (removeStale limit path) >>= _) w = _
    rw [Work.bind_ok (Work.attempt_eq hremove)]
    rfl
  | false =>
    have hstale : w.disk.isStale limit q = false := by rw [Disk.isStale, hseen, Bool.false_and]
    rw [hseen] at hremove
    refine ⟨w.log ++ [LogEntry.warning ("[Workspace] Failed to purge " ++ path.toString)], ?_⟩
    show (Work.attempt (removeStale limit path) >>= _) w = _
    rw [Work.bind_ok (Work.attempt_eq hremove), hstale]
    rfl

/-- **All removals.** Of some entries of a directory the stale ones go, and they are counted. -/
theorem purgeAll_swept {names : List String} (hroot : w.disk.Reached root r) (hfits : ∀ name ∈ names, root.Fits [name])
    (hnodup : names.Nodup) (limit : Int) :
    ∃ w', purgeAll limit (names.map fun name => root.below [name]) w =
        (.ok (names.countP fun name => w.disk.isStale limit (r ++ [name])), w') ∧
      Disk.Swept (fun name => name ∈ names ∧ w.disk.isStale limit (r ++ [name]) = true) r w.disk w'.disk := by
  induction names generalizing w with
  | nil => exact ⟨w, rfl, (Disk.Swept.refl r w.disk).congr fun name => by simp⟩
  | cons name rest ih =>
    rw [List.forall_mem_cons] at hfits
    rw [List.nodup_cons] at hnodup
    obtain ⟨log, hone⟩ := purgeOne_eq (hroot.place hfits.1) limit
    set stale := w.disk.isStale limit (r ++ [name]) with hstale
    set w₁ : World := { w with disk := if stale then w.disk.erase (r ++ [name]) else w.disk, log := log } with hw₁
    have hfirst : w₁.disk.Reached root r ∧ Disk.Swept (fun n => n = name ∧ stale = true) r w.disk w₁.disk ∧
        ∀ other, name ≠ other → w₁.disk.isStale limit (r ++ [other]) = w.disk.isStale limit (r ++ [other]) := by
      rw [hw₁]
      cases stale with
      | false => exact ⟨hroot, (Disk.Swept.refl r w.disk).congr fun n => by simp, fun _ _ => rfl⟩
      | true =>
        exact ⟨hroot.erase name, (Disk.Swept.erase r w.disk name).congr fun n => by simp, fun _ h => Disk.isStale_erase limit h⟩
    obtain ⟨hreached, hswept, hothers⟩ := hfirst
    have hrest : ∀ n ∈ rest, w₁.disk.isStale limit (r ++ [n]) = w.disk.isStale limit (r ++ [n]) :=
      fun n hn => hothers n fun heq => hnodup.1 (heq ▸ hn)
    obtain ⟨w', hall, hswept'⟩ := ih hreached hfits.2 hnodup.2
    refine ⟨w', ?_, (hswept.trans hswept').congr fun n => ?_⟩
    · rw [List.map_cons, purgeAll, Work.bind_ok hone, Work.bind_ok hall, List.countP_cons,
        List.countP_congr fun n hn => by rw [hrest n hn], ← hstale]
      cases stale <;> rfl
    · rw [List.mem_cons]
      constructor
      · rintro (⟨rfl, hgone⟩ | ⟨hmem, hgone⟩)
        · exact ⟨Or.inl rfl, hgone⟩
        · exact ⟨Or.inr hmem, hrest n hmem ▸ hgone⟩
      · rintro ⟨rfl | hmem, hgone⟩
        · exact Or.inl ⟨rfl, hgone⟩
        · exact Or.inr ⟨hmem, (hrest n hmem).trans hgone⟩

/-! ## What is found -/

/-- a prefix without slashes makes a pattern of one part -/
theorem ofString_leftoverPattern (h : '/' ∉ s.toList) : Path.ofString (leftoverPattern s) = ⟨"", [leftoverPattern s]⟩ := by
  have htext : (leftoverPattern s).toList = s.toList ++ Glob.ending := String.toList_append
  have hslash : '/' ∉ (leftoverPattern s).toList := by
    rw [htext, List.mem_append, not_or]
    exact ⟨h, by decide⟩
  have hstar : '*' ∈ (leftoverPattern s).toList := by
    rw [htext]
    exact List.mem_append_right _ (by decide)
  have hname : Path.IsName (leftoverPattern s) := by
    refine ⟨?_, ?_, ?_, hslash⟩ <;> intro heq <;> rw [heq] at hstar <;> revert hstar <;> decide
  have hroot : Path.rootOf (leftoverPattern s).toList = "" :=
    (Path.rootOf_eq_empty_iff _).2 fun hhead => hslash (List.mem_of_mem_head? hhead)
  have hnames : Path.names (leftoverPattern s).toList = [leftoverPattern s] :=
    Path.names_joinWith (List.forall_mem_singleton.2 hname)
  rw [Path.ofString, hroot, hnames]

/-- what a pattern of one part with a star finds: the names that fit -/
theorem select_leftoverPattern (d : Disk) (r : Place) (s : String) : Glob.select d r [leftoverPattern s] =
      ((d.namesIn r).filter fun name => Glob.fits (leftoverPattern s) name).map fun name => [name] := by
  have hmixed : leftoverPattern s ≠ "**" := by
    intro heq
    have hhyphen : '-' ∈ (leftoverPattern s).toList := by
      rw [leftoverPattern, String.toList_append]
      exact List.mem_append_right _ (by decide)
    rw [heq] at hhyphen
    revert hhyphen
    decide
  have hpieces : Glob.hasPieces (leftoverPattern s) = true := by
    unfold Glob.hasPieces leftoverPattern
    rw [String.toList_append, List.any_append, Bool.or_eq_true]
    exact Or.inr (by decide)
  rw [Glob.select, if_neg hmixed, if_pos hpieces]
  simp only [Glob.select, List.isEmpty_nil, Bool.true_or, Bool.and_true, List.map_cons, List.map_nil, List.append_nil]
  exact List.map_eq_flatMap.symm

theorem leftovers_eq (hslash : '/' ∉ s.toList) (hplace : Work.place w.disk root = .ok r) :
    leftovers root s w = if Glob.isMalformed (leftoverPattern s) then
        (.error (.badValue "Invalid pattern: '**' can only be an entire path component"), w)
      else (.ok (((w.disk.namesIn r).filter fun name => Glob.fits (leftoverPattern s) name).map fun name =>
        root.below [name]), w) := by
  have hlocate := Work.locate_eq root w
  rw [hplace] at hlocate
  unfold leftovers
  rw [ofString_leftoverPattern hslash]
  simp only [List.any_cons, List.any_nil, Bool.or_false]
  cases Glob.isMalformed (leftoverPattern s) with
  | true => rfl
  | false =>
    refine (Work.bind_ok hlocate _).trans ?_
    rw [Work.bind_ok (show Work.disk w = (.ok w.disk, w) from rfl), select_leftoverPattern, List.map_map]
    rfl

/-- **What is found goes.** Of the entries of a directory those go that fit the pattern and are stale. -/
theorem purge_found (hslash : '/' ∉ s.toList) (h : w.disk.Listing root r) (limit : Int)
    (hmalformed : Glob.isMalformed (leftoverPattern s) = false) :
    ∃ count w', purge root s limit w = (.ok count, w') ∧
      Disk.Purged (fun name => Glob.fits (leftoverPattern s) name = true ∧ w.disk.isStale limit (r ++ [name]) = true)
        r w.disk w'.disk count := by
  set found := (w.disk.namesIn r).filter fun name => Glob.fits (leftoverPattern s) name with hfound
  have hnodup : found.Nodup := (Disk.nodup_namesIn h.tree r).filter _
  have hmem : ∀ name, name ∈ found ∧ w.disk.isStale limit (r ++ [name]) = true ↔
      Glob.fits (leftoverPattern s) name = true ∧ w.disk.isStale limit (r ++ [name]) = true := by
    intro name
    rw [hfound, List.mem_filter, Disk.mem_namesIn h.tree]
    refine and_congr_left fun hstale => and_iff_right_of_imp fun _ => ?_
    cases hentry : w.disk.get? (r ++ [name]) with
    | some e => exact ⟨e, rfl⟩
    | none =>
      rw [Disk.isStale, hentry] at hstale
      cases hstale
  have hfits : ∀ name ∈ found, root.Fits [name] := by
    intro name hname
    obtain ⟨e, he⟩ := (Disk.mem_namesIn h.tree).1 (List.mem_filter.1 hname).1
    exact h.named name e he
  obtain ⟨w', hall, hswept⟩ := purgeAll_swept h.toReached hfits hnodup limit
  have hleftovers := leftovers_eq hslash (Work.place_of_holding h.holding)
  rw [hmalformed, ← hfound] at hleftovers
  refine ⟨_, w', ?_, hswept.congr hmem, found.filter fun name => w.disk.isStale limit (r ++ [name]), hnodup.filter _,
    fun name => ?_, List.countP_eq_length_filter.symm⟩
  · unfold purge
    rw [Work.bind_ok (Archive.isDir_of_holding h.holding)]
    exact (Work.bind_ok hleftovers _).trans hall
  · rw [List.mem_filter]
    exact hmem name

theorem purge_malformed (hslash : '/' ∉ s.toList) (h : w.disk.Listing root r) (limit : Int)
    (hmalformed : Glob.isMalformed (leftoverPattern s) = true) : purge root s limit w =
      (.error (.badValue "Invalid pattern: '**' can only be an entire path component"), w) := by
  have hleftovers := leftovers_eq hslash (Work.place_of_holding h.holding)
  rw [hmalformed] at hleftovers
  unfold purge
  rw [Work.bind_ok (Archive.isDir_of_holding h.holding)]
  exact Work.bind_error hleftovers _

/-! ## Prefixes -/

/-- **Only its own.** From every directory whose entries can be reached, the entries go that begin with a prefix and a hyphen
and are stale, and their number is told. -/
def PurgesOwn (s : String) : Prop :=
  ∀ (w : World) (root : Path) (r : Place) (limit : Int), w.disk.Listing root r → ∃ count w',
    purge root s limit w = (.ok count, w') ∧
      Disk.Purged (fun name => (s ++ "-").toList <+: name.toList ∧ w.disk.isStale limit (r ++ [name]) = true)
        r w.disk w'.disk count

theorem purgesOwn_of_literal (hslash : '/' ∉ s.toList) (h : Glob.Literal s.toList) : PurgesOwn s := by
  intro w root r limit hlisting
  obtain ⟨count, w', hpurge, hpurged⟩ := purge_found hslash hlisting limit (Glob.not_malformed h.1)
  have hgone : ∀ name, Glob.fits (leftoverPattern s) name = true ∧ w.disk.isStale limit (r ++ [name]) = true ↔
      (s ++ "-").toList <+: name.toList ∧ w.disk.isStale limit (r ++ [name]) = true := fun name =>
    and_congr_left fun _ => Glob.fits_literal h name
  obtain ⟨names, hnodup, hmem, hcount⟩ := hpurged.counted
  exact ⟨count, w', hpurge, hpurged.toSwept.congr hgone, names, hnodup, fun name => (hmem name).trans (hgone name), hcount⟩

/-- the top of a disk with one old directory in it -/
def lone (name : String) : World := { disk := { items := [([name], ⟨.dir, 0⟩)], now := 1 } }

theorem get?_lone {name : String} {q : Place} {e : Entry} : (lone name).disk.get? q = some e ↔
    e = .dir ∧ (q = [] ∨ q = [name]) := by
  unfold Disk.get? lone
  by_cases hnil : q = []
  · simp [hnil, eq_comm]
  · by_cases hname : q = [name]
    · simp [hname, Table.get?, eq_comm]
    · simp [hnil, hname, Table.get?, Ne.symm hname]

theorem listing_lone {name : String} (h : Path.Fits ⟨"/", []⟩ [name]) : (lone name).disk.Listing ⟨"/", []⟩ [] where
  holding := ⟨rfl, by rfl, rfl⟩
  way := by
    intro front hfront other hprefix
    rw [List.prefix_nil.1 hfront] at hprefix
    exact List.cons_ne_nil _ _ (List.prefix_nil.1 (show [other] <+: [] from hprefix))
  tree := by
    refine ⟨by simp [Table.keys, lone], fun {q e} hq => ?_⟩
    rcases (get?_lone.1 hq).2 with rfl | rfl <;> rfl
  named := by
    intro other e he
    obtain ⟨-, hnil | hother⟩ := get?_lone.1 he
    · simp at hnil
    · rw [List.nil_append, List.singleton_inj] at hother
      rwa [hother]

/-- **A special character tells.** An old entry whose name fits the pattern without beginning with the prefix goes, and one
whose name begins with it without fitting stays. -/
theorem literal_of_purgesOwn (hslash : '/' ∉ s.toList) (hfits : Path.Fits ⟨"/", []⟩ [s ++ "-"]) (h : PurgesOwn s) :
    Glob.Literal s.toList := by
  by_contra hspecial
  obtain ⟨name, hunlike, hhyphen, hchars, hsize⟩ := Glob.exists_tells hspecial
  have hname : Path.Fits ⟨"/", []⟩ [name] := by
    have hshort := (Path.short_iff _).1 hfits.short
    have hnull : '\x00' ∉ (s ++ "-").toList := by simpa [Work.hasNull, Path.below] using hfits.noNull
    rw [String.toList_append, List.mem_append, not_or] at hnull
    refine ⟨?_, (Path.short_iff _).2 ((Nat.add_le_add_left hsize _).trans hshort), ?_, ?_⟩
    · have hno : '\x00' ∉ name.toList := by
        intro hmem
        rcases hchars _ hmem with hs | hs | hs
        · exact hnull.1 hs
        · cases hs
        · cases hs
      simpa [Work.hasNull, Path.below] using hno
    · rw [List.mem_singleton]
      rintro rfl
      revert hhyphen
      decide
    · rintro _ (_ | ⟨_, hmem⟩)
      · exact hsize.trans (hfits.shortNames _ (List.mem_singleton_self _))
      · cases hmem
  have hlisting := listing_lone hname
  have hentry : (lone name).disk.get? ([] ++ [name]) = some .dir := get?_lone.2 ⟨rfl, Or.inr rfl⟩
  have hstale : (lone name).disk.isStale 0 ([] ++ [name]) = true := by
    rw [Disk.isStale, hentry]
    simp [Work.seen, Disk.timeOf, lone, Table.get?]
  obtain ⟨count, w', hpurge, hown⟩ := h (lone name) _ _ 0 hlisting
  cases hmalformed : Glob.isMalformed (leftoverPattern s) with
  | true =>
    rw [purge_malformed hslash hlisting 0 hmalformed] at hpurge
    cases hpurge
  | false =>
    obtain ⟨count', w'', hpurge', hfound⟩ := purge_found hslash hlisting 0 hmalformed
    cases hpurge.symm.trans hpurge'
    have hiff := (hfound.gone_iff hentry).trans (hown.gone_iff hentry).symm
    rw [and_iff_left hstale, and_iff_left hstale] at hiff
    exact hunlike hiff

end Workspace

open Workspace in
/-- **What a start removes.** From a directory whose entries can be reached, the stale entries go whose names fit the pattern
for a prefix, with all beneath them, nothing else changes, and the number of entries is told; a pattern with two stars side by
side is refused. A prefix without special characters is that of the names that go. One with a special character, as long as
it can begin a name at all, is not: from some directory another entry goes, or one with the prefix stays. Where no directory
is, nothing is removed. -/
theorem stale_purged (s : String) (hslash : '/' ∉ s.toList) :
    (∀ (w : World) (root : Path) (r : Place) (limit : Int), w.disk.Listing root r →
      if Glob.isMalformed (leftoverPattern s) then
        purge root s limit w = (.error (.badValue "Invalid pattern: '**' can only be an entire path component"), w)
      else ∃ count w', purge root s limit w = (.ok count, w') ∧
        Disk.Purged (fun name => Glob.fits (leftoverPattern s) name = true ∧ w.disk.isStale limit (r ++ [name]) = true)
          r w.disk w'.disk count) ∧
    (Glob.Literal s.toList → PurgesOwn s) ∧
    (Path.Fits ⟨"/", []⟩ [s ++ "-"] → (PurgesOwn s ↔ Glob.Literal s.toList)) ∧
    ∀ (w : World) (root : Path) (limit : Int), (Work.isDir root w).1 = .ok false → purge root s limit w = (.ok 0, w) := by
  refine ⟨fun w root r limit hlisting => ?_, purgesOwn_of_literal hslash,
    fun hfits => ⟨literal_of_purgesOwn hslash hfits, purgesOwn_of_literal hslash⟩, fun w root limit hdir => ?_⟩
  · split_ifs with hmalformed
    · exact purge_malformed hslash hlisting limit hmalformed
    · exact purge_found hslash hlisting limit (Bool.eq_false_iff.2 hmalformed)
  · unfold purge
    rw [Work.bind_ok (Prod.ext hdir (Work.still_isDir root w))]
    rfl

/-- an old workspace with a file, a new one, and old notes -/
def cluttered : World where
  disk := {
    items := [(["tmp"], ⟨.dir, 0⟩), (["tmp", "gen-1"], ⟨.dir, 0⟩), (["tmp", "gen-1", "pom.xml"], ⟨.file ⟨#[60]⟩ 0o644, 0⟩),
      (["tmp", "gen-2"], ⟨.dir, 90⟩), (["tmp", "garden-notes"], ⟨.dir, 0⟩)]
    now := 100 }

theorem listing_cluttered : cluttered.disk.Listing ⟨"/", ["tmp"]⟩ ["tmp"] where
  holding := ⟨by decide +kernel, by decide +kernel, rfl⟩
  way := by
    intro front hfront name hprefix
    have hle : 2 ≤ (Path.resolve [] front).length := hprefix.length_le
    rcases List.prefix_cons_iff.1 hfront with rfl | ⟨rest, rfl, hrest⟩
    · exact absurd hle (by decide)
    · rw [List.prefix_nil.1 hrest] at hle
      exact absurd hle (by decide)
  tree := by
    have hparents : ∀ q e, cluttered.disk.get? q = some e → cluttered.disk.get? q.dropLast = some .dir :=
      Disk.forall_get? rfl (by simp [cluttered, Disk.get?, Table.get?])
    exact ⟨by decide, fun {q e} => hparents q e⟩
  named := by
    have hnames : ∀ q e, cluttered.disk.get? q = some e → ∀ name, q = ["tmp", name] → Path.Fits ⟨"/", ["tmp"]⟩ [name] := by
      refine Disk.forall_get? (by rintro _ ⟨⟩) ?_
      simp only [cluttered, List.forall_mem_cons]
      refine ⟨by rintro _ ⟨⟩, ?_, by rintro _ ⟨⟩, ?_, ?_, by simp⟩ <;> rintro _ ⟨⟩ <;> decide +kernel
    exact fun name e he => hnames _ e he name rfl

open Workspace in
theorem cluttered_purged : '/' ∉ "gen".toList ∧ Path.Fits ⟨"/", []⟩ ["gen" ++ "-"] ∧ PurgesOwn "gen" ∧
    ∃ count w', purge ⟨"/", ["tmp"]⟩ "gen" 50 cluttered = (.ok count, w') ∧
      w'.disk.get? ["tmp", "gen-1", "pom.xml"] = none ∧ w'.disk.get? ["tmp", "gen-2"] = some .dir ∧
      w'.disk.get? ["tmp", "garden-notes"] = some .dir := by
  have hslash : '/' ∉ "gen".toList := by decide
  have hfits : Path.Fits ⟨"/", []⟩ ["gen" ++ "-"] := by decide +kernel
  obtain ⟨-, -, hiff, -⟩ := stale_purged "gen" hslash
  have hown := (hiff hfits).2 (by decide)
  obtain ⟨count, w', hpurge, hpurged⟩ := hown cluttered _ _ 50 listing_cluttered
  have hkept : ∀ other, cluttered.disk.isStale 50 ["tmp", other] = false ∨ ¬ ("gen" ++ "-").toList <+: other.toList →
      w'.disk.get? ["tmp", other] = cluttered.disk.get? ["tmp", other] := by
    rintro other hother
    refine hpurged.kept _ fun name hgone hprefix => ?_
    by_cases heq : name = other
    · subst heq
      rcases hother with hfresh | hforeign
      · exact absurd (hfresh.symm.trans hgone.2) Bool.false_ne_true
      · exact hforeign hgone.1
    · exact Disk.not_prefix_sibling (r := ["tmp"]) heq hprefix
  refine ⟨hslash, hfits, hown, count, w', hpurge, hpurged.removed "gen-1" ⟨by decide, by decide⟩ _ (by decide), ?_, ?_⟩
  · exact (hkept "gen-2" (Or.inl (by decide))).trans rfl
  · exact (hkept "garden-notes" (Or.inr (by decide))).trans rfl

open Workspace in
/-- **A star in a prefix.** Old notes whose name does not begin with the prefix and a hyphen are removed, because their name
fits the pattern. -/
theorem notes_purged : (∃ count w', purge ⟨"/", ["tmp"]⟩ "g*" 50 cluttered = (.ok count, w') ∧
      cluttered.disk.get? ["tmp", "garden-notes"] = some .dir ∧ w'.disk.get? ["tmp", "garden-notes"] = none) ∧
    ¬ ("g*" ++ "-").toList <+: "garden-notes".toList ∧ ¬ PurgesOwn "g*" := by
  have hslash : '/' ∉ "g*".toList := by decide
  have hparse : Glob.parse (leftoverPattern "g*") = [.char 'g', .star, .char '-', .star] := by decide
  have hfits : Glob.fits (leftoverPattern "g*") "garden-notes" = true := by
    simp [Glob.fits, hparse, Glob.covers, Glob.Piece.accepts]
  obtain ⟨count, w', hpurge, hpurged⟩ := purge_found hslash listing_cluttered 50 (by decide)
  refine ⟨⟨count, w', hpurge, rfl, hpurged.removed "garden-notes" ⟨hfits, by decide⟩ _ (List.prefix_refl _)⟩, by decide,
    fun hown => ?_⟩
  exact absurd (literal_of_purgesOwn hslash (by decide +kernel) hown) (by decide)

end Classwright
