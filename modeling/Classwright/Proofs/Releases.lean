/-
A workspace is released once, and takes only what is its own.

Whoever holds a workspace may leave it, stream its archive or release it in the background, in any order and any number of
times. The first of these clears the directory and the archive beside it; all later ones leave the world as it is, also when
somebody has made the same paths anew. A workspace whose directory is there already is not entered, and nothing is released.

- `Disk.Lessened`, `Disk.takeAway`: a disk from which things went, and the removal of one thing; `Work.remove`: the step
  that removes it or refuses to;
- `Workspace.located_of_archive`: where the way to an archive can be gone, so can the way to the directory beside it;
- `Workspace.disk_clear`: what clearing a workspace takes from the disk;
- `Workspace.Act`, `Act.step`, `Act.run`: what happens to a workspace; `step_of_releases`, `step_of_released`: the
  first release and every later one;
- `Workspace.enter_refused`: a directory that is there keeps the workspace from being entered;
- `released_exactly_once`: all of it.
-/
import Classwright.Export
import Classwright.Proofs.Looks
import Classwright.Proofs.Making

namespace Classwright

/-! ## Removals -/

namespace Disk

/-- a disk from which some things went -/
structure Lessened (d d' : Disk) : Prop where
  here : d'.here = d.here
  entry : ∀ q, d'.get? q = d.get? q ∨ d'.get? q = none

variable {d d' : Disk} {p : Path} {q : Place} {e : Entry}

theorem get?_erase_of_not {top : Place} (h : ¬ top <+: q) : (d.erase top).get? q = d.get? q := by
  by_cases hq : q = []
  · rw [hq]
    rfl
  · have hbeneath : beneath top q = false := by rw [beneath, Bool.eq_false_iff, Ne, List.isPrefixOf_iff_prefix]; exact h
    rw [get?_erase d top hq, hbeneath, if_neg Bool.false_ne_true]

theorem get?_erase_self (h : q ≠ []) : (d.erase q).get? q = none := by
  have hbeneath : beneath q q = true := List.isPrefixOf_iff_prefix.2 (List.prefix_refl q)
  rw [get?_erase d q h, if_pos hbeneath]

namespace Lessened

theorem refl (d : Disk) : Lessened d d := ⟨rfl, fun _ => Or.inl rfl⟩

theorem erase (d : Disk) (q : Place) : Lessened d (d.erase q) where
  here := here_touch _ _
  entry := by
    intro r
    by_cases hr : r = []
    · rw [hr]
      exact Or.inl rfl
    · rw [get?_erase d q hr]
      split_ifs
      · exact Or.inr rfl
      · exact Or.inl rfl

theorem get? (h : Lessened d d') (hq : d'.get? q = some e) : d.get? q = some e := by
  rcases h.entry q with heq | hnone
  · rw [← heq, hq]
  · rw [hnone] at hq
    cases hq

/-- a way that can still be gone leads where it led -/
theorem locate (h : Lessened d d') (hq : d'.locate p = .ok q) : d.locate p = .ok q := by
  have horigin : d'.origin p = d.origin p := by
    unfold origin
    rw [h.here]
  unfold Disk.locate at hq ⊢
  split_ifs at hq ⊢
  rw [horigin] at hq
  exact walk_mono (fun _ hdir => h.get? hdir) hq

theorem holding (h : Lessened d d') (hq : d'.Holding p q e) : d.Holding p q e :=
  ⟨hq.1, h.locate hq.2.1, h.get? hq.2.2⟩

end Lessened

/-- a disk without what stands at a path, if it is something that goes -/
def takeAway (d : Disk) (p : Path) (goes : Entry → Bool) : Disk :=
  match Work.place d p with
  | .ok q => if (d.get? q).any goes then d.erase q else d
  | .error _ => d

theorem lessened_takeAway (d : Disk) (p : Path) (goes : Entry → Bool) : Lessened d (d.takeAway p goes) := by
  unfold takeAway
  split
  · split_ifs
    · exact .erase d _
    · exact .refl d
  · exact .refl d

/-- what goes is gone, where the top is not asked to go -/
theorem not_holding_takeAway {goes : Entry → Bool} (hgoes : d.Holding p q e → q ≠ [] ∧ goes e = true) :
    ¬ (d.takeAway p goes).Holding p q e := by
  intro hafter
  have hbefore := (lessened_takeAway d p goes).holding hafter
  obtain ⟨hne, hgo⟩ := hgoes hbefore
  have herase : d.takeAway p goes = d.erase q := by
    unfold takeAway
    rw [Work.place_of_holding hbefore]
    show (if (d.get? q).any goes then _ else _) = _
    rw [hbefore.2.2]
    exact if_pos hgo
  have hnone := get?_erase_self (d := d) hne
  rw [← herase, hafter.2.2] at hnone
  cases hnone

theorem takeAway_of_not {goes : Entry → Bool} (h : ∀ q, d.locate p ≠ .ok q) : d.takeAway p goes = d := by
  unfold takeAway
  split
  · next q hq => exact absurd (Work.place_eq_ok_iff.1 hq).2 (h q)
  · rfl

theorem takeAway_of_stays {goes : Entry → Bool} (h : ∀ q e, d.Holding p q e → goes e = false) : d.takeAway p goes = d := by
  unfold takeAway
  split
  · next q hq =>
    obtain ⟨hnull, hlocate⟩ := Work.place_eq_ok_iff.1 hq
    rw [if_neg]
    cases he : d.get? q with
    | none => exact Bool.false_ne_true
    | some e => exact Bool.eq_false_iff.1 (h q e ⟨hnull, hlocate, he⟩)
  · rfl

theorem get?_takeAway_of_not {goes : Entry → Bool} (h : ∀ top, d.locate p = .ok top → ¬ top <+: q) :
    (d.takeAway p goes).get? q = d.get? q := by
  unfold takeAway
  split
  · next top htop =>
    split_ifs
    · exact get?_erase_of_not (h top (Work.place_eq_ok_iff.1 htop).2)
    · rfl
  · rfl

end Disk

namespace Work

variable {p : Path} {w : World}

/-- what stands at a path removed if it is something that goes, or a refusal -/
def remove (goes : Entry → Bool) (cause : Option Entry → DiskCause) (p : Path) : Work Unit := do
  let q ← locate p
  let d ← disk
  if (d.get? q).any goes then setDisk (d.erase q) else refuse (cause (d.get? q)) p

theorem discardTree_eq (p : Path) :
    discardTree p = remove Entry.isDir (fun e => e.elim .missing fun _ => .notDirectory) p := by
  unfold discardTree remove
  congr 1
  funext q
  congr 1
  funext d
  cases d.get? q with
  | none => rfl
  | some e => cases e <;> rfl

theorem discard_eq (p : Path) :
    discard p = remove (fun e => !e.isDir) (fun e => e.elim .missing fun _ => .isDirectory) p := by
  unfold discard remove
  congr 1
  funext q
  congr 1
  funext d
  cases d.get? q with
  | none => rfl
  | some e => cases e <;> rfl

variable {goes : Entry → Bool} {cause : Option Entry → DiskCause}

/-- a removal that finds its way removes or refuses -/
theorem remove_eq {q : Place} (h : place w.disk p = .ok q) : remove goes cause p w =
    if (w.disk.get? q).any goes then (.ok (), { w with disk := w.disk.erase q })
    else (.error (.disk ⟨cause (w.disk.get? q), p.toString⟩), w) := by
  have hlocate := locate_eq p w
  rw [h] at hlocate
  unfold remove
  rw [bind_ok hlocate, bind_ok (show disk w = (.ok w.disk, w) from rfl)]
  split_ifs <;> rfl

theorem remove_of_lost {f : Fault} (h : place w.disk p = .error f) : remove goes cause p w = (.error f, w) := by
  have hlocate := locate_eq p w
  rw [h] at hlocate
  exact bind_error hlocate _

/-- a removal takes away what stands at a path and changes nothing else -/
theorem world_remove (w : World) : (remove goes cause p w).2 = { w with disk := w.disk.takeAway p goes } := by
  unfold Disk.takeAway
  cases hplace : place w.disk p with
  | error f => rw [remove_of_lost hplace]
  | ok q =>
    rw [remove_eq hplace]
    dsimp only
    split_ifs <;> rfl

/-- what a removal does not do, the disk refuses -/
theorem fault_remove (hnull : hasNull p = false) {f : Fault} (h : (remove goes cause p w).1 = .error f) :
    ∃ g, f = .disk g := by
  cases hplace : place w.disk p with
  | error f' =>
    rw [remove_of_lost hplace] at h
    cases Except.error.inj h
    unfold place at hplace
    rw [hnull, if_neg Bool.false_ne_true] at hplace
    cases hq : w.disk.locate p with
    | ok q => rw [hq] at hplace; cases hplace
    | error cause => rw [hq] at hplace; exact ⟨_, (Except.error.inj hplace).symm⟩
  | ok q =>
    rw [remove_eq hplace] at h
    split_ifs at h
    exact ⟨_, (Except.error.inj h).symm⟩

theorem world_discardTree (p : Path) (w : World) :
    (discardTree p w).2 = { w with disk := w.disk.takeAway p Entry.isDir } := by
  rw [discardTree_eq]
  exact world_remove w

theorem world_discard (p : Path) (w : World) :
    (discard p w).2 = { w with disk := w.disk.takeAway p fun e => !e.isDir } := by
  rw [discard_eq]
  exact world_remove w

end Work

/-! ## The paths of a workspace -/

namespace Text

/-- a longer last name makes a longer text -/
theorem utf8ByteSize_joinWith_concat {a b : String} (h : a.utf8ByteSize ≤ b.utf8ByteSize) (front : List String) :
    (joinWith "/" (front ++ [a])).utf8ByteSize ≤ (joinWith "/" (front ++ [b])).utf8ByteSize := by
  induction front with
  | nil => exact h
  | cons s rest ih =>
    have hcons : ∀ c, joinWith "/" (s :: rest ++ [c]) = s ++ "/" ++ joinWith "/" (rest ++ [c]) := by
      intro c
      cases rest <;> rfl
    simp only [hcons, String.utf8ByteSize_append]
    omega

end Text

namespace Path

/-- the names of a text: those before its last slash, and the last one if it is a name at all -/
theorem names_eq (s : String) : names s.toList = folders s ∨ names s.toList = folders s ++ [base s] := by
  obtain ⟨front, last, hcut⟩ : ∃ front last, Text.splitChars '/' s.toList = front ++ [last] :=
    ⟨_, _, (List.dropLast_append_getLast (Text.splitChars_ne_nil '/' s.toList)).symm⟩
  unfold names folders base
  simp only [hcut, List.dropLast_concat, List.getLast_append_singleton, List.filter_append, List.map_append]
  rw [List.filter_cons]
  split_ifs
  · exact Or.inr rfl
  · exact Or.inl (List.append_nil _)

end Path

namespace Workspace

/-- a directory and the archive beside it: the name of the archive is that of the directory with an ending, or an ending
alone where the directory has no name of its own -/
theorem paths_eq (u : Workspace) : ∃ top front last, u.archivePath = ⟨top, front ++ [last ++ ".zip"]⟩ ∧
    (u.projectDir = ⟨top, front⟩ ∨ u.projectDir = ⟨top, front ++ [last]⟩) := by
  have hroot : Path.rootOf (u.name ++ ".zip").toList = Path.rootOf u.name.toList := by
    rw [String.toList_append]
    exact Path.rootOf_append _ (by decide)
  have hnames : Path.names (u.name ++ ".zip").toList = Path.folders u.name ++ [Path.base u.name ++ ".zip"] :=
    Path.names_append u.name (by decide) (by decide)
  unfold archivePath projectDir Path.child Path.join Path.ofString Path.isAbsolute
  rw [hroot, hnames]
  dsimp only
  split_ifs
  · refine ⟨_, _, _, rfl, ?_⟩
    rcases Path.names_eq u.name with h | h
    · exact Or.inl (by rw [h])
    · exact Or.inr (by rw [h])
  · refine ⟨_, u.root.parts ++ Path.folders u.name, _, by rw [List.append_assoc], ?_⟩
    rcases Path.names_eq u.name with h | h
    · exact Or.inl (by rw [h])
    · exact Or.inr (by rw [h, List.append_assoc])

/-- where one more name can be gone to, so can one that it begins with -/
theorem walk_of_longer {d : Disk} {q a : Place} {name ending : String} (hup : name ++ ending ≠ "..")
    (h : d.walk q [name ++ ending] = .ok a) : ∃ r, d.walk q [name] = .ok r := by
  have hlonger : name.utf8ByteSize ≤ (name ++ ending).utf8ByteSize := by
    rw [String.utf8ByteSize_append]
    omega
  rw [Disk.walk] at h ⊢
  cases henter : d.enter q with
  | some cause =>
    rw [henter] at h
    cases h
  | none =>
    rw [henter] at h
    dsimp only at h ⊢
    rw [if_neg hup] at h
    split_ifs at h ⊢ with hsize
    · exact ⟨_, rfl⟩
    · omega
    · exact ⟨_, rfl⟩

theorem zip_ne_up (name : String) : name ++ ".zip" ≠ ".." := by
  intro heq
  have hlast := congrArg (fun s : String => s.toList.getLast?) heq
  simp only [String.toList_append] at hlast
  rw [List.getLast?_append_of_ne_nil _ (by decide)] at hlast
  exact absurd hlast (by decide)

/-- **The way to an archive** is not easier to go than that to the directory beside it. -/
theorem located_of_archive {d : Disk} {u : Workspace} {a : Place} (h : d.locate u.archivePath = .ok a) :
    ∃ q, d.locate u.projectDir = .ok q := by
  obtain ⟨top, front, last, harchive, hproject⟩ := u.paths_eq
  rw [harchive] at h
  unfold Disk.locate at h
  split_ifs at h with hlong
  rw [Nat.not_lt, Path.short_iff] at hlong
  have horigin : ∀ names, d.origin ⟨top, names⟩ = d.origin ⟨top, front⟩ := fun _ => rfl
  dsimp only at hlong h
  rw [horigin, Disk.walk_append] at h
  cases hfront : d.walk (d.origin ⟨top, front⟩) front with
  | error cause =>
    rw [hfront] at h
    cases h
  | ok q =>
    rw [hfront] at h
    unfold Disk.locate
    rcases hproject with hproject | hproject
    · have hshort := Text.utf8ByteSize_joinWith_le front [last ++ ".zip"]
      rw [hproject, if_neg (Nat.not_lt.2 ((Path.short_iff _).2 (by dsimp only; omega)))]
      exact ⟨q, hfront⟩
    · have hlonger : last.utf8ByteSize ≤ (last ++ ".zip").utf8ByteSize := by
        rw [String.utf8ByteSize_append]
        omega
      have hshort := Text.utf8ByteSize_joinWith_concat hlonger front
      rw [hproject, if_neg (Nat.not_lt.2 ((Path.short_iff _).2 (by dsimp only; omega)))]
      dsimp only
      rw [horigin, Disk.walk_append, hfront]
      exact walk_of_longer (zip_ne_up last) h

theorem disk_tryRemove (p : Path) (x : Work Unit) (w : World) : (tryRemove p x w).2.disk = (x w).2.disk := by
  have hattempt : Work.attempt x w = (.ok (x w).1, (x w).2) := rfl
  unfold tryRemove
  rw [Work.bind_ok hattempt]
  cases (x w).1 with
  | ok a => rfl
  | error f =>
    cases f with
    | disk g => obtain ⟨cause, said⟩ := g; cases cause <;> rfl
    | _ => rfl

/-- what a disk refuses to remove is passed over -/
theorem tryRemove_ok {p : Path} {x : Work Unit} {w : World} (h : ∀ f, (x w).1 = .error f → ∃ g, f = .disk g) :
    (tryRemove p x w).1 = .ok () := by
  have hattempt : Work.attempt x w = (.ok (x w).1, (x w).2) := rfl
  unfold tryRemove
  rw [Work.bind_ok hattempt]
  cases hresult : (x w).1 with
  | ok a => rfl
  | error f =>
    obtain ⟨⟨cause, said⟩, rfl⟩ := h f hresult
    cases cause <;> rfl

/-- the archive and the log come last when a workspace is cleared -/
theorem disk_clearArchive (u : Workspace) (w : World) :
    ((tryRemove u.archivePath (Work.discard u.archivePath) >>= fun _ =>
      Work.report (LogEntry.debug ("[Workspace] Released " ++ u.name))) w).2.disk =
    w.disk.takeAway u.archivePath fun e => !e.isDir := by
  have hdiscard := disk_tryRemove u.archivePath (Work.discard u.archivePath) w
  rw [Work.world_discard] at hdiscard
  cases hr : tryRemove u.archivePath (Work.discard u.archivePath) w with
  | mk r w' =>
    rw [hr] at hdiscard
    cases r with
    | ok a => rw [Work.bind_ok hr]; exact hdiscard
    | error f => rw [Work.bind_error hr]; exact hdiscard

/-- **Clearing a workspace** takes the directory away, and the archive unless it is a directory. -/
theorem disk_clear (u : Workspace) (w : World) : (u.clear w).2.disk =
    (w.disk.takeAway u.projectDir Entry.isDir).takeAway u.archivePath fun e => !e.isDir := by
  have hexists := Work.exists?_eq u.projectDir w
  unfold clear
  cases hsight : w.disk.sight u.projectDir with
  | error f =>
    -- the way to the directory is too long to go, and that to the archive with it
    have hproject : ∀ q, w.disk.locate u.projectDir ≠ .ok q := by
      intro q hq
      unfold Disk.sight at hsight
      rw [hq] at hsight
      split_ifs at hsight
    have harchive : ∀ a, w.disk.locate u.archivePath ≠ .ok a := fun a ha =>
      (located_of_archive ha).elim hproject
    rw [hsight] at hexists
    rw [Work.bind_error hexists, Disk.takeAway_of_not hproject, Disk.takeAway_of_not harchive]
  | ok e =>
    rw [hsight] at hexists
    rw [Work.bind_ok hexists]
    cases hseen : Work.seen e with
    | false =>
      have hstays : w.disk.takeAway u.projectDir Entry.isDir = w.disk := by
        refine Disk.takeAway_of_stays fun q e' hholding => ?_
        have hsome := Disk.sight_eq_some_iff.2 ⟨q, hholding⟩
        rw [hsight] at hsome
        cases Except.ok.inj hsome
        cases e' <;> first | rfl | cases hseen
      rw [hstays]
      exact disk_clearArchive u w
    | true =>
      obtain ⟨q, e', hholding, -⟩ := Work.exists?_iff.1 (show (Work.exists? u.projectDir w).1 = .ok true by
        rw [hexists]; exact congrArg Except.ok hseen)
      have hdisk := disk_tryRemove u.projectDir (Work.discardTree u.projectDir) w
      rw [Work.world_discardTree] at hdisk
      have hok : (tryRemove u.projectDir (Work.discardTree u.projectDir) w).1 = .ok () :=
        tryRemove_ok fun f hf => Work.fault_remove hholding.1 (Work.discardTree_eq _ ▸ hf)
      rw [if_pos rfl, Work.bind_ok (Prod.ext hok rfl)]
      exact (disk_clearArchive u _).trans (by rw [hdisk])

/-- the removals of a workspace succeed: what is seen in its place is a directory, and not the top of the disk, and what
stands in the place of its archive is none -/
structure Removable (u : Workspace) (d : Disk) : Prop where
  directory : ∀ q e, d.Holding u.projectDir q e → Work.seen (some e) = true → q ≠ [] ∧ e.isDir = true
  archive : ∀ q e, d.Holding u.archivePath q e → e.isDir = false

/-- both paths of a workspace lead to nothing -/
structure Cleared (u : Workspace) (w : World) : Prop where
  directory : (Work.exists? u.projectDir w).1 ≠ .ok true
  archive : (Work.exists? u.archivePath w).1 ≠ .ok true

theorem cleared_clear {u : Workspace} {w : World} (h : u.Removable w.disk) : u.Cleared (u.clear w).2 := by
  have hdisk := u.disk_clear w
  set middle := w.disk.takeAway u.projectDir Entry.isDir with hmiddle
  have hlessened : Disk.Lessened w.disk middle := Disk.lessened_takeAway _ _ _
  have hlessened' := Disk.lessened_takeAway middle u.archivePath fun e => !e.isDir
  rw [← hdisk] at hlessened'
  constructor
  · rw [Ne, Work.exists?_iff]
    rintro ⟨q, e, hholding, hseen⟩
    exact Disk.not_holding_takeAway (fun hq => h.directory q e hq hseen) (hlessened'.holding hholding)
  · rw [Ne, Work.exists?_iff, hdisk]
    rintro ⟨q, e, hholding, -⟩
    refine Disk.not_holding_takeAway (fun hq => ⟨?_, ?_⟩) hholding
    · -- the top is a directory
      rintro rfl
      have htop := h.archive [] e (hlessened.holding hq)
      cases hq.2.2
      cases htop
    · rw [h.archive q e (hlessened.holding hq)]
      rfl

/-- nothing goes but what is in the place of the directory or of the archive -/
theorem get?_clear {u : Workspace} {w : World} {q : Place}
    (hdirectory : ∀ top, w.disk.locate u.projectDir = .ok top → ¬ top <+: q)
    (harchive : ∀ top, w.disk.locate u.archivePath = .ok top → ¬ top <+: q) :
    (u.clear w).2.disk.get? q = w.disk.get? q := by
  rw [disk_clear, Disk.get?_takeAway_of_not fun top htop => harchive top ((Disk.lessened_takeAway _ _ _).locate htop),
    Disk.get?_takeAway_of_not hdirectory]

/-- the first release clears, and the workspace counts as released whatever came of it -/
theorem release_eq (u : Workspace) (w : World) : u.release w =
    if u.released then (.ok (.ok (), u), w)
    else (.ok ((u.clear w).1, { u with released := true }), (u.clear w).2) := by
  unfold release
  split_ifs <;> rfl

/-! ## What happens to a workspace -/

inductive Act where
  | enter
  /-- anything else that is done meanwhile, in the workspace or by others: files written, chunks read, paths made anew -/
  | work (change : World → World)
  /-- the block is left, normally or by a fault -/
  | leave
  /-- the archive is streamed, to its end or until the reader stops -/
  | stream (size : Int) (stop : Option Nat)
  | background

namespace Act

/-- the acts that release the workspace -/
def Releases : Act → Prop
  | .leave | .stream .. | .background => True
  | _ => False

/-- a world with the workspace that some work gave back -/
def back {α : Type} (u : Workspace) (r : Except Fault (α × Workspace) × World) : World × Workspace :=
  match r with
  | (.ok (_, u'), w) => (w, u')
  | (.error _, w) => (w, u)

def step (s : World × Workspace) : Act → World × Workspace
  | .enter => ((s.2.enter s.1).2, s.2)
  | .work change => (change s.1, s.2)
  | .leave | .background => back s.2 (s.2.release s.1)
  | .stream size stop => back s.2 (s.2.stream size stop s.1)

def run (s : World × Workspace) (acts : List Act) : World × Workspace := acts.foldl step s

variable {s : World × Workspace} {e : Act}

/-- whatever is read first, a release ends as it would without it -/
theorem back_of_still {β γ : Type} {x : Work β} (hx : Work.Still x)
    (answer : Except Fault β → Except Fault Unit × Workspace → γ) (u : Workspace) (w : World) :
    back u ((Work.attempt x >>= fun r => u.release >>= fun last => pure (answer r last, last.2)) w) =
      back u (u.release w) := by
  rw [Work.bind_ok (show Work.attempt x w = (.ok (x w).1, (x w).2) from rfl), hx w]
  have hrelease := release_eq u w
  split_ifs at hrelease <;> rw [Work.bind_ok hrelease, hrelease] <;> rfl

theorem back_stream (u : Workspace) (size : Int) (stop : Option Nat) (w : World) :
    back u (u.stream size stop w) = back u (u.release w) :=
  back_of_still ((Work.still_read _).bind fun _ => Work.still_ofExcept _) _ u w

/-- **A release.** The first one clears the workspace, a later one does nothing at all. -/
theorem step_of_releases (h : e.Releases) :
    step s e = if s.2.released then s else ((s.2.clear s.1).2, { s.2 with released := true }) := by
  have hrelease : step s e = back s.2 (s.2.release s.1) := by
    cases e with
    | enter => cases h
    | work change => cases h
    | leave => rfl
    | background => rfl
    | stream size stop => exact back_stream _ _ _ _
  rw [hrelease, release_eq]
  split_ifs <;> rfl

theorem step_of_not_releases (h : ¬ e.Releases) : (step s e).2 = s.2 := by
  cases e with
  | enter => rfl
  | work change => rfl
  | leave => exact absurd trivial h
  | background => exact absurd trivial h
  | stream size stop => exact absurd trivial h

/-- a workspace keeps its paths, and once it is released it stays so -/
structure Same (u u' : Workspace) : Prop where
  root : u'.root = u.root
  name : u'.name = u.name
  released : u.released = true → u'.released = true

theorem same_step (s : World × Workspace) (e : Act) : Same s.2 (step s e).2 := by
  by_cases h : e.Releases
  · rw [step_of_releases h]
    split_ifs with hreleased
    · exact ⟨rfl, rfl, id⟩
    · exact ⟨rfl, rfl, fun _ => rfl⟩
  · rw [step_of_not_releases h]
    exact ⟨rfl, rfl, id⟩

theorem same_run (s : World × Workspace) (acts : List Act) : Same s.2 (run s acts).2 := by
  induction acts generalizing s with
  | nil => exact ⟨rfl, rfl, id⟩
  | cons e rest ih =>
    have hstep := same_step s e
    have hrest := ih (step s e)
    exact ⟨hrest.root.trans hstep.root, hrest.name.trans hstep.name, fun h => hrest.released (hstep.released h)⟩

/-- before the first release a workspace is as it was -/
theorem run_of_not_releases {acts : List Act} (h : ∀ e ∈ acts, ¬ e.Releases) : (run s acts).2 = s.2 := by
  induction acts generalizing s with
  | nil => rfl
  | cons e rest ih =>
    rw [List.forall_mem_cons] at h
    exact (ih h.2).trans (step_of_not_releases h.1)

/-- **Released for good.** After a release no other one changes the world. -/
theorem step_of_released (hreleased : s.2.released = true) (h : e.Releases) : step s e = s := by
  rw [step_of_releases h, if_pos hreleased]

end Act

/-! ## Workspaces that cannot be entered -/

/-- **A directory that is there** keeps the workspace from being entered. -/
theorem enter_refused {u : Workspace} {w : World} (h : (Work.exists? u.projectDir w).1 = .ok true) :
    u.enter w = (.error (.disk ⟨.exists, u.projectDir.toString⟩), w) := by
  obtain ⟨q, e, ⟨hnull, hlocate, hentry⟩, -⟩ := Work.exists?_iff.1 h
  have hmake : Work.makeDir u.projectDir w = (.error (.disk ⟨.exists, u.projectDir.toString⟩), w) := by
    unfold Work.makeDir
    have hplace := Work.locate_eq u.projectDir w
    rw [Work.place_eq_ok_iff.2 ⟨hnull, hlocate⟩] at hplace
    rw [Work.bind_ok hplace, Work.bind_ok (show Work.disk w = (.ok w.disk, w) from rfl), Disk.hasEntry, hentry]
    rfl
  unfold enter Work.makeNewDir
  cases hparts : u.projectDir.parts.reverse with
  | nil =>
    rw [Work.makeDirsUp, ← List.reverse_eq_nil_iff.1 hparts]
    exact hmake
  | cons name up =>
    have hattempt : Work.attempt (Work.makeDir ⟨u.projectDir.root, (name :: up).reverse⟩) w =
        (.ok (.error (.disk ⟨.exists, u.projectDir.toString⟩)), w) := by
      rw [← hparts, List.reverse_reverse]
      unfold Work.attempt
      rw [hmake]
    rw [Work.makeDirsUp, Work.bind_ok hattempt]
    rfl

variable {α : Type}

theorem within_refused {u : Workspace} {w : World} (h : (Work.exists? u.projectDir w).1 = .ok true) (body : Work α) :
    Export.within u body w = (.error (.disk ⟨.exists, u.projectDir.toString⟩), w) :=
  Work.bind_error (enter_refused h) _

theorem keeping_refused {u : Workspace} {w : World} (h : (Work.exists? u.projectDir w).1 = .ok true) (body : Work α) :
    Export.keeping u body w = (.error (.disk ⟨.exists, u.projectDir.toString⟩), w) :=
  Work.bind_error (enter_refused h) _

/-! ## Work in a workspace -/

theorem world_always (body : Work α) (last : Work Unit) (w : World) :
    (Work.always body last w).2 = (last (body w).2).2 := by
  unfold Work.always
  rw [Work.bind_ok (show Work.attempt body w = (.ok (body w).1, (body w).2) from rfl)]
  cases hlast : last (body w).2 with
  | mk r w' =>
    cases r with
    | error f => rw [Work.bind_error hlast]
    | ok a =>
      rw [Work.bind_ok hlast]
      cases (body w).1 <;> rfl

/-- after a release only its outcome is passed on -/
theorem world_release_bind {β : Type} (u : Workspace) {g : Except Fault Unit × Workspace → Work β}
    (hg : ∀ r, Work.Still (g r)) (w : World) : ((u.release >>= g) w).2 = (u.release w).2 := by
  have hrelease := release_eq u w
  split_ifs at hrelease <;> rw [Work.bind_ok hrelease, hrelease] <;> exact hg _ _

theorem run_leave {u : Workspace} {w w₁ : World} (h : u.enter w = (.ok (), w₁)) (body : Work α) :
    (Act.run (w, u) [.enter, .work fun w => (body w).2, .leave]).1 = (u.release (body w₁).2).2 := by
  show (Act.back u (u.release (body (u.enter w).2).2)).1 = _
  rw [h, release_eq]
  split_ifs <;> rfl

/-- work in a workspace that was entered is left by a release -/
theorem within_eq_run {u : Workspace} {w w₁ : World} (h : u.enter w = (.ok (), w₁)) (body : Work α) :
    (Export.within u body w).2 = (Act.run (w, u) [.enter, .work fun w => (body w).2, .leave]).1 := by
  unfold Export.within
  rw [Work.bind_ok h, world_always, run_leave h]
  exact world_release_bind u (fun r => Work.still_ofExcept r.1) _

/-- work that hands its workspace on releases it only when it fails -/
theorem keeping_eq_run {u : Workspace} {w w₁ : World} (h : u.enter w = (.ok (), w₁)) (body : Work α) :
    (Export.keeping u body w).2 = (Act.run (w, u) ([.enter, .work fun w => (body w).2] ++
      match (body w₁).1 with
      | .ok _ => []
      | .error _ => [.leave])).1 := by
  unfold Export.keeping
  rw [Work.bind_ok h, Work.bind_ok (show Work.attempt body w₁ = (.ok (body w₁).1, (body w₁).2) from rfl)]
  cases (body w₁).1 with
  | ok a =>
    show (body w₁).2 = (body (u.enter w).2).2
    rw [h]
  | error f =>
    refine Eq.trans ?_ (run_leave h body).symm
    exact world_release_bind u (fun r => (Work.still_ofExcept r.1).bind fun _ => Work.still_fail f) _

end Workspace

open Workspace in
/-- **A workspace is released exactly once**, and takes only what is its own. Whatever was done before, the first release
leaves nothing at the paths of the workspace, where its removals succeed, and everything else as it was. No later release
changes the world, whatever was done in between. A workspace whose directory is there is not entered, and the callers then
change nothing, releases included; where they enter it, what they do is one of these runs. -/
theorem released_exactly_once (u : Workspace) (hfresh : u.released = false) (w : World) (before : List Act)
    (hbefore : ∀ e ∈ before, ¬ e.Releases) (first : Act) (hfirst : first.Releases) :
    let s := Act.run (w, u) before
    let t := Act.step s first
    (u.Removable s.1.disk → u.Cleared t.1) ∧
    (∀ q, (∀ top, s.1.disk.locate u.projectDir = .ok top → ¬ top <+: q) →
      (∀ top, s.1.disk.locate u.archivePath = .ok top → ¬ top <+: q) → t.1.disk.get? q = s.1.disk.get? q) ∧
    (∀ after later, later.Releases → Act.step (Act.run t after) later = Act.run t after) ∧
    (∀ w', (Work.exists? u.projectDir w').1 = .ok true →
      let refusal := Fault.disk ⟨.exists, u.projectDir.toString⟩
      u.enter w' = (.error refusal, w') ∧
      ∀ (α : Type) (body : Work α),
        Export.within u body w' = (.error refusal, w') ∧ Export.keeping u body w' = (.error refusal, w')) ∧
    ∀ w' w₁, u.enter w' = (.ok (), w₁) → ∀ (α : Type) (body : Work α),
      (Export.within u body w').2 = (Act.run (w', u) [.enter, .work fun w => (body w).2, .leave]).1 ∧
      (Export.keeping u body w').2 = (Act.run (w', u) ([.enter, .work fun w => (body w).2] ++
        match (body w₁).1 with
        | .ok _ => []
        | .error _ => [.leave])).1 := by
  intro s t
  have hs : s.2 = u := Act.run_of_not_releases hbefore
  have ht : t = ((u.clear s.1).2, { u with released := true }) := by
    show Act.step s first = _
    rw [Act.step_of_releases hfirst, hs, hfresh]
    rfl
  refine ⟨fun hremovable => ?_, fun q hdirectory harchive => ?_, fun after later hlater => ?_, fun w' hthere => ?_,
    fun w' w₁ hentered α body => ⟨within_eq_run hentered body, keeping_eq_run hentered body⟩⟩
  · rw [ht]
    exact cleared_clear hremovable
  · rw [ht]
    exact get?_clear hdirectory harchive
  · refine Act.step_of_released ((Act.same_run t after).released ?_) hlater
    rw [ht]
  · exact ⟨enter_refused hthere, fun α body => ⟨within_refused hthere body, keeping_refused hthere body⟩⟩

/-- a workspace for one job, and a disk with nothing but the directory it is made in -/
def job : Workspace := ⟨Path.ofString "/tmp", "job", false⟩

def emptyTmp : World := { disk := { items := [(["tmp"], ⟨.dir, 0⟩)] } }

/-- the archive beside the directory of the job -/
def packJob (w : World) : World :=
  { w with disk := w.disk.put ["tmp", "job.zip"] (.file ⟨#[80, 75]⟩ Entry.defaultMode) }

open Workspace in
theorem job_released :
    let s := Act.run (emptyTmp, job) [.enter, .work packJob]
    let t := Act.step s (.stream 1 (some 1))
    (Work.exists? job.projectDir s.1).1 = .ok true ∧ (Work.exists? job.archivePath s.1).1 = .ok true ∧ job.Cleared t.1 ∧
      (Work.exists? job.projectDir (Act.run t [.enter]).1).1 = .ok true ∧
      Act.step (Act.run t [.enter]) .background = Act.run t [.enter] := by
  intro s t
  have hnull : Work.hasNull job.projectDir = false ∧ Work.hasNull job.archivePath = false := by decide +kernel
  have hproject : s.1.disk.locate job.projectDir = .ok ["tmp", "job"] := by decide +kernel
  have harchive : s.1.disk.locate job.archivePath = .ok ["tmp", "job.zip"] := by decide +kernel
  have hdir : s.1.disk.get? ["tmp", "job"] = some .dir := by rfl
  have hfile : s.1.disk.get? ["tmp", "job.zip"] = some (.file ⟨#[80, 75]⟩ Entry.defaultMode) := by rfl
  have hanew : (Act.run t [.enter]).1.disk.locate job.projectDir = .ok ["tmp", "job"] := by decide +kernel
  have hmade : ((Act.run t [.enter]).1.disk.get? ["tmp", "job"]).map Entry.isDir = some true := by decide +kernel
  obtain ⟨e, he, hisDir⟩ := Option.map_eq_some_iff.1 hmade
  have hseen : Work.seen (some e) = true := by cases e <;> first | rfl | cases hisDir
  obtain ⟨hcleared, -, hlater, -⟩ := released_exactly_once job rfl emptyTmp [.enter, .work packJob]
    (by simp [Act.Releases]) (.stream 1 (some 1)) trivial
  refine ⟨Work.exists?_iff.2 ⟨_, _, ⟨hnull.1, hproject, hdir⟩, rfl⟩, Work.exists?_iff.2 ⟨_, _, ⟨hnull.2, harchive, hfile⟩, rfl⟩,
    hcleared ⟨fun q e hq _ => ?_, fun q e hq => ?_⟩, Work.exists?_iff.2 ⟨_, _, ⟨hnull.1, hanew, he⟩, hseen⟩,
    hlater [.enter] .background trivial⟩
  · cases hproject.symm.trans hq.2.1
    cases hdir.symm.trans hq.2.2
    exact ⟨by decide, rfl⟩
  · cases harchive.symm.trans hq.2.1
    cases hfile.symm.trans hq.2.2
    rfl

end Classwright
