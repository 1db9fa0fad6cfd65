/-
What a stream gives of an archive.

An archive is read in chunks up to the first read that gives nothing, and its length was announced before. The size of a
chunk is a setting, and the settings take every number for it. A read of nothing gives nothing, so a size of zero ends the
stream before the first byte; numbers below -1 cannot be read at all.

- `Workspace.Whole`: chunks that are all of a content; `Workspace.Regular`: sizes with which a read that finds something
  gives something;
- `chunks_whole`: chunks of a regular size are all of a content;
- `clear_ok`, `stream_eq`: a stream always ends in a release;
- `archive_streamed`: the archive is delivered exactly when the size is regular, or when nothing is to be read in nothing.
-/
import Mathlib.Algebra.GroupWithZero.Nat
import Classwright.Proofs.Releases
import Classwright.Settings.Basic

namespace Classwright

namespace Workspace

/-! ## Chunks -/

/-- chunks that are all of a content: together they are its bytes, none is empty, and all but the last are of one size -/
structure Whole (n : Nat) (content : List UInt8) (cs : List (List UInt8)) : Prop where
  joined : cs.flatten = content
  filled : ∀ c ∈ cs, c ≠ []
  even : ∀ c ∈ cs.dropLast, c.length = n

/-- as many bytes as are there, or some at a time, as far as a machine can count -/
def Regular (size : Int) : Prop := size = -1 ∨ 1 ≤ size ∧ size < 0x8000000000000000

/-- numbers that a read refuses -/
def Refused (size : Int) : Prop := size < -1 ∨ 0x8000000000000000 ≤ size

variable {size : Int} {bs : List UInt8} {n limit : Nat} {cs : List (List UInt8)}

theorem readChunk_ok (h : ¬ Refused size) :
    readChunk size bs = .ok (if size = -1 then bs else bs.take size.toNat) := by
  unfold Refused at h
  unfold readChunk
  rw [if_neg (by omega), if_neg (by omega)]
  split_ifs <;> rfl

theorem readChunk_refused (h : Refused size) : ∃ f, readChunk size bs = .error f := by
  unfold Refused at h
  unfold readChunk
  split_ifs
  · exact ⟨_, rfl⟩
  · exact ⟨_, rfl⟩
  all_goals omega

/-- a regular read takes the next bytes of a content that is short enough -/
theorem exists_readChunk (h : Regular size) (limit : Nat) :
    ∃ n, 0 < n ∧ ∀ bs : List UInt8, bs.length ≤ limit → readChunk size bs = .ok (bs.take n) := by
  have hread : ¬ Refused size := by
    unfold Regular at h
    unfold Refused
    omega
  rcases h with rfl | hpos
  · refine ⟨limit + 1, Nat.succ_pos _, fun bs hbs => ?_⟩
    rw [readChunk_ok hread, if_pos rfl, List.take_of_length_le (by omega)]
  · refine ⟨size.toNat, by omega, fun bs _ => ?_⟩
    rw [readChunk_ok hread, if_neg (by omega)]

namespace Whole

theorem nil (n : Nat) : Whole n [] [] := ⟨rfl, by simp, by simp⟩

/-- chunks that are all of a content are as long as it is -/
theorem announced (h : Whole n bs cs) : (cs.map List.length).sum = bs.length := by
  rw [← h.joined, List.length_flatten]

/-- a chunk before all of the rest: it is of full size, unless the rest is nothing -/
theorem cons (hn : 0 < n) (hbs : bs ≠ []) (h : Whole n (bs.drop n) cs) : Whole n bs (bs.take n :: cs) where
  joined := by rw [List.flatten_cons, h.joined, List.take_append_drop]
  filled := by
    rw [List.forall_mem_cons]
    refine ⟨fun htake => ?_, h.filled⟩
    rcases List.take_eq_nil_iff.1 htake with hzero | hnil
    · omega
    · exact hbs hnil
  even := by
    cases cs with
    | nil => simp
    | cons c rest =>
      rw [List.dropLast_cons_cons, List.forall_mem_cons]
      refine ⟨?_, h.even⟩
      -- something is left behind the chunk
      have hrest : bs.drop n ≠ [] := by
        rw [← h.joined, List.flatten_cons]
        exact List.append_ne_nil_of_left_ne_nil (h.filled c List.mem_cons_self) _
      have hlong := mt List.drop_eq_nil_iff.2 hrest
      rw [List.length_take]
      omega

end Whole

/-- **All of a content.** Reads of the next bytes, some at a time, give everything in the end. -/
theorem chunks_whole (hn : 0 < n) (hread : ∀ bs : List UInt8, bs.length ≤ limit → readChunk size bs = .ok (bs.take n))
    {rounds : Nat} (hbs : bs.length ≤ limit) (hrounds : bs.length < rounds) :
    ∃ cs, chunks size rounds bs = .ok cs ∧ Whole n bs cs := by
  induction rounds generalizing bs with
  | zero => omega
  | succ rounds ih =>
    rw [chunks, hread bs hbs]
    cases htake : bs.take n with
    | nil =>
      rcases List.take_eq_nil_iff.1 htake with rfl | rfl
      · omega
      · exact ⟨[], rfl, Whole.nil n⟩
    | cons b rest =>
      have hlength : rest.length + 1 = min n bs.length := by
        rw [← List.length_take, htake, List.length_cons]
      have hdrop : bs.drop (rest.length + 1) = bs.drop n := by
        rw [hlength, List.drop_eq_drop_iff]
        omega
      have hshort : (bs.drop n).length < bs.length := by
        rw [List.length_drop]
        omega
      obtain ⟨cs, hcs, hwhole⟩ := @ih (bs.drop n) (by omega) (by omega)
      refine ⟨(b :: rest) :: cs, ?_, ?_⟩
      · show (chunks size rounds (bs.drop (rest.length + 1))).map _ = _
        rw [hdrop, hcs]
        rfl
      · rw [← htake]
        refine hwhole.cons hn ?_
        rintro rfl
        cases htake.symm.trans List.take_nil

theorem allChunks_regular (h : Regular size) (bs : List UInt8) : ∃ n cs, allChunks size bs = .ok cs ∧ Whole n bs cs := by
  obtain ⟨n, hn, hread⟩ := exists_readChunk h bs.length
  obtain ⟨cs, hcs, hwhole⟩ := chunks_whole hn hread (Nat.le_refl _) (Nat.lt_succ_self bs.length)
  exact ⟨n, cs, hcs, hwhole⟩

/-- a read of nothing ends a stream before its first byte -/
theorem allChunks_zero (bs : List UInt8) : allChunks 0 bs = .ok [] := by
  rw [allChunks, chunks, readChunk_ok (by unfold Refused; omega)]
  rfl

theorem allChunks_refused (h : Refused size) (bs : List UInt8) : ∃ f, allChunks size bs = .error f := by
  obtain ⟨f, hf⟩ : ∃ f, readChunk size bs = .error f := readChunk_refused h
  rw [allChunks, chunks, hf]
  exact ⟨f, rfl⟩

/-- every size is regular, zero or refused -/
theorem regular_or (size : Int) : Regular size ∨ size = 0 ∨ Refused size := by
  unfold Regular Refused
  omega

theorem allChunks_fails_iff : (∃ f, allChunks size bs = .error f) ↔ Refused size := by
  refine ⟨?_, fun h => allChunks_refused h bs⟩
  rintro ⟨f, hf⟩
  rcases regular_or size with h | rfl | h
  · obtain ⟨n, cs, hcs, -⟩ := allChunks_regular h bs
    cases hf.symm.trans hcs
  · cases hf.symm.trans (allChunks_zero bs)
  · exact h

/-- **Which sizes deliver.** -/
theorem allChunks_whole_iff :
    (∃ n cs, allChunks size bs = .ok cs ∧ Whole n bs cs) ↔ Regular size ∨ size = 0 ∧ bs = [] := by
  constructor
  · rintro ⟨n, cs, hcs, hwhole⟩
    rcases regular_or size with h | rfl | h
    · exact Or.inl h
    · refine Or.inr ⟨rfl, ?_⟩
      rw [← hwhole.joined, ← Except.ok.inj ((allChunks_zero bs).symm.trans hcs)]
      rfl
    · obtain ⟨f, hf⟩ := allChunks_refused h bs
      cases hf.symm.trans hcs
  · rintro (h | ⟨rfl, rfl⟩)
    · exact allChunks_regular h bs
    · exact ⟨0, [], allChunks_zero [], Whole.nil 0⟩

/-! ## The release behind a stream -/

variable {u : Workspace} {w : World} {q : Place} {e : Entry}

/-- the way to a directory has no character that the way to its archive has not -/
theorem hasNull_projectDir (h : Work.hasNull u.archivePath = false) : Work.hasNull u.projectDir = false := by
  obtain ⟨top, front, last, harchive, hproject⟩ := u.paths_eq
  unfold Work.hasNull at h ⊢
  rw [harchive, List.any_append, Bool.or_eq_false_iff] at h
  obtain ⟨hfront, hlast⟩ := h
  rcases hproject with hproject | hproject
  · rw [hproject]
    exact hfront
  · rw [hproject, List.any_append, Bool.or_eq_false_iff]
    refine ⟨hfront, ?_⟩
    simp only [List.any_cons, List.any_nil, Bool.or_false, String.toList_append] at hlast ⊢
    rw [← Bool.not_eq_true, List.contains_iff_mem, List.mem_append, not_or] at hlast
    rw [← Bool.not_eq_true, List.contains_iff_mem]
    exact hlast.1

/-- **A workspace with an archive** is cleared without a fault: what cannot be removed is worth a warning only. -/
theorem clear_ok (h : w.disk.Holding u.archivePath q e) : (u.clear w).1 = .ok () := by
  obtain ⟨hnull, hlocate, -⟩ := h
  obtain ⟨r, hr⟩ := located_of_archive hlocate
  have hsight : w.disk.sight u.projectDir = .ok (w.disk.get? r) := by
    unfold Disk.sight
    rw [hr]
    split_ifs with hn
    · rw [hasNull_projectDir hnull] at hn
      cases hn
    · rfl
  have hrest : ∀ w', ((tryRemove u.archivePath (Work.discard u.archivePath) >>= fun _ =>
      Work.report (LogEntry.debug ("[Workspace] Released " ++ u.name))) w').1 = .ok () := by
    intro w'
    have hok := tryRemove_ok (p := u.archivePath) (x := Work.discard u.archivePath) (w := w') fun f hf =>
      Work.fault_remove hnull (Work.discard_eq _ ▸ hf)
    rw [Work.bind_ok (Prod.ext hok rfl)]
    rfl
  have hexists := Work.exists?_eq u.projectDir w
  rw [hsight] at hexists
  unfold clear
  rw [Work.bind_ok hexists]
  split_ifs
  · have hok := tryRemove_ok (p := u.projectDir) (x := Work.discardTree u.projectDir) (w := w) fun f hf =>
      Work.fault_remove (hasNull_projectDir hnull) (Work.discardTree_eq _ ▸ hf)
    rw [Work.bind_ok (Prod.ext hok rfl)]
    exact hrest _
  · exact hrest _

/-- a stream gives what the reads of the archive give, and ends in a release -/
theorem stream_eq {content : ByteArray} {mode : Nat} (h : w.disk.Holding u.archivePath q (.file content mode)) (size : Int) :
    u.stream size none w = (.ok (allChunks size content.data.toList, { u with released := true }), (u.release w).2) := by
  have hread : Work.read u.archivePath w = (.ok content, w) := by
    unfold Work.read
    rw [Work.bind_ok (Work.locate_of_holding h), Work.bind_ok (show Work.disk w = (.ok w.disk, w) from rfl), h.2.2]
    rfl
  have hrelease : u.release w = (.ok (.ok (), { u with released := true }), (u.release w).2) := by
    rw [release_eq]
    split_ifs with hreleased
    · rw [← hreleased]
    · rw [clear_ok h]
  unfold stream
  dsimp only
  rw [Work.bind_ok (show Work.attempt _ w = (.ok (allChunks size content.data.toList), w) from ?_), Work.bind_ok hrelease]
  · rfl
  · unfold Work.attempt
    rw [Work.bind_ok hread]
    cases allChunks size content.data.toList <;> rfl

end Workspace

/-- every number is a size for chunks, as far as settings go -/
theorem Settings.chunkSize_free (size : Int) :
    ∃ s, Settings.read { given := [("ARCHIVE_CHUNK_SIZE", .int size)] } = .ok s ∧ s.chunkSize = size := ⟨_, rfl, rfl⟩

open Workspace in
/-- **When an archive is delivered.** A stream of the archive of a workspace always ends in a release of the workspace,
and gives what the reads of the archive give. These are all of it, in chunks that are not empty and of one size up to the
last, exactly when the size of the chunks is regular, or zero for an archive without bytes; they fail exactly when the size
is one that a read refuses; and with a size of zero they are none. The settings take every size. -/
theorem archive_streamed (u : Workspace) (w : World) (q : Place) (content : ByteArray) (mode : Nat)
    (h : w.disk.Holding u.archivePath q (.file content mode)) (size : Int) :
    (∃ s, Settings.read { given := [("ARCHIVE_CHUNK_SIZE", .int size)] } = .ok s ∧ s.chunkSize = size) ∧
    ∃ r, u.stream size none w = (.ok (r, { u with released := true }), (u.release w).2) ∧
      ((∃ n cs, r = .ok cs ∧ Whole n content.data.toList cs ∧ (cs.map List.length).sum = content.size) ↔
        Regular size ∨ size = 0 ∧ content.size = 0) ∧
      ((∃ f, r = .error f) ↔ Refused size) ∧ (size = 0 → r = .ok []) := by
  refine ⟨Settings.chunkSize_free size, allChunks size content.data.toList, stream_eq h size, ?_, allChunks_fails_iff, ?_⟩
  · have hlength : content.data.toList.length = content.size := Array.length_toList
    have hempty : content.data.toList = [] ↔ content.size = 0 := by rw [← hlength, List.length_eq_zero_iff]
    rw [← hempty, ← allChunks_whole_iff]
    refine exists_congr fun n => exists_congr fun cs => and_congr_right fun _ => ?_
    exact and_iff_left_of_imp fun hwhole => hwhole.announced.trans hlength
  · rintro rfl
    exact allChunks_zero _

theorem holding_packJob :
    (packJob emptyTmp).disk.Holding job.archivePath ["tmp", "job.zip"] (.file ⟨#[80, 75]⟩ Entry.defaultMode) :=
  ⟨by decide +kernel, by decide +kernel, rfl⟩

theorem job_streamed :
    (packJob emptyTmp).disk.Holding job.archivePath ["tmp", "job.zip"] (.file ⟨#[80, 75]⟩ Entry.defaultMode) ∧
    ∃ n cs, (job.stream 1 none (packJob emptyTmp)).1 = .ok (.ok cs, { job with released := true }) ∧
      Workspace.Whole n [80, 75] cs ∧ (cs.map List.length).sum = 2 := by
  obtain ⟨-, r, hr, hwhole, -⟩ := archive_streamed job (packJob emptyTmp) _ _ _ holding_packJob 1
  obtain ⟨n, cs, rfl, hcs⟩ := hwhole.2 (Or.inl (Or.inr (by decide)))
  exact ⟨holding_packJob, n, cs, congrArg Prod.fst hr, hcs⟩

/-- **No byte at all.** Zero is a size that settings take, and the stream of an archive of two bytes then ends at once,
without a fault and with nothing given. -/
theorem job_not_streamed :
    (∃ s, Settings.read { given := [("ARCHIVE_CHUNK_SIZE", .int 0)] } = .ok s ∧ s.chunkSize = 0) ∧
    (packJob emptyTmp).disk.Holding job.archivePath ["tmp", "job.zip"] (.file ⟨#[80, 75]⟩ Entry.defaultMode) ∧
    (job.stream 0 none (packJob emptyTmp)).1 = .ok (.ok [], { job with released := true }) ∧
    ∀ n, ¬ Workspace.Whole n [80, 75] [] := by
  refine ⟨Settings.chunkSize_free 0, holding_packJob, ?_, fun n hwhole => List.cons_ne_nil _ _ hwhole.joined.symm⟩
  rw [Workspace.stream_eq holding_packJob, Workspace.allChunks_zero]

end Classwright
