/-
An archive that was written is read back as it was written.

Every number is written into a field of fixed width behind pieces whose widths are known, so a reader finds it by counting.
What is too large for a field of four bytes is in an extra field or in the records of a large directory. The limits are those
of the widths: names below 64 KiB, and for the whole what a position in a file can be. One thing a reader mistakes: where the
directory is not large but ends like the locator of one that is, which takes a last name made for it.

- `field_little`, `field_skip`: a number is read back from its field, and the pieces before a field do not matter;
- `inflate?_deflate`: the blocks of a content give the content back;
- `nameText_listed`: a name is read back, whether it is written in UTF-8 or in the older code page;
- `extended_shown`: large numbers are read back; `endingAt_encode`: so is the end of the directory;
- `Writable`: members that an archive can take; `directory_encode`, `content?_encode`: its directory and its contents;
- `entries?_encode`, `verify_encode`: it lists its members, and it is found intact;
- `looksSplit`: what a reader mistakes for a part of an archive; `directory_split`, `verify_split`: it is not read.
-/
import Mathlib.Data.List.Nodup
import Mathlib.Tactic.IntervalCases
import Classwright.Archive.Basic

namespace Classwright.Archive

/-! ## Fields -/

theorem drop_skip {xs : List UInt8} (bs : List UInt8) {start : Nat} (h : xs.length ≤ start) :
    (xs ++ bs).drop start = bs.drop (start - xs.length) := by
  rw [List.drop_append, List.drop_eq_nil_of_le h, List.nil_append]

/-- what stands before a field does not matter -/
theorem field_skip {xs : List UInt8} (bs : List UInt8) {start : Nat} (width : Nat) (h : xs.length ≤ start) :
    field (xs ++ bs) start width = field bs (start - xs.length) width := by
  unfold field
  rw [drop_skip bs h]

theorem field_little {width n : Nat} (h : n < Nat.pow 256 width) (bs : List UInt8) :
    field (little width n ++ bs) 0 width = n := by
  unfold field
  have htake : (little width n ++ bs).take width = little width n := by
    rw [List.take_append_of_le_length (Nat.le_of_eq (length_little width n).symm),
      List.take_of_length_le (Nat.le_of_eq (length_little width n))]
  rw [List.drop_zero, htake, number_little width n h]

theorem startsWith_iff {sig bs : List UInt8} : startsWith sig bs = true ↔ sig <+: bs := List.isPrefixOf_iff_prefix

theorem startsWith_append (sig bs : List UInt8) : startsWith sig (sig ++ bs) = true :=
  startsWith_iff.2 (List.prefix_append sig bs)

/-- what stands behind bytes that are long enough does not matter -/
theorem startsWith_append_of_le {sig bs : List UInt8} (h : sig.length ≤ bs.length) (back : List UInt8) :
    startsWith sig (bs ++ back) = startsWith sig bs := by
  rw [Bool.eq_iff_iff, startsWith_iff, startsWith_iff]
  exact ⟨fun hsig => List.prefix_of_prefix_length_le hsig (List.prefix_append bs back) h,
    fun hsig => hsig.trans (List.prefix_append bs back)⟩

/-! ## Contents -/

theorem length_le_storedBlocks (fuel : Nat) (bs : List UInt8) : bs.length ≤ (storedBlocks fuel bs).length := by
  induction fuel generalizing bs with
  | zero =>
    simp only [storedBlocks, block, List.length_cons, List.length_append]
    omega
  | succ fuel ih =>
    rw [storedBlocks]
    split_ifs
    · simp only [block, List.length_cons, List.length_append]
      omega
    · have hrest := ih (bs.drop blockLimit)
      simp only [block, List.length_cons, List.length_append, List.length_take, List.length_drop] at hrest ⊢
      omega

/-- one block is read, and what follows it after it -/
theorem inflate?_block (fuel : Nat) (last : Bool) {bs : List UInt8} (h : bs.length ≤ blockLimit) (rest : List UInt8) :
    inflate? (fuel + 1) (block last bs ++ rest) = if last then some bs else (inflate? fuel rest).map (bs ++ ·) := by
  have hlimit : blockLimit < Nat.pow 256 2 := by decide
  obtain ⟨body, hbody⟩ : ∃ body, body = little 2 bs.length ++ (little 2 (blockLimit - bs.length) ++ (bs ++ rest)) :=
    ⟨_, rfl⟩
  have hsize : field body 0 2 = bs.length := by
    rw [hbody]
    exact field_little (Nat.lt_of_le_of_lt h hlimit) _
  have hcheck : field body 2 2 = blockLimit - bs.length := by
    rw [hbody, field_skip _ 2 (Nat.le_of_eq (length_little 2 _)), length_little]
    exact field_little (Nat.lt_of_le_of_lt (Nat.sub_le _ _) hlimit) _
  have hdrop : ∀ n, body.drop (4 + n) = (bs ++ rest).drop n := by
    intro n
    rw [hbody, ← List.append_assoc, List.drop_append, List.drop_eq_nil_of_le (by simp), List.nil_append]
    simp
  have hfound : (body.drop 4).take bs.length = bs := by
    rw [hdrop 0, List.drop_zero, List.take_left]
  have hafter : body.drop (4 + bs.length) = rest := by
    rw [hdrop, List.drop_left]
  have hbytes : block last bs ++ rest = (if last then 1 else 0) :: body := by
    rw [hbody, block]
    simp only [List.cons_append, List.append_assoc]
  rw [hbytes, inflate?]
  simp only [hsize, hcheck, hfound, hafter]
  rw [if_neg (by omega)]
  cases last <;> rfl

theorem inflate?_storedBlocks {fuel : Nat} {bs : List UInt8} (h : bs.length ≤ (fuel + 1) * blockLimit) {n : Nat}
    (hn : fuel < n) : inflate? n (storedBlocks fuel bs) = some bs := by
  induction fuel generalizing bs n with
  | zero =>
    obtain ⟨n, rfl⟩ : ∃ k, n = k + 1 := ⟨n - 1, by omega⟩
    have hblock := inflate?_block n true (show bs.length ≤ blockLimit by omega) []
    rwa [List.append_nil] at hblock
  | succ fuel ih =>
    obtain ⟨n, rfl⟩ : ∃ k, n = k + 1 := ⟨n - 1, by omega⟩
    rw [storedBlocks]
    split_ifs with hshort
    · have hblock := inflate?_block n true hshort []
      rwa [List.append_nil] at hblock
    · have hlength : (bs.drop blockLimit).length ≤ (fuel + 1) * blockLimit := by
        rw [List.length_drop]
        have hstep : (fuel + 1 + 1) * blockLimit = (fuel + 1) * blockLimit + blockLimit := Nat.succ_mul _ _
        omega
      rw [inflate?_block n false (by rw [List.length_take]; omega), ih hlength (by omega)]
      simp

/-- **A content is read back** from its blocks. -/
theorem inflate?_deflate (bs : List UInt8) : inflate? ((deflate bs).length + 1) (deflate bs) = some bs := by
  unfold deflate
  refine inflate?_storedBlocks ?_ ?_
  · have hdiv := Nat.div_add_mod bs.length blockLimit
    have hmod : bs.length % blockLimit < blockLimit := Nat.mod_lt _ (by decide)
    have hcomm : (bs.length / blockLimit + 1) * blockLimit = blockLimit * (bs.length / blockLimit) + blockLimit := by
      rw [Nat.succ_mul, Nat.mul_comm]
    omega
  · have hle := length_le_storedBlocks (bs.length / blockLimit) bs
    have hdiv : bs.length / blockLimit ≤ bs.length := Nat.div_le_self _ _
    omega

/-! ## Names -/

theorem nameBytes_eq (name : String) : nameBytes name = name.toList.flatMap String.utf8EncodeChar := by
  unfold nameBytes
  rw [String.toUTF8_eq_toByteArray, ← String.utf8Encode_toList, List.utf8Encode, List.toList_data_toByteArray]

theorem nameBytes_inj {a b : String} (h : nameBytes a = nameBytes b) : a = b :=
  String.toByteArray_inj.1 (ByteArray.ext (Array.toList_inj.1 h))

theorem text?_nameBytes (name : String) : text? (nameBytes name) = some name := by
  have hbytes : (⟨(nameBytes name).toArray⟩ : ByteArray) = name.toByteArray := by
    unfold nameBytes
    rw [Array.toArray_toList]
    rfl
  unfold text? String.fromUTF8?
  rw [hbytes, dif_pos name.isValidUTF8]
  rfl

/-- below 128 the code page is ASCII -/
theorem codePageChar_encode {c : Char} (h : c.toNat < 128) : (String.utf8EncodeChar c).map codePageChar = [c] := by
  have hval : c.val.toNat < 128 := h
  have hsize : c.utf8Size = 1 := by
    rw [Char.utf8Size, if_pos (UInt32.le_iff_toNat_le.2 (by simpa using Nat.le_of_lt_succ hval))]
  have hbyte : c.val.toUInt8.toNat = c.toNat := by
    rw [UInt32.toNat_toUInt8, Nat.mod_eq_of_lt (by omega)]
    rfl
  rw [String.utf8EncodeChar_eq_singleton hsize, List.map_singleton, codePageChar,
    if_pos (UInt8.lt_iff_toNat_lt.2 (by rw [hbyte]; exact h)), hbyte, Char.ofNat_toNat]

theorem codePage_nameBytes {cs : List Char} (h : ∀ c ∈ cs, c.toNat < 128) :
    (cs.flatMap String.utf8EncodeChar).map codePageChar = cs := by
  induction cs with
  | nil => rfl
  | cons c rest ih =>
    rw [List.flatMap_cons, List.map_append, codePageChar_encode (h c List.mem_cons_self),
      ih fun c hc => h c (List.mem_cons_of_mem _ hc)]
    rfl

/-! ## Records -/

/-- what the directory says of a member at a position -/
def listed (m : Member) (offset : Nat) : Listed where
  name := nameBytes m.name
  flags := nameFlags m.name
  method := deflateMethod
  checksum := checksum m.bytes
  packedSize := m.packed.length
  size := m.bytes.length
  offset := offset

/-- **A name is read back.** -/
theorem nameText_listed (m : Member) (offset : Nat) : (listed m offset).nameText = m.name := by
  unfold Listed.nameText listed nameFlags
  cases hascii : m.name.toList.all fun c => decide (c.toNat < 128) with
  | true =>
    have hchars : ∀ c ∈ m.name.toList, c.toNat < 128 := fun c hc => of_decide_eq_true (List.all_eq_true.1 hascii c hc)
    have hmark : ¬ (0 / utf8Flag % 2 = 1) := by decide
    dsimp only
    rw [if_pos rfl, if_neg hmark, nameBytes_eq, codePage_nameBytes hchars, String.ofList_toList]
  | false =>
    have hmark : utf8Flag / utf8Flag % 2 = 1 := by decide
    dsimp only
    rw [if_neg Bool.false_ne_true, if_pos hmark, text?_nameBytes]

/-- a member whose sizes an archive can write down -/
structure Member.Small (m : Member) : Prop where
  name : (nameBytes m.name).length < Nat.pow 256 2
  content : (localRecord m).length < Nat.pow 256 8

@[simp] theorem length_localSignature : localSignature.length = 4 := by decide

@[simp] theorem length_directorySignature : directorySignature.length = 4 := by decide

@[simp] theorem length_endSignature : endSignature.length = 4 := by decide

@[simp] theorem length_largeEndSignature : largeEndSignature.length = 4 := by decide

@[simp] theorem length_locatorSignature : locatorSignature.length = 4 := by decide

@[simp] theorem length_narrow (elsewhere : Bool) (n : Nat) : (narrow elsewhere n).length = 4 := length_little _ _

@[simp] theorem length_description (m : Member) (elsewhere : Bool) (extra : List UInt8) :
    (description m elsewhere extra).length = 24 := by
  unfold description
  simp

theorem length_flatMap_little (ns : List Nat) : (ns.flatMap (little 8)).length = 8 * ns.length := by
  induction ns with
  | nil => rfl
  | cons n rest ih =>
    rw [List.flatMap_cons, List.length_append, length_little, ih, List.length_cons]
    omega

theorem length_extraField_lt {ns : List Nat} (h : ns.length ≤ 3) : (extraField ns).length < Nat.pow 256 2 := by
  have hlimit : 28 < Nat.pow 256 2 := by decide
  unfold extraField
  split_ifs
  · decide
  · rw [List.length_append, List.length_append, length_little, length_little, length_flatMap_little]
    omega

theorem length_wideSizes_le (m : Member) (elsewhere : Bool) : (m.wideSizes elsewhere).length ≤ 2 := by
  cases elsewhere <;> simp [Member.wideSizes]

theorem length_entryNumbers_le (m : Member) (offset : Nat) :
    (m.wideSizes m.isLarge ++ if isWide offset then [offset] else []).length ≤ 3 := by
  have hsizes := length_wideSizes_le m m.isLarge
  rw [List.length_append]
  split_ifs <;> simp only [List.length_singleton, List.length_nil] <;> omega

theorem length_localRecord (m : Member) :
    (localRecord m).length =
      30 + (nameBytes m.name).length + (extraField (m.wideSizes m.mayGrow)).length + m.packed.length := by
  unfold localRecord localSignature
  simp only [List.length_append, length_little, length_description, List.length_cons, List.length_nil]

theorem length_directoryRecord (m : Member) (offset : Nat) :
    (directoryRecord m offset).length = entrySize + (nameBytes m.name).length + (entryExtra m offset).length := by
  unfold directoryRecord directorySignature entrySize
  simp only [List.length_append, length_little, length_narrow, length_description, List.length_cons, List.length_nil]

theorem length_le_deflate (bs : List UInt8) : bs.length ≤ (deflate bs).length := length_le_storedBlocks _ _

theorem checksum_lt (bs : List UInt8) : checksum bs < Nat.pow 256 4 := UInt32.toNat_lt _

theorem nameFlags_lt (name : String) : nameFlags name < Nat.pow 256 2 := by
  unfold nameFlags
  split_ifs <;> decide

theorem isWide_eq_false_iff {n : Nat} : isWide n = false ↔ n ≤ wideLimit := by
  rw [isWide, decide_eq_false_iff_not, Nat.not_lt]

theorem Member.sizes_le (m : Member) (h : m.isLarge = false) : m.bytes.length ≤ wideLimit ∧ m.packed.length ≤ wideLimit := by
  obtain ⟨hbytes, hpacked⟩ := Bool.or_eq_false_iff.1 h
  exact ⟨isWide_eq_false_iff.1 hbytes, isWide_eq_false_iff.1 hpacked⟩

/-- a number in four bytes, or the mark in its place -/
theorem field_narrow {elsewhere : Bool} {n : Nat} (h : elsewhere = false → n ≤ wideLimit) (bs : List UInt8) :
    field (narrow elsewhere n ++ bs) 0 4 = if elsewhere then wideMark else n := by
  have hmark : wideMark < Nat.pow 256 4 := by decide
  have hlimit : wideLimit < Nat.pow 256 4 := by decide
  refine field_little ?_ bs
  cases elsewhere with
  | true => exact hmark
  | false => exact Nat.lt_of_le_of_lt (h rfl) hlimit

/-! ### Numbers in extra fields -/

/-- what the fields of a directory entry say, without its extra field -/
def shown (m : Member) (offset : Nat) : Listed where
  name := nameBytes m.name
  flags := nameFlags m.name
  method := deflateMethod
  checksum := checksum m.bytes
  packedSize := if m.isLarge then wideMark else m.packed.length
  size := if m.isLarge then wideMark else m.bytes.length
  offset := (if isWide offset then wideMark else offset : Nat)

/-- a number that is in an extra field when it is wide -/
theorem widened_written (what : String) {marks : List Nat} {wide : Bool} {n : Nat} (hmark : wideMark ∈ marks)
    (hmarks : ∀ mark ∈ marks, wideLimit < mark) (hn : n < Nat.pow 256 8) (hsmall : wide = false → n ≤ wideLimit)
    (rest : List UInt8) :
    widened what marks (if wide then wideMark else n) ((if wide then little 8 n else []) ++ rest) = .ok (n, rest) := by
  cases wide with
  | true =>
    have hlength : ¬ (little 8 n ++ rest).length < 8 := by
      rw [List.length_append, length_little]
      omega
    have hdrop : (little 8 n ++ rest).drop 8 = rest := List.drop_left' (length_little 8 n)
    rw [if_pos rfl, if_pos rfl, widened, if_neg (not_not.2 hmark), if_neg hlength, field_little hn, hdrop]
  | false => exact if_pos fun hmem => Nat.not_lt.2 (hsmall rfl) (hmarks n hmem)

/-- an extra field is read at once -/
theorem extended_extraField (e : Listed) {ns : List Nat} (h : ns.length ≤ 3) :
    e.extended (extraField ns) = if ns.isEmpty then .ok e else e.widened (ns.flatMap (little 8)) := by
  have hend : ∀ e : Listed, e.extended [] = .ok e := fun e => by rw [Listed.extended, dif_pos (by decide)]
  unfold extraField
  split_ifs with hempty
  · exact hend e
  · obtain ⟨data, hdata⟩ : ∃ data, data = ns.flatMap (little 8) := ⟨_, rfl⟩
    have hlength : data.length = 8 * ns.length := by rw [hdata, length_flatMap_little]
    have hsize : 8 * ns.length < Nat.pow 256 2 := by
      have hlimit : 24 < Nat.pow 256 2 := by decide
      omega
    have hkind : field (little 2 wideKind ++ little 2 (8 * ns.length) ++ data) 0 2 = wideKind := by
      rw [List.append_assoc]
      exact field_little (by decide) _
    have hfield : field (little 2 wideKind ++ little 2 (8 * ns.length) ++ data) 2 2 = data.length := by
      rw [List.append_assoc, field_skip _ 2 (by simp), length_little, hlength]
      exact field_little hsize _
    have hdrop : (little 2 wideKind ++ little 2 (8 * ns.length) ++ data).drop 4 = data := List.drop_left' (by simp)
    have hall : (little 2 wideKind ++ little 2 (8 * ns.length) ++ data).length = 4 + data.length := by
      rw [List.length_append, List.length_append, length_little, length_little]
    rw [← hdata, Listed.extended, dif_neg (by omega)]
    dsimp only
    rw [hkind, hfield, if_neg (by omega), if_pos rfl, hdrop, List.take_length, ← List.drop_drop, hdrop, List.drop_length]
    cases e.widened data with
    | ok e => exact hend e
    | error reason => rfl

/-- **Large numbers are read back** from the extra field, small ones are where they are. -/
theorem extended_shown {m : Member} (h : m.Small) {offset : Nat} (hoffset : offset < Nat.pow 256 8) :
    (shown m offset).extended (entryExtra m offset) = .ok (listed m offset) := by
  have hpacked := h.content
  rw [length_localRecord] at hpacked
  have hsize : m.bytes.length ≤ m.packed.length := length_le_deflate m.bytes
  have hread : (shown m offset).widened ((if m.isLarge then little 8 m.bytes.length else []) ++
      ((if m.isLarge then little 8 m.packed.length else []) ++ ((if isWide offset then little 8 offset else []) ++ []))) =
        .ok (listed m offset) := by
    unfold Listed.widened shown
    dsimp only
    rw [widened_written _ (by decide) (by decide) (by omega) fun hlarge => (m.sizes_le hlarge).1]
    dsimp only [bind, Except.bind]
    rw [widened_written _ (by decide) (by decide) (by omega) fun hlarge => (m.sizes_le hlarge).2]
    dsimp only
    rw [Int.toNat_natCast, widened_written _ (by decide) (by decide) hoffset isWide_eq_false_iff.1]
    rfl
  unfold entryExtra
  rw [extended_extraField _ (length_entryNumbers_le m offset)]
  unfold Member.wideSizes
  cases hlarge : m.isLarge <;> cases hwide : isWide offset <;> rw [hlarge, hwide] at hread
  case false.false =>
    unfold shown
    rw [hlarge, hwide]
    rfl
  all_goals exact hread

/-! ### Entries -/

theorem drop_directoryRecord (m : Member) (offset : Nat) (rest : List UInt8) :
    (directoryRecord m offset ++ rest).drop entrySize = nameBytes m.name ++ (entryExtra m offset ++ rest) := by
  unfold directoryRecord
  dsimp only
  rw [List.append_assoc, List.append_assoc]
  exact List.drop_left' (by simp [entrySize])

theorem readFields_directoryRecord {m : Member} (h : m.Small) (offset : Nat) (rest : List UInt8) :
    readFields (directoryRecord m offset ++ rest) = shown m offset := by
  unfold readFields shown
  rw [drop_directoryRecord]
  unfold directoryRecord description
  simp (disch := simp) only [List.append_assoc, field_skip, length_little, length_narrow, length_directorySignature,
    Nat.reduceSub]
  rw [field_little h.name, field_little (nameFlags_lt m.name), field_little (by decide : deflateMethod < _),
    field_little (checksum_lt _), field_narrow fun hlarge => (m.sizes_le hlarge).2,
    field_narrow fun hlarge => (m.sizes_le hlarge).1, field_narrow isWide_eq_false_iff.1, List.take_left]

/-- the sizes of what follows the fields of an entry -/
theorem sizes_directoryRecord {m : Member} (h : m.Small) (offset : Nat) (rest : List UInt8) :
    field (directoryRecord m offset ++ rest) 28 2 = (nameBytes m.name).length ∧
      field (directoryRecord m offset ++ rest) 30 2 = (entryExtra m offset).length ∧
        field (directoryRecord m offset ++ rest) 32 2 = 0 := by
  have hextra : (entryExtra m offset).length < Nat.pow 256 2 := length_extraField_lt (length_entryNumbers_le m offset)
  unfold directoryRecord description
  simp (disch := simp) only [List.append_assoc, field_skip, length_little, length_narrow, length_directorySignature,
    Nat.reduceSub]
  exact ⟨field_little h.name _, field_little hextra _, field_little (by decide) _⟩

/-- an entry of the directory is read as it was written -/
theorem readEntry_directoryRecord {m : Member} (h : m.Small) {offset : Nat} (hoffset : offset < Nat.pow 256 8)
    (rest : List UInt8) : readEntry (directoryRecord m offset ++ rest) 0 = .ok (listed m offset) := by
  obtain ⟨hname, hextra, -⟩ := sizes_directoryRecord h offset rest
  unfold readEntry
  rw [readFields_directoryRecord h, hname, hextra, ← List.drop_drop, drop_directoryRecord, List.drop_left, List.take_left,
    extended_shown h hoffset]
  show Except.ok { listed m offset with offset := (listed m offset).offset + 0 } = _
  rw [Int.add_zero]

theorem entryLength_directoryRecord {m : Member} (h : m.Small) (offset : Nat) (rest : List UInt8) :
    entryLength (directoryRecord m offset ++ rest) = (directoryRecord m offset).length := by
  obtain ⟨hname, hextra, hcomment⟩ := sizes_directoryRecord h offset rest
  rw [entryLength, hname, hextra, hcomment, length_directoryRecord]
  rfl

/-! ## The directory -/

/-- whether a directory that is not large ends like the locator of a large one: it would be taken for a part of an archive
of several volumes -/
def looksSplit (ms : List Member) : Bool :=
  let dir := directoryRecords 0 ms
  !isLargeDirectory ms.length dir.length (ms.flatMap localRecord).length &&
    startsWith locatorSignature (dir.drop (dir.length - locatorSize))

/-- members that an archive can take: their names tell them apart, and all fits into its numbers -/
structure Writable (ms : List Member) : Prop where
  distinct : (ms.map Member.name).Nodup
  names : ∀ m ∈ ms, (nameBytes m.name).length < Nat.pow 256 2
  size : (encode ms).length ≤ positionLimit
  whole : looksSplit ms = false

/-- the directory of members that start at a position -/
def listings (offset : Nat) : List Member → List Listed
  | [] => []
  | m :: rest => listed m offset :: listings (offset + (localRecord m).length) rest

theorem readEntries_directoryRecords {ms : List Member} {offset : Nat}
    (hnames : ∀ m ∈ ms, (nameBytes m.name).length < Nat.pow 256 2)
    (hsize : offset + (ms.flatMap localRecord).length < Nat.pow 256 8) :
    readEntries (directoryRecords offset ms) (directoryRecords offset ms).length 0 = .ok (listings offset ms) := by
  induction ms generalizing offset with
  | nil =>
    rw [readEntries]
    rfl
  | cons m rest ih =>
    rw [List.flatMap_cons, List.length_append] at hsize
    have hsmall : m.Small := ⟨hnames m List.mem_cons_self, by omega⟩
    have hlength := length_directoryRecord m offset
    have hentry : entrySize = 46 := rfl
    have hstart : ∀ bs, startsWith directorySignature (directoryRecord m offset ++ bs) = true := by
      intro bs
      unfold directoryRecord
      simp only [List.append_assoc]
      exact startsWith_append _ _
    rw [directoryRecords, readEntries, dif_neg (by rw [List.length_append]; omega),
      if_neg (by rw [List.length_append]; omega), hstart, if_neg (by decide), entryLength_directoryRecord hsmall,
      List.drop_left, List.length_append, Nat.add_sub_cancel_left,
      ih (fun n hn => hnames n (List.mem_cons_of_mem m hn)) (by omega), readEntry_directoryRecord hsmall (by omega)]
    rfl

theorem length_endRecord (count size offset : Nat) : (endRecord count size offset).length = endSize := by
  unfold endRecord
  simp [endSize]

theorem length_largeRecords (count size offset : Nat) :
    (largeRecords count size offset).length = largeEndSize + locatorSize := by
  unfold largeRecords
  simp [largeEndSize, locatorSize]

/-- the last record is found -/
theorem endPosition?_endRecord (front : List UInt8) (count size offset : Nat) :
    endPosition? (front ++ endRecord count size offset) = some front.length := by
  have hend := length_endRecord count size offset
  have hback : (front ++ endRecord count size offset).length - endSize = front.length := by
    rw [List.length_append, hend, Nat.add_sub_cancel]
  have hstart : startsWith endSignature (endRecord count size offset) = true := by
    unfold endRecord
    simp only [List.append_assoc]
    exact startsWith_append _ _
  have hcomment : field (endRecord count size offset) 20 2 = 0 := by
    rw [endRecord, ← List.append_nil (little 2 0)]
    simp (disch := simp) only [List.append_assoc, field_skip, length_little, length_endSignature, Nat.reduceSub]
    exact field_little (by decide) _
  unfold endPosition?
  dsimp only
  rw [if_neg (by rw [List.length_append]; omega), hback, List.drop_left, hstart, hcomment, if_pos (by decide)]

/-- the records of a large directory are found before it -/
theorem endingAt_large (front : List UInt8) (count : Nat) {size offset : Nat} (hsize : size < Nat.pow 256 8)
    (hoffset : offset < Nat.pow 256 8) (back : List UInt8) :
    endingAt (front ++ (largeRecords count size offset ++ back)) (front.length + (largeEndSize + locatorSize)) =
      .ok ⟨front.length, size, offset⟩ := by
  obtain ⟨locator, hlocator⟩ : ∃ bs, bs = locatorSignature ++ little 4 0 ++ little 8 (offset + size) ++ little 4 1 := ⟨_, rfl⟩
  obtain ⟨record, hrecord⟩ : ∃ bs, largeRecords count size offset = bs ++ locator ∧ bs.length = largeEndSize ∧
      startsWith largeEndSignature (bs ++ (locator ++ back)) = true ∧ field (bs ++ (locator ++ back)) 40 8 = size ∧
        field (bs ++ (locator ++ back)) 48 8 = offset := by
    refine ⟨_, by rw [hlocator]; rfl, by simp [largeEndSize], ?_, ?_, ?_⟩
    · simp only [List.append_assoc]
      exact startsWith_append _ _
    all_goals simp (disch := simp) only [List.append_assoc, field_skip, length_little, length_largeEndSignature, Nat.reduceSub]
    · exact field_little hsize _
    · exact field_little hoffset _
  obtain ⟨hlarge, hlength, hstart, hsizeRead, hoffsetRead⟩ := hrecord
  have hfields : startsWith locatorSignature (locator ++ back) = true ∧ field (locator ++ back) 4 4 = 0 ∧
      field (locator ++ back) 16 4 = 1 := by
    rw [hlocator]
    refine ⟨?_, ?_, ?_⟩
    · simp only [List.append_assoc]
      exact startsWith_append _ _
    all_goals simp (disch := simp) only [List.append_assoc, field_skip, length_little, length_locatorSignature, Nat.reduceSub]
    · exact field_little (by decide) _
    · exact field_little (by decide) _
  have hbefore : front.length + (largeEndSize + locatorSize) - locatorSize = front.length + largeEndSize := by omega
  have hstartAt : front.length + (largeEndSize + locatorSize) - locatorSize - largeEndSize = front.length := by omega
  have hdrop : (front ++ (record ++ (locator ++ back))).drop (front.length + largeEndSize) = locator ++ back := by
    rw [← List.drop_drop, List.drop_left]
    exact List.drop_left' hlength
  unfold endingAt
  dsimp only
  rw [hlarge, List.append_assoc, hstartAt, hbefore, hdrop, List.drop_left, hfields.1, hfields.2.1, hfields.2.2, hstart,
    hsizeRead, hoffsetRead, if_neg (by simp; omega), if_neg (by decide), if_neg (by omega), if_pos rfl]

/-- nothing is found before the last record that does not look like a locator -/
theorem endingAt_plain {front : List UInt8} (count : Nat) {size offset : Nat} (hsize : size < wideMark)
    (hoffset : offset < wideMark)
    (hlocator : front.length < locatorSize ∨
      ¬ startsWith locatorSignature ((front ++ endRecord count size offset).drop (front.length - locatorSize)) = true) :
    endingAt (front ++ endRecord count size offset) front.length = .ok ⟨front.length, size, offset⟩ := by
  have hlimit : wideMark < Nat.pow 256 4 := by decide
  have hfields : field (endRecord count size offset) 12 4 = size ∧ field (endRecord count size offset) 16 4 = offset := by
    unfold endRecord
    rw [Nat.min_eq_left (Nat.le_of_lt hsize), Nat.min_eq_left (Nat.le_of_lt hoffset)]
    simp (disch := simp) only [List.append_assoc, field_skip, length_little, length_endSignature, Nat.reduceSub]
    exact ⟨field_little (by omega) _, field_little (by omega) _⟩
  unfold endingAt
  dsimp only
  rw [List.drop_left, hfields.1, hfields.2, if_pos (by simpa using hlocator)]

/-- a directory with entries is longer than a locator -/
theorem eq_nil_of_short {ms : List Member} {offset : Nat} (h : (directoryRecords offset ms).length < locatorSize) : ms = [] := by
  cases ms with
  | nil => rfl
  | cons m rest =>
    have hlength := length_directoryRecord m offset
    rw [directoryRecords, List.length_append] at h
    unfold locatorSize at h
    unfold entrySize at hlength
    omega

/-- where a locator would be is the end of the directory -/
theorem drop_locator (members : List UInt8) {dir : List UInt8} (h : locatorSize ≤ dir.length) (back : List UInt8) :
    (members ++ dir ++ back).drop (members.length + dir.length - locatorSize) =
      dir.drop (dir.length - locatorSize) ++ back := by
  rw [Nat.add_sub_assoc h, List.append_assoc, ← List.drop_drop, List.drop_left]
  exact List.drop_append_of_le_length (Nat.sub_le _ _)

/-- what does not look like a part of an archive does not end like a locator -/
theorem no_locator {ms : List Member} (hwhole : looksSplit ms = false)
    (hsmall : isLargeDirectory ms.length (directoryRecords 0 ms).length (ms.flatMap localRecord).length = false)
    (back : List UInt8) : (ms.flatMap localRecord ++ directoryRecords 0 ms).length < locatorSize ∨
      ¬ startsWith locatorSignature ((ms.flatMap localRecord ++ directoryRecords 0 ms ++ back).drop
        ((ms.flatMap localRecord ++ directoryRecords 0 ms).length - locatorSize)) = true := by
  rcases Nat.lt_or_ge (directoryRecords 0 ms).length locatorSize with hshort | hlong
  · obtain rfl := eq_nil_of_short hshort
    exact Or.inl (by decide)
  · have hroom : locatorSignature.length ≤ ((directoryRecords 0 ms).drop ((directoryRecords 0 ms).length - locatorSize)).length := by
      rw [List.length_drop, length_locatorSignature]
      unfold locatorSize at hlong ⊢
      omega
    unfold looksSplit at hwhole
    dsimp only at hwhole
    rw [hsmall, Bool.not_false, Bool.true_and] at hwhole
    right
    rw [List.length_append, drop_locator _ hlong, startsWith_append_of_le hroom, hwhole]
    exact Bool.false_ne_true

/-- **The last record is read** as it was written, or the records of a large directory before it. -/
theorem endingAt_encode {ms : List Member} (h : Writable ms) : ∃ position, endPosition? (encode ms) = some position ∧
    endingAt (encode ms) position = .ok ⟨(ms.flatMap localRecord).length + (directoryRecords 0 ms).length,
      (directoryRecords 0 ms).length, (ms.flatMap localRecord).length⟩ := by
  have hsize := h.size
  have hlimit : positionLimit < Nat.pow 256 8 := by decide
  unfold encode at hsize ⊢
  dsimp only at hsize ⊢
  rw [List.length_append, List.length_append] at hsize
  unfold ending
  cases hlarge : isLargeDirectory ms.length (directoryRecords 0 ms).length (ms.flatMap localRecord).length with
  | true =>
    have hread := endingAt_large (ms.flatMap localRecord ++ directoryRecords 0 ms) ms.length
      (show (directoryRecords 0 ms).length < Nat.pow 256 8 by omega)
      (show (ms.flatMap localRecord).length < Nat.pow 256 8 by omega)
      (endRecord ms.length (directoryRecords 0 ms).length (ms.flatMap localRecord).length)
    rw [List.length_append, ← List.append_assoc] at hread
    rw [if_pos rfl, ← List.append_assoc, endPosition?_endRecord, List.length_append, List.length_append, length_largeRecords]
    exact ⟨_, rfl, hread⟩
  | false =>
    have hcount := Bool.or_eq_false_iff.1 hlarge
    have hoffset := isWide_eq_false_iff.1 (Bool.or_eq_false_iff.1 hcount.1).2
    have hmark : wideLimit < wideMark := by decide
    have hread := endingAt_plain ms.length (Nat.lt_of_le_of_lt (isWide_eq_false_iff.1 hcount.2) hmark)
      (Nat.lt_of_le_of_lt hoffset hmark) (no_locator h.whole hlarge _)
    rw [List.length_append] at hread
    rw [if_neg Bool.false_ne_true, List.nil_append, endPosition?_endRecord, List.length_append]
    exact ⟨_, rfl, hread⟩

/-- **The directory is found** and read as it was written. -/
theorem directory_encode {ms : List Member} (h : Writable ms) : directory (encode ms) = .ok (listings 0 ms) := by
  obtain ⟨position, hposition, hend⟩ := endingAt_encode h
  have hlimit : positionLimit < Nat.pow 256 8 := by decide
  have hsize := h.size
  obtain ⟨tail, htail⟩ : ∃ tail, encode ms = ms.flatMap localRecord ++ (directoryRecords 0 ms ++ tail) :=
    ⟨_, List.append_assoc _ _ _⟩
  have htake : ((encode ms).drop (ms.flatMap localRecord).length).take (directoryRecords 0 ms).length =
      directoryRecords 0 ms := by
    rw [htail, List.drop_left, List.take_left]
  rw [htail, List.length_append] at hsize
  have hshift : (((ms.flatMap localRecord).length + (directoryRecords 0 ms).length : Nat) : Int) -
      (directoryRecords 0 ms).length - (ms.flatMap localRecord).length = 0 := by omega
  unfold directory
  rw [hposition]
  dsimp only
  rw [hend]
  dsimp only
  rw [if_neg (by omega), Nat.add_sub_cancel, htake, hshift]
  exact readEntries_directoryRecords h.names (by omega)

/-! ## What looks like a part of an archive -/

theorem directoryRecords_append (front back : List Member) (offset : Nat) :
    directoryRecords offset (front ++ back) =
      directoryRecords offset front ++ directoryRecords (offset + (front.flatMap localRecord).length) back := by
  induction front generalizing offset with
  | nil => rfl
  | cons m rest ih =>
    rw [List.cons_append, directoryRecords, directoryRecords, ih, List.flatMap_cons, List.length_append, List.append_assoc,
      Nat.add_assoc]

theorem eq_null_of_zero_mem {c : Char} (h : (0 : UInt8) ∈ String.utf8EncodeChar c) : c = '\x00' := by
  have hbyte : ∀ k, (0 : UInt8) = UInt8.ofNat k ↔ k % 256 = 0 := by
    intro k
    rw [← UInt8.toNat_inj, UInt8.toNat_ofNat', eq_comm]
    rfl
  have hval : c.val.toNat = 0 := by
    unfold String.utf8EncodeChar at h
    dsimp only at h
    split_ifs at h <;> simp only [List.mem_cons, List.not_mem_nil, or_false, hbyte] at h <;> omega
  exact Char.ext (UInt32.toNat_inj.1 hval)

theorem zero_not_mem_nameBytes {name : String} (h : '\x00' ∉ name.toList) : (0 : UInt8) ∉ nameBytes name := by
  rw [nameBytes_eq, List.mem_flatMap]
  rintro ⟨c, hc, hzero⟩
  exact h (eq_null_of_zero_mem hzero ▸ hc)

/-- an entry without extra field from the size of the name on -/
theorem drop_to_sizes (m : Member) {offset : Nat} (h : entryExtra m offset = []) :
    (directoryRecord m offset).drop 28 = little 2 (nameBytes m.name).length ++
      (little 2 0 ++ (little 2 0 ++ (little 2 0 ++ (little 2 0 ++ (little 4 0 ++
        (narrow (isWide offset) offset ++ nameBytes m.name)))))) := by
  unfold directoryRecord description
  rw [h]
  simp (disch := simp) only [List.append_assoc, drop_skip, length_little, length_narrow, length_directorySignature,
    Nat.reduceSub, List.drop_zero, List.append_nil, List.length_nil]

/-- what ends like a locator ends with a name of at least sixteen bytes -/
theorem long_of_locator {m : Member} {offset : Nat} (h : entryExtra m offset = [])
    (hstart : startsWith locatorSignature ((directoryRecord m offset).drop (26 + (nameBytes m.name).length)) = true) :
    16 ≤ (nameBytes m.name).length := by
  have hsizes := drop_to_sizes m h
  obtain ⟨back, hback⟩ := startsWith_iff.1 hstart
  by_contra hshort
  have hlater : (locatorSignature ++ back).drop (2 - (nameBytes m.name).length) =
      ((directoryRecord m offset).drop 28).drop ((nameBytes m.name).length - 2) := by
    rw [hback, List.drop_drop, List.drop_drop]
    congr 1
    omega
  rw [hsizes] at hlater
  generalize (nameBytes m.name).length = n at hshort hlater
  interval_cases n <;> simp [little, locatorSignature] at hlater

/-- a member that is not large and not far behind has no extra field in the directory -/
theorem entryExtra_of_small {m : Member} {offset : Nat} (h : offset + (localRecord m).length ≤ wideLimit) :
    entryExtra m offset = [] := by
  rw [length_localRecord] at h
  have hbytes : m.bytes.length ≤ m.packed.length := length_le_deflate m.bytes
  have hlarge : m.isLarge = false :=
    Bool.or_eq_false_iff.2 ⟨isWide_eq_false_iff.2 (by omega), isWide_eq_false_iff.2 (by omega)⟩
  rw [entryExtra, hlarge, isWide_eq_false_iff.2 (by omega)]
  rfl

/-- what ends like a locator has a part of a name where a locator has the number of a volume, which is then not the first -/
theorem field_of_locator {m : Member} {offset : Nat} (h : entryExtra m offset = []) (hnull : '\x00' ∉ m.name.toList)
    (hstart : startsWith locatorSignature ((directoryRecord m offset).drop (26 + (nameBytes m.name).length)) = true)
    (back : List UInt8) :
    field ((directoryRecord m offset).drop (26 + (nameBytes m.name).length) ++ back) 4 4 ≠ 0 := by
  have hlong := long_of_locator h hstart
  obtain ⟨entry, hentry⟩ : ∃ entry, entry = directoryRecord m offset := ⟨_, rfl⟩
  have hlength := length_directoryRecord m offset
  have hname := drop_directoryRecord m offset []
  rw [h, List.append_nil, List.append_nil, List.append_nil, ← hentry] at hname
  rw [h, ← hentry] at hlength
  rw [← hentry]
  have hbehind : (entry.drop (26 + (nameBytes m.name).length)).drop 4 =
      (nameBytes m.name).drop ((nameBytes m.name).length - 16) := by
    have hlater := congrArg (List.drop ((nameBytes m.name).length - 16)) hname
    rw [List.drop_drop] at hlater
    rw [List.drop_drop, ← hlater]
    congr 1
    unfold entrySize
    omega
  obtain ⟨b, rest, hrest⟩ := List.exists_cons_of_length_pos
    (show 0 < ((nameBytes m.name).drop ((nameBytes m.name).length - 16)).length by rw [List.length_drop]; omega)
  have hb : b ≠ 0 := by
    rintro rfl
    have hmem : (0 : UInt8) ∈ (nameBytes m.name).drop ((nameBytes m.name).length - 16) := hrest ▸ List.mem_cons_self
    exact zero_not_mem_nameBytes hnull (List.mem_of_mem_drop hmem)
  have hpos : b.toNat ≠ 0 := fun hzero => hb (UInt8.toNat_inj.1 hzero)
  have hfour : 4 ≤ (entry.drop (26 + (nameBytes m.name).length)).length := by
    rw [List.length_drop, hlength]
    unfold entrySize
    omega
  rw [field, List.drop_append_of_le_length hfour, hbehind, hrest, List.cons_append, List.take_succ_cons, number]
  omega

theorem field_split {ms : List Member} (h : looksSplit ms = true) (hnull : ∀ m ∈ ms, '\x00' ∉ m.name.toList)
    (back : List UInt8) : locatorSize ≤ (directoryRecords 0 ms).length ∧
      field ((directoryRecords 0 ms).drop ((directoryRecords 0 ms).length - locatorSize) ++ back) 4 4 ≠ 0 := by
  obtain ⟨hsmall, hstart⟩ := Bool.and_eq_true_iff.1 h
  rw [Bool.not_eq_true'] at hsmall
  -- the last entry decides
  rcases List.eq_nil_or_concat ms with rfl | ⟨front, m, rfl⟩
  · cases hstart
  rw [List.concat_eq_append] at *
  have hmembers : ((front ++ [m]).flatMap localRecord).length ≤ wideLimit :=
    isWide_eq_false_iff.1 (Bool.or_eq_false_iff.1 (Bool.or_eq_false_iff.1 hsmall).1).2
  rw [List.flatMap_append, List.flatMap_singleton, List.length_append] at hmembers
  have hextra := entryExtra_of_small hmembers
  obtain ⟨entry, hentry⟩ : ∃ entry, entry = directoryRecord m (front.flatMap localRecord).length := ⟨_, rfl⟩
  have hlength : entry.length = entrySize + (nameBytes m.name).length := by
    rw [hentry, length_directoryRecord, hextra, List.length_nil, Nat.add_zero]
  have hdirectory : directoryRecords 0 (front ++ [m]) = directoryRecords 0 front ++ entry := by
    rw [directoryRecords_append, Nat.zero_add, directoryRecords, directoryRecords, List.append_nil, hentry]
  have hlong : locatorSize ≤ entry.length := by
    rw [hlength]
    exact Nat.le_trans (by decide) (Nat.le_add_right entrySize _)
  have htail : (directoryRecords 0 (front ++ [m])).drop ((directoryRecords 0 (front ++ [m])).length - locatorSize) =
      entry.drop (26 + (nameBytes m.name).length) := by
    have hback : entry.length - locatorSize = 26 + (nameBytes m.name).length := by
      rw [hlength]
      unfold entrySize locatorSize
      omega
    rw [hdirectory, List.length_append, Nat.add_sub_assoc hlong, ← List.drop_drop, List.drop_left, hback]
  rw [htail, hentry] at hstart ⊢
  refine ⟨by rw [hdirectory, List.length_append]; omega, ?_⟩
  exact field_of_locator hextra (hnull m (by simp)) hstart back

/-- why what looks like a part of an archive cannot be read -/
def splitMessage : String := "zipfiles that span multiple disks are not supported"

/-- **What looks like a part of an archive** is not read. -/
theorem directory_split {ms : List Member} (h : looksSplit ms = true) (hnull : ∀ m ∈ ms, '\x00' ∉ m.name.toList) :
    directory (encode ms) = .error splitMessage := by
  obtain ⟨hsmall, hstart⟩ := Bool.and_eq_true_iff.1 h
  rw [Bool.not_eq_true'] at hsmall
  obtain ⟨tail, htail⟩ : ∃ tail, tail = endRecord ms.length (directoryRecords 0 ms).length (ms.flatMap localRecord).length :=
    ⟨_, rfl⟩
  have hbytes : encode ms = ms.flatMap localRecord ++ directoryRecords 0 ms ++ tail := by
    unfold encode ending
    dsimp only
    rw [hsmall, if_neg Bool.false_ne_true, List.nil_append, htail]
  obtain ⟨hlong, hvolume⟩ := field_split h hnull tail
  have hposition : endPosition? (encode ms) = some ((ms.flatMap localRecord).length + (directoryRecords 0 ms).length) := by
    rw [hbytes, htail, endPosition?_endRecord, List.length_append]
  have hlocator : startsWith locatorSignature ((directoryRecords 0 ms).drop ((directoryRecords 0 ms).length - locatorSize) ++
      tail) = true := startsWith_iff.2 ((startsWith_iff.1 hstart).trans (List.prefix_append _ tail))
  have hend : endingAt (encode ms) ((ms.flatMap localRecord).length + (directoryRecords 0 ms).length) =
      .error splitMessage := by
    unfold endingAt
    dsimp only
    rw [hbytes, drop_locator _ hlong, hlocator, if_neg (by simp; omega), if_pos (Or.inl hvolume)]
    rfl
  unfold directory
  rw [hposition]
  dsimp only
  rw [hend]

/-! ## The contents -/

/-- what the archive says of a member behind others -/
theorem mem_listings {ms : List Member} {offset : Nat} {e : Listed} (h : e ∈ listings offset ms) :
    ∃ front m back, ms = front ++ m :: back ∧ e = listed m (offset + (front.flatMap localRecord).length) := by
  induction ms generalizing offset with
  | nil => cases h
  | cons n rest ih =>
    rcases List.mem_cons.1 h with rfl | h
    · exact ⟨[], n, rest, rfl, rfl⟩
    · obtain ⟨front, m, back, rfl, rfl⟩ := ih h
      refine ⟨n :: front, m, back, rfl, ?_⟩
      rw [List.flatMap_cons, List.length_append, Nat.add_assoc]

/-- **A content is found** at the position that the directory gives. -/
theorem content?_localRecord {m : Member} (h : (nameBytes m.name).length < Nat.pow 256 2) (front back : List UInt8) :
    content? (front ++ (localRecord m ++ back)) (listed m front.length) = some m.bytes := by
  obtain ⟨bs, hbs⟩ : ∃ bs, bs = localRecord m ++ back := ⟨_, rfl⟩
  obtain ⟨extra, hextra⟩ : ∃ extra, extra = extraField (m.wideSizes m.mayGrow) := ⟨_, rfl⟩
  have hextraSize : extra.length < Nat.pow 256 2 := by
    rw [hextra]
    exact length_extraField_lt (Nat.le_trans (length_wideSizes_le m m.mayGrow) (by decide))
  have hdrop : (front ++ bs).drop front.length = bs := List.drop_left
  have hlength : ¬ bs.length < headerSize := by
    rw [hbs, List.length_append, length_localRecord]
    unfold headerSize
    omega
  have hstart : startsWith localSignature bs = true := by
    rw [hbs, localRecord]
    simp only [List.append_assoc]
    exact startsWith_append _ _
  have hfields : field bs 26 2 = (nameBytes m.name).length ∧ field bs 28 2 = extra.length := by
    rw [hbs, localRecord, description, ← hextra]
    simp (disch := simp) only [List.append_assoc, field_skip, length_little, length_narrow, length_localSignature,
      Nat.reduceSub]
    exact ⟨field_little h _, field_little hextraSize _⟩
  have hbehind : bs.drop headerSize = nameBytes m.name ++ (extra ++ (m.packed ++ back)) := by
    rw [hbs, localRecord, ← hextra]
    simp only [List.append_assoc]
    rw [← List.append_assoc, ← List.append_assoc]
    exact List.drop_left' (by simp [headerSize])
  have hcontent : (bs.drop (headerSize + (nameBytes m.name).length + extra.length)).take m.packed.length = m.packed := by
    rw [← List.drop_drop, ← List.drop_drop, hbehind, List.drop_left, List.drop_left, List.take_left]
  have hpacked : inflate? (m.packed.length + 1) m.packed = some m.bytes := inflate?_deflate m.bytes
  rw [← hbs]
  unfold content? listed
  simp only [Int.toNat_natCast, hdrop, hfields, hbehind, List.take_left, hcontent, hstart, hlength]
  rw [if_neg (by simp), if_neg (by decide), hpacked]
  dsimp only
  rw [List.take_length, if_pos rfl]

theorem content?_encode {ms : List Member} (h : Writable ms) {front : List Member} {m : Member} {back : List Member}
    (hms : ms = front ++ m :: back) :
    content? (encode ms) (listed m (front.flatMap localRecord).length) = some m.bytes := by
  have hmem : m ∈ ms := hms ▸ List.mem_append_right _ List.mem_cons_self
  have hbytes : ∃ rest, encode ms = front.flatMap localRecord ++ (localRecord m ++ rest) := by
    rw [encode, hms, List.flatMap_append, List.flatMap_cons]
    simp only [List.append_assoc]
    exact ⟨_, rfl⟩
  obtain ⟨rest, hrest⟩ := hbytes
  rw [hrest]
  exact content?_localRecord (h.names m hmem) _ _

/-! ## What is read back -/

theorem map_nameText_listings (ms : List Member) (offset : Nat) :
    (listings offset ms).map Listed.nameText = ms.map Member.name := by
  induction ms generalizing offset with
  | nil => rfl
  | cons m rest ih =>
    rw [listings, List.map_cons, List.map_cons, nameText_listed, ih]

theorem length_listings (ms : List Member) (offset : Nat) : (listings offset ms).length = ms.length := by
  rw [← List.length_map Listed.nameText, map_nameText_listings, List.length_map]

/-- **An archive lists its members** in their order, each with its content. -/
theorem entries?_encode {ms : List Member} (h : Writable ms) :
    entries? (encode ms) = some (ms.map fun m => (m.name, deflateMethod, m.bytes)) := by
  have hentries : ∀ (front back : List Member), ms = front ++ back →
      (listings (front.flatMap localRecord).length back).map
          (fun e => (e.nameText, e.method, (content? (encode ms) e).getD [])) =
        back.map fun m => (m.name, deflateMethod, m.bytes) := by
    intro front back hms
    induction back generalizing front with
    | nil => rfl
    | cons m rest ih =>
      have hnext := ih (front ++ [m]) (by rw [List.append_assoc]; exact hms)
      rw [List.flatMap_append, List.length_append, List.flatMap_singleton] at hnext
      rw [listings, List.map_cons, List.map_cons, nameText_listed, content?_encode h hms, hnext]
      rfl
  unfold entries?
  rw [directory_encode h]
  exact congrArg some (hentries [] ms rfl)

/-- the entry that a name stands for is the only one that carries it -/
theorem named_listings {ms : List Member} (h : Writable ms) {e : Listed} (he : e ∈ listings 0 ms) :
    named (listings 0 ms) e = e := by
  have hnames : (listings 0 ms).map Listed.name = (ms.map Member.name).map nameBytes := by
    rw [← map_nameText_listings ms 0, List.map_map]
    refine List.map_congr_left fun e he => ?_
    obtain ⟨front, m, back, -, rfl⟩ := mem_listings he
    exact congrArg nameBytes (nameText_listed m _).symm
  have hnodup : ((listings 0 ms).map Listed.name).Nodup := by
    rw [hnames]
    exact h.distinct.map fun a b => nameBytes_inj
  unfold named
  cases hfound : (listings 0 ms).reverse.find? fun o => o.name == e.name with
  | none => rfl
  | some o =>
    have hname : o.name = e.name := eq_of_beq (List.find?_some (p := fun o : Listed => o.name == e.name) hfound)
    exact List.inj_on_of_nodup_map hnodup (List.mem_reverse.1 (List.mem_of_find?_eq_some hfound)) he hname

/-- **An archive that was written is found intact.** -/
theorem verify_encode {ms : List Member} (h : Writable ms) (path : Path) : verify path (encode ms) ms.length = .ok () := by
  have hintact : ∀ es, es ⊆ listings 0 ms → firstCorrupt (encode ms) path (listings 0 ms) es = .ok none := by
    intro es hes
    induction es with
    | nil => rfl
    | cons e rest ih =>
      obtain ⟨he, hrest⟩ := List.cons_subset.1 hes
      obtain ⟨front, m, back, hms, rfl⟩ := mem_listings he
      have hcontent := content?_encode h hms
      have hoffset : ¬ (listed m (front.flatMap localRecord).length).offset < 0 := Int.not_lt.2 (Int.natCast_nonneg _)
      rw [firstCorrupt, named_listings h he, Nat.zero_add, if_neg hoffset, hcontent, if_neg (by simp), ih hrest]
  unfold verify
  rw [directory_encode h]
  dsimp only
  rw [hintact _ (List.Subset.refl _)]
  dsimp only
  rw [if_pos (length_listings ms 0)]

/-- **An archive that looks like a part of one** is refused. -/
theorem verify_split {ms : List Member} (h : looksSplit ms = true) (hnull : ∀ m ∈ ms, '\x00' ∉ m.name.toList) (path : Path)
    (expected : Nat) :
    verify path (encode ms) expected = .error (fault ("Generated zip is unreadable: " ++ splitMessage) path) := by
  unfold verify
  rw [directory_split h hnull]

end Classwright.Archive
