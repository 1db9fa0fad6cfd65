/-
JSON text that is written and read again.

Values without fractions are taken back from what is written of them, in every style that has nothing but blanks around its
commas and colons. Lists and objects are read item by item; each reader gets what the writer left, and as much fuel as there is
text. What is written is ASCII.

- `Style.Regular`: the styles; `regular_compact`, `regular_spaced`, `regular_indented`: those that are used;
- `Exact`: values without fractions, whose objects name each member once; `Reads`: a value that is read back;
- `readItems_of_reads`, `readMembers_member`, `readMembers_of_reads`: lists and objects; `reads_of_exact`: every exact value;
- `parse_render`, `ascii_render`: a whole text; `parse_written`: in the styles that are used.
-/
import Classwright.Proofs.JsonTokens
import Classwright.Proofs.Rereading

namespace Classwright.Json

variable {rest : List Char} {fuel : Nat}

/-! ## Separators -/

/-- nothing but blanks -/
def Gap (cs : List Char) : Prop := ∀ c ∈ cs, isSpace c = true

/-- separators with a comma between items, a colon behind a name, and nothing but blanks around them -/
structure Style.Regular (st : Style) : Prop where
  afterOpen : ∀ depth, Gap (st.afterOpen depth).toList
  between : ∀ depth, ∃ gap, (st.between depth).toList = ',' :: gap ∧ Gap gap
  beforeClose : ∀ depth, Gap (st.beforeClose depth).toList
  afterName : ∃ gap, st.afterName.toList = ':' :: gap ∧ Gap gap

theorem isSpace_iff {c : Char} : isSpace c = true ↔ c = ' ' ∨ c = '\t' ∨ c = '\n' ∨ c = '\r' := by
  simp [isSpace, or_assoc]

theorem gap_newLine (depth : Nat) : Gap (newLine depth).toList := by
  intro c hc
  simp only [newLine, String.toList_append, String.toList_ofList, List.mem_append, List.mem_replicate] at hc
  rcases hc with hc | ⟨-, rfl⟩
  · rw [List.mem_singleton.1 hc]
    rfl
  · rfl

theorem gap_nil : Gap [] := nofun

theorem gap_blank : Gap [' '] := by
  intro c hc
  rw [List.mem_singleton.1 hc]
  rfl

theorem regular_compact : compactStyle.Regular :=
  ⟨fun _ => gap_nil, fun _ => ⟨[], by simp [compactStyle], gap_nil⟩, fun _ => gap_nil, [], rfl, gap_nil⟩

theorem regular_spaced : spacedStyle.Regular :=
  ⟨fun _ => gap_nil, fun _ => ⟨[' '], by simp [spacedStyle], gap_blank⟩, fun _ => gap_nil, [' '], rfl, gap_blank⟩

theorem regular_indented : indentedStyle.Regular :=
  ⟨fun depth => gap_newLine (depth + 1), fun depth => ⟨_, String.toList_append, gap_newLine (depth + 1)⟩, gap_newLine,
    [' '], rfl, gap_blank⟩

theorem skipSpace_gap {gap : List Char} (h : Gap gap) (cs : List Char) : skipSpace (gap ++ cs) = skipSpace cs :=
  List.dropWhile_append_of_pos h

theorem skipSpace_cons {c : Char} (h : isSpace c = false) (cs : List Char) : skipSpace (c :: cs) = c :: cs :=
  List.dropWhile_cons_of_neg (by simp [h])

theorem stops_gap {gap cs : List Char} (h : Gap gap) (hcs : Stops cs) : Stops (gap ++ cs) := by
  cases gap with
  | nil => exact hcs
  | cons c rest =>
    refine stops_cons ?_ _
    rcases isSpace_iff.1 (h c List.mem_cons_self) with rfl | rfl | rfl | rfl <;> decide

/-! ## Values -/

mutual

/-- a value without fractions, whose objects name each member once -/
def Exact : Json → Prop
  | .real _ => False
  | .arr items => ItemsExact items
  | .obj members => (members.map Prod.fst).Nodup ∧ MembersExact members
  | _ => True

def ItemsExact : List Json → Prop
  | [] => True
  | x :: xs => Exact x ∧ ItemsExact xs

def MembersExact : List (String × Json) → Prop
  | [] => True
  | (_, v) :: ms => Exact v ∧ MembersExact ms

end

variable {st : Style} {depth : Nat}

/-- what stands behind an item of a list -/
def itemsTail (st : Style) (depth : Nat) (xs : List Json) (rest : List Char) : List Char :=
  (renderItems st depth xs).toList ++ ((st.beforeClose depth).toList ++ ']' :: rest)

theorem itemsTail_cons {gap : List Char} (hgap : (st.between depth).toList = ',' :: gap) (x : Json) (xs : List Json)
    (rest : List Char) : itemsTail st depth (x :: xs) rest =
      ',' :: (gap ++ ((render st (depth + 1) x).toList ++ itemsTail st depth xs rest)) := by
  simp only [itemsTail, renderItems, String.toList_append, hgap, List.cons_append, List.append_assoc]

theorem itemsTail_nil (st : Style) (depth : Nat) (rest : List Char) :
    itemsTail st depth [] rest = (st.beforeClose depth).toList ++ ']' :: rest := by
  simp only [itemsTail, renderItems, String.toList_empty, List.nil_append]

theorem render_arr (st : Style) (depth : Nat) (x : Json) (xs : List Json) (rest : List Char) :
    (render st depth (.arr (x :: xs))).toList ++ rest =
      '[' :: ((st.afterOpen depth).toList ++ ((render st (depth + 1) x).toList ++ itemsTail st depth xs rest)) := by
  simp only [render, itemsTail, String.toList_append, List.append_assoc]
  rfl

/-- a member of an object -/
def memberText (st : Style) (depth : Nat) (m : String × Json) : List Char :=
  (encodeString m.1).toList ++ (st.afterName.toList ++ (render st (depth + 1) m.2).toList)

/-- what stands behind a member of an object -/
def membersTail (st : Style) (depth : Nat) (ms : Members) (rest : List Char) : List Char :=
  (renderMembers st depth ms).toList ++ ((st.beforeClose depth).toList ++ '\x7d' :: rest)

theorem renderMembers_cons (m : String × Json) (ms : Members) : (renderMembers st depth (m :: ms)).toList =
    (st.between depth).toList ++ (memberText st depth m ++ (renderMembers st depth ms).toList) := by
  simp only [renderMembers, memberText, String.toList_append, List.append_assoc]

theorem membersTail_nil (st : Style) (depth : Nat) (rest : List Char) :
    membersTail st depth [] rest = (st.beforeClose depth).toList ++ '\x7d' :: rest := by
  simp only [membersTail, renderMembers, String.toList_empty, List.nil_append]

theorem membersTail_cons {gap : List Char} (hgap : (st.between depth).toList = ',' :: gap) (m : String × Json) (ms : Members)
    (rest : List Char) : membersTail st depth (m :: ms) rest =
      ',' :: (gap ++ (memberText st depth m ++ membersTail st depth ms rest)) := by
  simp only [membersTail, renderMembers_cons, hgap, List.cons_append, List.append_assoc]

theorem render_obj (st : Style) (depth : Nat) (m : String × Json) (ms : Members) (rest : List Char) :
    (render st depth (.obj (m :: ms))).toList ++ rest =
      '\x7b' :: ((st.afterOpen depth).toList ++ (memberText st depth m ++ membersTail st depth ms rest)) := by
  simp only [render, memberText, membersTail, String.toList_append, List.append_assoc]
  rfl

/-- what begins a number begins nothing else -/
theorem ne_of_number {c : Char} (h : c.isDigit = true ∨ c = '-') :
    ∀ d ∈ [' ', '\t', '\n', '\r', ']', '\uFEFF', '"', '[', '\x7b'], c ≠ d := by
  rintro d hd rfl
  have hall : [' ', '\t', '\n', '\r', ']', '\uFEFF', '"', '[', '\x7b'].all (fun d => !d.isDigit && d != '-') = true := by decide
  have hc := List.all_eq_true.1 hall c hd
  rcases h with h | rfl
  · simp [h] at hc
  · cases hc

/-- a value begins with a character that neither is a blank nor ends a list -/
theorem exists_render (st : Style) (depth : Nat) {j : Json} (h : Exact j) :
    ∃ c cs, (render st depth j).toList = c :: cs ∧ isSpace c = false ∧ c ≠ ']' ∧ c ≠ '\uFEFF' := by
  cases j with
  | null => exact ⟨'n', ['u', 'l', 'l'], by simp [render], by decide⟩
  | bool b =>
    cases b with
    | false => exact ⟨'f', ['a', 'l', 's', 'e'], by simp [render], by decide⟩
    | true => exact ⟨'t', ['r', 'u', 'e'], by simp [render], by decide⟩
  | int n =>
    obtain ⟨c, cs, hcs, hc⟩ := exists_intRepr n
    have hother := ne_of_number hc
    have hblank : isSpace c = false := by
      rw [Bool.eq_false_iff]
      intro hspace
      rcases isSpace_iff.1 hspace with heq | heq | heq | heq <;> exact hother _ (by decide) heq
    exact ⟨c, cs, by simpa only [render] using hcs, hblank, hother _ (by decide), hother _ (by decide)⟩
  | real x => exact h.elim
  | str s => exact ⟨'"', _, String.toList_ofList, by decide⟩
  | arr items =>
    cases items with
    | nil => exact ⟨'[', [']'], by simp [render], by decide⟩
    | cons x xs =>
      exact ⟨'[', _, (List.append_nil _).symm.trans (render_arr st depth x xs []), by decide⟩
  | obj members =>
    cases members with
    | nil => exact ⟨'\x7b', ['\x7d'], by simp [render], by decide⟩
    | cons m ms =>
      exact ⟨'\x7b', _, (List.append_nil _).symm.trans (render_obj st depth m ms []), by decide⟩

/-- a value is read back, whatever stands behind it that cannot continue it -/
def Reads (st : Style) (j : Json) : Prop :=
  ∀ depth fuel rest, Stops rest → (render st depth j).toList.length ≤ fuel →
    readValue fuel ((render st depth j).toList ++ rest) = .ok (j, rest)

theorem stops_itemsTail (hst : st.Regular) (depth : Nat) (xs : List Json) (rest : List Char) :
    Stops (itemsTail st depth xs rest) := by
  cases xs with
  | nil =>
    rw [itemsTail_nil]
    exact stops_gap (hst.beforeClose depth) (stops_cons (by decide) rest)
  | cons x xs =>
    obtain ⟨gap, hbetween, -⟩ := hst.between depth
    rw [itemsTail_cons hbetween]
    exact stops_cons (by decide) _

/-- **Lists.** Items that are read back make a list that is. -/
theorem readItems_of_reads (hst : st.Regular) {x : Json} {xs : List Json} (hreads : ∀ y ∈ x :: xs, Exact y ∧ Reads st y)
    (hfuel : (render st (depth + 1) x).toList.length + (renderItems st depth xs).toList.length < fuel) :
    readItems fuel ((render st (depth + 1) x).toList ++ itemsTail st depth xs rest) = .ok (x :: xs, rest) := by
  induction xs generalizing x fuel with
  | nil =>
    obtain ⟨fuel, rfl⟩ := Nat.exists_eq_succ_of_ne_zero (show fuel ≠ 0 by omega)
    have hx := (hreads x List.mem_cons_self).2 (depth + 1) fuel _ (stops_itemsTail hst depth [] rest) (by omega)
    rw [itemsTail_nil] at hx ⊢
    rw [readItems, hx]
    simp only [bind, Except.bind, skipSpace_gap (hst.beforeClose depth)]
    rfl
  | cons y ys ih =>
    rw [List.forall_mem_cons] at hreads
    obtain ⟨gap, hbetween, hgap⟩ := hst.between depth
    obtain ⟨c, cs, hhead, hblank, -⟩ := exists_render st (depth + 1) (hreads.2 y List.mem_cons_self).1
    obtain ⟨fuel, rfl⟩ := Nat.exists_eq_succ_of_ne_zero (show fuel ≠ 0 by omega)
    have hx := hreads.1.2 (depth + 1) fuel _ (stops_itemsTail hst depth (y :: ys) rest) (by omega)
    have hrest : readItems fuel ((render st (depth + 1) y).toList ++ itemsTail st depth ys rest) = .ok (y :: ys, rest) := by
      simp only [renderItems, String.toList_append, hbetween, List.length_append, List.length_cons] at hfuel
      exact ih hreads.2 (by omega)
    rw [itemsTail_cons hbetween] at hx ⊢
    rw [readItems, hx]
    show (readItems fuel (skipSpace (gap ++ ((render st (depth + 1) y).toList ++ itemsTail st depth ys rest))) >>= fun p =>
      pure (x :: p.1, p.2)) = _
    rw [skipSpace_gap hgap, hhead, List.cons_append, skipSpace_cons hblank, ← List.cons_append, ← hhead, hrest]
    rfl

theorem stops_membersTail (hst : st.Regular) (depth : Nat) (ms : Members) (rest : List Char) :
    Stops (membersTail st depth ms rest) := by
  cases ms with
  | nil =>
    rw [membersTail_nil]
    exact stops_gap (hst.beforeClose depth) (stops_cons (by decide) rest)
  | cons m ms =>
    obtain ⟨gap, hbetween, -⟩ := hst.between depth
    rw [membersTail_cons hbetween]
    exact stops_cons (by decide) _

/-- one member is read and added, then what stands behind it decides -/
theorem readMembers_member (hst : st.Regular) {done : Members} {m : String × Json} {tail : List Char}
    (hm : Exact m.2 ∧ Reads st m.2) (htail : Stops tail) (hfuel : (memberText st depth m).length ≤ fuel) :
    readMembers (fuel + 1) done (memberText st depth m ++ tail) =
      match skipSpace tail with
      | '\x7d' :: left => .ok (done.set m.1 m.2, left)
      | ',' :: more => readMembers fuel (done.set m.1 m.2) (skipSpace more)
      | other => .error ⟨.comma, other⟩ := by
  obtain ⟨name, value⟩ := m
  obtain ⟨gap, hname, hgap⟩ := hst.afterName
  obtain ⟨c, cs, hhead, hblank, -⟩ := exists_render st (depth + 1) hm.1
  have hlength := length_le_escaped name.toList
  have htext : memberText st depth (name, value) ++ tail = '"' :: (name.toList.flatMap escapeChar ++
      '"' :: ':' :: (gap ++ ((render st (depth + 1) value).toList ++ tail))) := by
    simp only [memberText, toList_encodeString, hname, List.cons_append, List.append_assoc, List.nil_append]
  simp only [memberText, toList_encodeString, hname, List.length_append, List.length_cons, List.length_nil] at hfuel
  have hvalue : readValue fuel ((render st (depth + 1) value).toList ++ tail) = .ok (value, tail) :=
    hm.2 (depth + 1) fuel tail htail (by dsimp only; omega)
  have hblanks : skipSpace (gap ++ ((render st (depth + 1) value).toList ++ tail)) =
      (render st (depth + 1) value).toList ++ tail := by
    rw [skipSpace_gap hgap, hhead, List.cons_append, skipSpace_cons hblank]
  rw [htext, readMembers, readString_escaped name.toList (by omega)]
  show (readValue fuel (skipSpace (gap ++ ((render st (depth + 1) value).toList ++ tail))) >>= fun p =>
    match skipSpace p.2 with
    | '\x7d' :: left => .ok (done.set (String.ofList name.toList) p.1, left)
    | ',' :: more => readMembers fuel (done.set (String.ofList name.toList) p.1) (skipSpace more)
    | other => .error ⟨.comma, other⟩) = _
  rw [hblanks, hvalue, String.ofList_toList]
  rfl

theorem set_of_nodup {done ms : Members} {m : String × Json} (h : ((done ++ m :: ms).map Prod.fst).Nodup) :
    done.set m.1 m.2 = done ++ [m] := by
  rw [List.map_append, List.nodup_append] at h
  exact Members.set_of_not_mem fun hmem => h.2.2 _ hmem _ List.mem_cons_self rfl

/-- **Objects.** Members that are read back, each name once, make an object that is. -/
theorem readMembers_of_reads (hst : st.Regular) {done : Members} {m : String × Json} {ms : Members}
    (hreads : ∀ p ∈ m :: ms, Exact p.2 ∧ Reads st p.2) (hnames : ((done ++ m :: ms).map Prod.fst).Nodup)
    (hfuel : (memberText st depth m).length + (renderMembers st depth ms).toList.length < fuel) :
    readMembers fuel done (memberText st depth m ++ membersTail st depth ms rest) = .ok (done ++ m :: ms, rest) := by
  induction ms generalizing m done fuel with
  | nil =>
    obtain ⟨fuel, rfl⟩ := Nat.exists_eq_succ_of_ne_zero (show fuel ≠ 0 by omega)
    rw [readMembers_member hst (hreads m List.mem_cons_self) (stops_membersTail hst depth [] rest) (by omega),
      set_of_nodup hnames, membersTail_nil, skipSpace_gap (hst.beforeClose depth), skipSpace_cons (by decide)]
    rfl
  | cons p ps ih =>
    obtain ⟨gap, hbetween, hgap⟩ := hst.between depth
    obtain ⟨fuel, rfl⟩ := Nat.exists_eq_succ_of_ne_zero (show fuel ≠ 0 by omega)
    rw [renderMembers_cons, hbetween] at hfuel
    simp only [List.length_append, List.length_cons] at hfuel
    have hsplit : done ++ m :: p :: ps = (done ++ [m]) ++ p :: ps := by rw [List.append_assoc, List.singleton_append]
    -- a name begins with its quote, so no blank is skipped in it
    have hblanks : skipSpace (gap ++ (memberText st depth p ++ membersTail st depth ps rest)) =
        memberText st depth p ++ membersTail st depth ps rest := by
      rw [skipSpace_gap hgap, memberText, toList_encodeString, List.cons_append, List.cons_append, skipSpace_cons (by decide)]
    rw [readMembers_member hst (hreads m List.mem_cons_self) (stops_membersTail hst depth (p :: ps) rest) (by omega),
      set_of_nodup hnames, membersTail_cons hbetween, skipSpace_cons (by decide)]
    show readMembers fuel (done ++ [m]) (skipSpace (gap ++ (memberText st depth p ++ membersTail st depth ps rest))) = _
    rw [hblanks, hsplit]
    exact ih (List.forall_mem_cons.1 hreads).2 (hsplit ▸ hnames) (by omega)

/-- a value that is neither a string nor a list nor an object is read as a word or a number -/
theorem readValue_scalar {c : Char} (hc : c ≠ '"' ∧ c ≠ '[' ∧ c ≠ '\x7b') (cs : List Char) (hfuel : 0 < fuel) :
    readValue fuel (c :: cs) = match scalar? (c :: cs) with
      | some r => .ok r
      | none => .error ⟨.value, c :: cs⟩ := by
  obtain ⟨fuel, rfl⟩ := Nat.exists_eq_succ_of_ne_zero (show fuel ≠ 0 by omega)
  rw [readValue.eq_def]
  dsimp only
  split
  · next heq => exact absurd (List.cons.inj heq).1 hc.1
  · next heq => exact absurd (List.cons.inj heq).1 hc.2.2
  · next heq => exact absurd (List.cons.inj heq).1 hc.2.1
  · rfl

theorem reads_null (st : Style) : Reads st .null := by
  intro depth fuel rest hrest hfuel
  simp only [render] at hfuel ⊢
  exact readValue_scalar (by decide) _ (Nat.lt_of_lt_of_le (by decide) hfuel)

theorem reads_bool (st : Style) (b : Bool) : Reads st (.bool b) := by
  intro depth fuel rest hrest hfuel
  cases b with
  | false =>
    simp only [render] at hfuel ⊢
    exact readValue_scalar (by decide) _ (Nat.lt_of_lt_of_le (by decide) hfuel)
  | true =>
    simp only [render] at hfuel ⊢
    exact readValue_scalar (by decide) _ (Nat.lt_of_lt_of_le (by decide) hfuel)

theorem reads_int (st : Style) (n : Int) : Reads st (.int n) := by
  intro depth fuel rest hrest hfuel
  have hscalar := scalar?_repr n hrest
  obtain ⟨c, cs, hcs, hc⟩ := exists_intRepr n
  have hother := ne_of_number hc
  simp only [render] at hfuel ⊢
  rw [hcs] at hscalar hfuel ⊢
  rw [List.cons_append] at hscalar ⊢
  rw [List.length_cons] at hfuel
  have hvalue : c ≠ '"' ∧ c ≠ '[' ∧ c ≠ '\x7b' := ⟨hother _ (by decide), hother _ (by decide), hother _ (by decide)⟩
  rw [readValue_scalar hvalue _ (by omega), hscalar]

theorem reads_str (st : Style) (s : String) : Reads st (.str s) := by
  intro depth fuel rest hrest hfuel
  simp only [render, toList_encodeString, List.length_cons, List.length_append] at hfuel ⊢
  have hlength := length_le_escaped s.toList
  obtain ⟨fuel, rfl⟩ := Nat.exists_eq_succ_of_ne_zero (show fuel ≠ 0 by omega)
  rw [List.cons_append, List.append_assoc, readValue, List.singleton_append, readString_escaped s.toList (by omega)]
  simp only [bind, Except.bind, String.ofList_toList]
  rfl

theorem reads_arr (hst : st.Regular) {items : List Json} (hreads : ∀ y ∈ items, Exact y ∧ Reads st y) :
    Reads st (.arr items) := by
  intro depth fuel rest hrest hfuel
  cases items with
  | nil =>
    simp only [render] at hfuel ⊢
    obtain ⟨fuel, rfl⟩ := Nat.exists_eq_succ_of_ne_zero (show fuel ≠ 0 by rintro rfl; cases hfuel)
    rfl
  | cons x xs =>
    have hlength := congrArg List.length (render_arr st depth x xs rest)
    simp only [itemsTail, List.length_append, List.length_cons] at hlength
    obtain ⟨fuel, rfl⟩ := Nat.exists_eq_succ_of_ne_zero (show fuel ≠ 0 by omega)
    obtain ⟨c, cs, hhead, hblank, hclose, -⟩ := exists_render st (depth + 1) (hreads x List.mem_cons_self).1
    have hblanks : skipSpace ((st.afterOpen depth).toList ++ ((render st (depth + 1) x).toList ++ itemsTail st depth xs rest)) =
        (render st (depth + 1) x).toList ++ itemsTail st depth xs rest := by
      rw [skipSpace_gap (hst.afterOpen depth), hhead, List.cons_append, skipSpace_cons hblank]
    have hitems := @readItems_of_reads rest fuel st depth hst x xs hreads (by omega)
    rw [render_arr, readValue, hblanks]
    split
    · next heq =>
      rw [hhead, List.cons_append] at heq
      exact absurd (List.cons.inj heq).1 hclose
    · rw [hitems]
      rfl

theorem reads_obj (hst : st.Regular) {members : Members} (hreads : ∀ m ∈ members, Exact m.2 ∧ Reads st m.2)
    (hnames : (members.map Prod.fst).Nodup) : Reads st (.obj members) := by
  intro depth fuel rest hrest hfuel
  cases members with
  | nil =>
    simp only [render] at hfuel ⊢
    obtain ⟨fuel, rfl⟩ := Nat.exists_eq_succ_of_ne_zero (show fuel ≠ 0 by rintro rfl; cases hfuel)
    rfl
  | cons m ms =>
    have hlength := congrArg List.length (render_obj st depth m ms rest)
    simp only [membersTail, List.length_append, List.length_cons] at hlength
    obtain ⟨fuel, rfl⟩ := Nat.exists_eq_succ_of_ne_zero (show fuel ≠ 0 by omega)
    have hblanks : skipSpace ((st.afterOpen depth).toList ++ (memberText st depth m ++ membersTail st depth ms rest)) =
        memberText st depth m ++ membersTail st depth ms rest := by
      rw [skipSpace_gap (hst.afterOpen depth), memberText, toList_encodeString, List.cons_append, List.cons_append,
        skipSpace_cons (by decide)]
    have hmembers := @readMembers_of_reads rest fuel st depth hst [] m ms hreads hnames (by omega)
    rw [render_obj, readValue, hblanks]
    split
    · next heq =>
      rw [memberText, toList_encodeString] at heq
      exact absurd (List.cons.inj heq).1 (by decide)
    · rw [hmembers]
      rfl

mutual

/-- **A value is read back** from what is written of it, whatever stands behind. -/
theorem reads_of_exact (hst : st.Regular) : ∀ {j : Json}, Exact j → Reads st j
  | .null, _ => reads_null st
  | .bool b, _ => reads_bool st b
  | .int n, _ => reads_int st n
  | .real _, h => h.elim
  | .str s, _ => reads_str st s
  | .arr _, h => reads_arr hst (reads_of_itemsExact hst h)
  | .obj _, h => reads_obj hst (reads_of_membersExact hst h.2) h.1

theorem reads_of_itemsExact (hst : st.Regular) : ∀ {xs : List Json}, ItemsExact xs → ∀ y ∈ xs, Exact y ∧ Reads st y
  | [], _ => List.forall_mem_nil _
  | _ :: _, h => List.forall_mem_cons.2 ⟨⟨h.1, reads_of_exact hst h.1⟩, reads_of_itemsExact hst h.2⟩

theorem reads_of_membersExact (hst : st.Regular) : ∀ {ms : Members}, MembersExact ms → ∀ m ∈ ms, Exact m.2 ∧ Reads st m.2
  | [], _ => List.forall_mem_nil _
  | (_, _) :: _, h => List.forall_mem_cons.2 ⟨⟨h.1, reads_of_exact hst h.1⟩, reads_of_membersExact hst h.2⟩

end

/-- **A text is read back**: what is written of a value, in any regular style, parses as that value. -/
theorem parse_render (hst : st.Regular) {j : Json} (h : Exact j) : parse (render st 0 j) = .ok j := by
  obtain ⟨c, cs, hhead, hblank, -, hmark⟩ := exists_render st 0 h
  have hread := reads_of_exact hst h 0 (2 * (render st 0 j).toList.length + 2) [] stops_nil (by omega)
  rw [List.append_nil, hhead] at hread
  unfold parse parseChars
  rw [hhead]
  split
  · next heq => exact absurd (List.cons.inj heq).1 hmark
  · rw [skipSpace_cons hblank, hread]
    rfl

/-- **What is written is read again**, in each of the styles that are used. -/
theorem parse_written {j : Json} (h : Exact j) :
    parse (compact j) = .ok j ∧ parse (spaced j) = .ok j ∧ parse (indented j) = .ok j :=
  ⟨parse_render regular_compact h, parse_render regular_spaced h, parse_render regular_indented h⟩

/-! ## ASCII -/

/-- nothing but ASCII -/
def Ascii (cs : List Char) : Prop := ∀ c ∈ cs, c.toNat < 128

instance (cs : List Char) : Decidable (Ascii cs) := List.decidableBAll (fun c : Char => c.toNat < 128) cs

theorem Ascii.append {cs ds : List Char} (hcs : Ascii cs) (hds : Ascii ds) : Ascii (cs ++ ds) :=
  fun c hc => (List.mem_append.1 hc).elim (hcs c) (hds c)

theorem Ascii.cons {c : Char} {cs : List Char} (hc : c.toNat < 128) (hcs : Ascii cs) : Ascii (c :: cs) :=
  List.forall_mem_cons.2 ⟨hc, hcs⟩

theorem Gap.ascii {gap : List Char} (h : Gap gap) : Ascii gap := by
  intro c hc
  rcases isSpace_iff.1 (h c hc) with rfl | rfl | rfl | rfl <;> decide

theorem ascii_hexDigits (width n : Nat) : Ascii (Text.hexDigits width n) := by
  induction width generalizing n with
  | zero => exact nofun
  | succ width ih =>
    have hall : ∀ k, k < 16 → (if k < 10 then Char.ofNat (48 + k) else Char.ofNat (87 + k)).toNat < 128 := by decide
    exact (ih (n / 16)).append (.cons (hall (n % 16) (Nat.mod_lt n (by omega))) nofun)

theorem ascii_unitEscape (n : Nat) : Ascii (unitEscape n) :=
  .cons (by decide) (.cons (by decide) (ascii_hexDigits 4 n))

theorem ascii_escapeChar (c : Char) : Ascii (escapeChar c) := by
  unfold escapeChar
  split_ifs with h₁ h₂ h₃ h₄ h₅ h₆ h₇ hplain
  · decide
  · decide
  · decide
  · decide
  · decide
  · decide
  · decide
  · exact .cons (by omega) nofun
  · exact ascii_unitEscape _
  · exact (ascii_unitEscape _).append (ascii_unitEscape _)

theorem ascii_encodeString (s : String) : Ascii (encodeString s).toList := by
  rw [toList_encodeString]
  refine .cons (by decide) (Ascii.append ?_ (by decide))
  intro c hc
  obtain ⟨x, -, hx⟩ := List.mem_flatMap.1 hc
  exact ascii_escapeChar x c hx

theorem ascii_int (n : Int) : Ascii (Int.repr n).toList := by
  have hnat : ∀ k : Nat, Ascii (Nat.repr k).toList := by
    intro k c hc
    have hdigit := isDigit_of_mem_repr hc
    simp only [Char.isDigit, Bool.and_eq_true, decide_eq_true_eq] at hdigit
    exact Nat.lt_of_le_of_lt hdigit.2 (by decide)
  cases n with
  | ofNat k => exact hnat k
  | negSucc k =>
    show Ascii ("-" ++ Nat.repr (k + 1)).toList
    rw [String.toList_append]
    exact .cons (by decide) (hnat (k + 1))

theorem Style.Regular.ascii_between (hst : st.Regular) (depth : Nat) : Ascii (st.between depth).toList := by
  obtain ⟨gap, hbetween, hgap⟩ := hst.between depth
  rw [hbetween]
  exact .cons (by decide) hgap.ascii

theorem ascii_memberText (hst : st.Regular) {m : String × Json} (h : Ascii (render st (depth + 1) m.2).toList) :
    Ascii (memberText st depth m) := by
  obtain ⟨gap, hname, hgap⟩ := hst.afterName
  rw [memberText, hname]
  exact (ascii_encodeString m.1).append (.cons (by decide) (hgap.ascii.append h))

mutual

/-- **What is written is ASCII.** -/
theorem ascii_render (hst : st.Regular) : ∀ (depth : Nat) {j : Json}, Exact j → Ascii (render st depth j).toList
  | _, .null, _ => by simp only [render]; decide
  | _, .bool false, _ => by simp only [render]; decide
  | _, .bool true, _ => by simp only [render]; decide
  | _, .int n, _ => by simpa only [render] using ascii_int n
  | _, .real _, h => h.elim
  | _, .str s, _ => by simpa only [render] using ascii_encodeString s
  | _, .arr [], _ => by simp only [render]; decide
  | depth, .arr (x :: xs), h => by
    have hitems : Ascii (itemsTail st depth xs []) := (ascii_renderItems hst depth h.2).append
      ((hst.beforeClose depth).ascii.append (by decide))
    rw [← List.append_nil (render st depth _).toList, render_arr]
    exact .cons (by decide) ((hst.afterOpen depth).ascii.append ((ascii_render hst (depth + 1) h.1).append hitems))
  | _, .obj [], _ => by simp only [render]; decide
  | depth, .obj (m :: ms), h => by
    have hmembers : Ascii (membersTail st depth ms []) := (ascii_renderMembers hst depth h.2.2).append
      ((hst.beforeClose depth).ascii.append (by decide))
    rw [← List.append_nil (render st depth _).toList, render_obj]
    exact .cons (by decide) ((hst.afterOpen depth).ascii.append
      ((ascii_memberText hst (ascii_render hst (depth + 1) h.2.1)).append hmembers))

theorem ascii_renderItems (hst : st.Regular) : ∀ (depth : Nat) {xs : List Json}, ItemsExact xs →
    Ascii (renderItems st depth xs).toList
  | _, [], _ => by simp only [renderItems]; decide
  | depth, x :: xs, h => by
    simp only [renderItems, String.toList_append]
    exact ((hst.ascii_between depth).append (ascii_render hst (depth + 1) h.1)).append (ascii_renderItems hst depth h.2)

theorem ascii_renderMembers (hst : st.Regular) : ∀ (depth : Nat) {ms : Members}, MembersExact ms →
    Ascii (renderMembers st depth ms).toList
  | _, [], _ => by simp only [renderMembers]; decide
  | depth, m :: ms, h => by
    rw [renderMembers_cons]
    exact (hst.ascii_between depth).append
      ((ascii_memberText hst (ascii_render hst (depth + 1) h.1)).append (ascii_renderMembers hst depth h.2))

end

end Classwright.Json
