/-
Patterns that begin with any text.

A text is written before a fixed ending of a pattern, so whether it stands for itself depends on its characters: a star, a
question mark and a bracket that is closed stand for something else. Without them the pattern fits exactly the names that
begin with the text; with one of them it fits another name, or not even the text itself.

- `Glob.covers_star`, `covers_cons`: what covers a name, piece by piece;
- `Glob.Literal`: texts without special characters; `Glob.Steady`: texts of which every character is a piece;
- `readPieces_steady`, `exists_front`: the pieces of a pattern with such a text, and how many others have;
- `fits_literal`: the names that fit a literal text; `Tells`, `exists_tells`: a name by which another text is told.
-/
import Mathlib.Data.List.Basic
import Classwright.Glob

namespace Classwright.Glob

variable {p : Piece} {ps : List Piece} {c : Char} {cs ds : List Char}

/-! ## Covering -/

theorem covers_star_nil : covers (.star :: ps) [] = covers ps [] := by rw [covers]

theorem covers_star_cons : covers (.star :: ps) (c :: cs) = (covers ps (c :: cs) || covers (.star :: ps) cs) := by rw [covers]

theorem covers_cons (h : p ≠ .star) : covers (p :: ps) (c :: cs) = (p.accepts c && covers ps cs) := by
  rw [covers]
  exact h

theorem covers_nil (h : p ≠ .star) : covers (p :: ps) [] = false := by
  rw [covers]
  exact h

/-- a star may stand for nothing -/
theorem covers_star (h : covers ps cs = true) : covers (.star :: ps) cs = true := by
  cases cs with
  | nil => rw [covers_star_nil, h]
  | cons c cs => rw [covers_star_cons, h, Bool.true_or]

theorem covers_rest (cs : List Char) : covers [.star] cs = true := by
  induction cs with
  | nil => rw [covers_star_nil, covers]; rfl
  | cons c cs ih => rw [covers_star_cons, ih, Bool.or_true]

/-- **Stars that stand for nothing.** Of a name that is covered, the characters that are covered by other pieces than stars
make a name that is covered, too. -/
theorem exists_sublist (ps : List Piece) (cs : List Char) (h : covers ps cs = true) :
    ∃ ds, ds.Sublist cs ∧ ds.length = ps.countP (· ≠ .star) ∧ covers ps ds = true := by
  induction ps, cs using covers.induct with
  | case1 cs => exact ⟨[], List.nil_sublist cs, rfl, by rw [covers]; rfl⟩
  | case2 ps ih =>
    obtain ⟨ds, hds, hlength, hcovers⟩ := ih (by rwa [covers_star_nil] at h)
    exact ⟨ds, hds, by rw [hlength, List.countP_cons_of_neg (by simp)], covers_star hcovers⟩
  | case3 ps c cs ihhere ihlater =>
    rw [covers_star_cons, Bool.or_eq_true] at h
    rcases h with hhere | hlater
    · obtain ⟨ds, hds, hlength, hcovers⟩ := ihhere hhere
      exact ⟨ds, hds, by rw [hlength, List.countP_cons_of_neg (by simp)], covers_star hcovers⟩
    · obtain ⟨ds, hds, hlength, hcovers⟩ := ihlater hlater
      exact ⟨ds, hds.cons c, hlength, hcovers⟩
  | case4 p ps hp => rw [covers_nil hp] at h; cases h
  | case5 p ps c cs hp ih =>
    rw [covers_cons hp, Bool.and_eq_true] at h
    obtain ⟨ds, hds, hlength, hcovers⟩ := ih h.2
    refine ⟨c :: ds, hds.cons_cons c, ?_, by rw [covers_cons hp, h.1, hcovers]; rfl⟩
    rw [List.length_cons, hlength, List.countP_cons_of_pos (by simpa using hp)]

theorem mem_of_covers (ps : List Piece) (cs : List Char) (h : covers ps cs = true) (hmem : .char c ∈ ps) : c ∈ cs := by
  induction ps, cs using covers.induct with
  | case1 cs => cases hmem
  | case2 ps ih => exact ih (by rwa [covers_star_nil] at h) (by simpa using hmem)
  | case3 ps d cs ihhere ihlater =>
    rw [covers_star_cons, Bool.or_eq_true] at h
    rcases h with hhere | hlater
    · exact ihhere hhere (by simpa using hmem)
    · exact List.mem_cons_of_mem d (ihlater hlater hmem)
  | case4 p ps hp => rw [covers_nil hp] at h; cases h
  | case5 p ps d cs hp ih =>
    rw [covers_cons hp, Bool.and_eq_true] at h
    rcases List.mem_cons.1 hmem with rfl | hmem
    · exact List.mem_cons.2 (Or.inl (beq_iff_eq.1 h.1).symm)
    · exact List.mem_cons_of_mem d (ih h.2 hmem)

/-! ## Sets that are closed -/

/-- where the first character of a set can be a closing bracket -/
def setStart (cs : List Char) : Nat :=
  let start := if cs.head? = some '!' then 1 else 0
  if (cs.drop start).head? = some ']' then start + 1 else start

theorem setLength?_eq (cs : List Char) : setLength? cs =
    if setStart cs + ((cs.drop (setStart cs)).takeWhile (· != ']')).length < cs.length then
      some (setStart cs + ((cs.drop (setStart cs)).takeWhile (· != ']')).length) else none := rfl

theorem setStart_le (cs : List Char) : setStart cs ≤ cs.length := by
  unfold setStart
  rcases cs with _ | ⟨c, _ | ⟨d, rest⟩⟩
  · simp
  · by_cases hc : c = '!' <;> simp [hc]
    split_ifs <;> omega
  · by_cases hc : c = '!' <;> simp [hc] <;> split_ifs <;> omega

/-- the fixed end of a pattern -/
def ending : List Char := ['-', '*']

theorem setStart_append (cs : List Char) : setStart (cs ++ ending) = setStart cs := by
  unfold setStart ending
  rcases cs with _ | ⟨c, _ | ⟨d, rest⟩⟩
  · simp
  · by_cases hc : c = '!' <;> simp [hc]
  · by_cases hc : c = '!' <;> simp [hc]

/-- a bracket is closed by a bracket of the text before the ending, or not at all -/
theorem setLength?_append (cs : List Char) : setLength? (cs ++ ending) = setLength? cs := by
  have hstart := setStart_le cs
  have hending : ending.takeWhile (· != ']') = ending := by decide
  have hlength : (cs.drop (setStart cs)).length = cs.length - setStart cs := List.length_drop
  have hle := (List.takeWhile_sublist (l := cs.drop (setStart cs)) (· != ']')).length_le
  rw [setLength?_eq, setLength?_eq, setStart_append, List.drop_append_of_le_length hstart, List.takeWhile_append]
  by_cases hfull : ((cs.drop (setStart cs)).takeWhile (· != ']')).length = (cs.drop (setStart cs)).length
  · rw [if_pos hfull, hending, if_neg, if_neg]
    · omega
    · simp only [List.length_append]
      omega
  · rw [if_neg hfull, if_pos, if_pos]
    · omega
    · simp only [List.length_append]
      omega

theorem setLength?_lt {n : Nat} (h : setLength? cs = some n) : n < cs.length := by
  rw [setLength?_eq] at h
  split_ifs at h with hlt
  cases h
  exact hlt

/-! ## Special characters -/

/-- a text of which every character is a piece of its own: no star is in it and no bracket is closed -/
def Steady : List Char → Prop
  | [] => True
  | c :: cs => c ≠ '*' ∧ (c = '[' → setLength? cs = none) ∧ Steady cs

/-- a text without special characters -/
def Literal (cs : List Char) : Prop := Steady cs ∧ '?' ∉ cs

instance decidableSteady : (cs : List Char) → Decidable (Steady cs)
  | [] => isTrue trivial
  | c :: cs =>
    have : Decidable (Steady cs) := decidableSteady cs
    inferInstanceAs (Decidable (c ≠ '*' ∧ (c = '[' → setLength? cs = none) ∧ Steady cs))

instance (cs : List Char) : Decidable (Literal cs) := inferInstanceAs (Decidable (_ ∧ _))

/-- the piece for a character of a steady text -/
def single (c : Char) : Piece := if c = '?' then .any else .char c

theorem readPieces_ending {fuel : Nat} (h : 2 ≤ fuel) : readPieces fuel ending = [.char '-', .star] := by
  obtain ⟨more, rfl⟩ := Nat.exists_eq_add_of_le' h
  cases more <;> rfl

/-- **Steady texts.** Their pieces are their characters. -/
theorem readPieces_steady {fuel : Nat} (hfuel : cs.length + 2 ≤ fuel) (h : Steady cs) :
    readPieces fuel (cs ++ ending) = cs.map single ++ [.char '-', .star] := by
  induction cs generalizing fuel with
  | nil => exact readPieces_ending hfuel
  | cons c cs ih =>
    obtain ⟨hstar, hset, hrest⟩ := h
    rw [List.length_cons] at hfuel
    obtain ⟨fuel, rfl⟩ := Nat.exists_eq_succ_of_ne_zero (show fuel ≠ 0 by omega)
    rw [List.cons_append, readPieces, if_neg hstar, List.map_cons, List.cons_append, single]
    by_cases hquestion : c = '?'
    · rw [if_pos hquestion, if_pos hquestion, ih (by omega) hrest]
    · rw [if_neg hquestion, if_neg hquestion]
      by_cases hbracket : c = '['
      · rw [if_pos hbracket, setLength?_append, hset hbracket, ih (by omega) hrest, hbracket]
      · rw [if_neg hbracket, ih (by omega) hrest]

/-- the pieces of a text but stars are no more than its characters, and fewer when it is not steady; those of the ending
are its own -/
theorem exists_front {fuel : Nat} (hfuel : cs.length + 2 ≤ fuel) :
    ∃ front, readPieces fuel (cs ++ ending) = front ++ [.char '-', .star] ∧ front.countP (· ≠ .star) ≤ cs.length ∧
      (¬ Steady cs → front.countP (· ≠ .star) < cs.length) := by
  induction hn : cs.length using Nat.strongRecOn generalizing cs fuel with
  | ind n ih =>
    cases cs with
    | nil => exact ⟨[], readPieces_ending hfuel, Nat.zero_le _, fun h => absurd trivial h⟩
    | cons c cs =>
      subst hn
      rw [List.length_cons] at hfuel ih ⊢
      obtain ⟨fuel, rfl⟩ := Nat.exists_eq_succ_of_ne_zero (show fuel ≠ 0 by omega)
      obtain ⟨front, hfront, hle, hlt⟩ := @ih cs.length (by omega) cs fuel (by omega) rfl
      rw [List.cons_append, readPieces]
      by_cases hstar : c = '*'
      · rw [if_pos hstar, hfront]
        refine ⟨.star :: front, rfl, ?_, fun _ => ?_⟩ <;> rw [List.countP_cons_of_neg (by simp)] <;> omega
      · rw [if_neg hstar]
        -- a character that is a piece of its own
        have hone : ∀ p : Piece, p ≠ .star → (c = '[' → setLength? cs = none) →
            ∃ more, p :: readPieces fuel (cs ++ ending) = more ++ [.char '-', .star] ∧
              more.countP (· ≠ .star) ≤ cs.length + 1 ∧ (¬ Steady (c :: cs) → more.countP (· ≠ .star) < cs.length + 1) := by
          intro p hp hset
          refine ⟨p :: front, by rw [hfront]; rfl, ?_, fun hsteady => ?_⟩ <;> rw [List.countP_cons_of_pos (by simpa using hp)]
          · omega
          · have := hlt fun hrest => hsteady ⟨hstar, hset, hrest⟩
            omega
        by_cases hquestion : c = '?'
        · rw [if_pos hquestion]
          exact hone _ (by simp) fun hbracket => by rw [hquestion] at hbracket; cases hbracket
        · rw [if_neg hquestion]
          by_cases hbracket : c = '['
          · rw [if_pos hbracket, setLength?_append]
            cases hset : setLength? cs with
            | none => exact hone _ (by simp) fun _ => hset
            | some n =>
              -- a set takes more characters than one
              have hn := setLength?_lt hset
              have hshort : (cs.drop (n + 1)).length = cs.length - (n + 1) := List.length_drop
              obtain ⟨more, hmore, hcount, -⟩ := @ih (cs.drop (n + 1)).length (by omega) (cs.drop (n + 1)) fuel (by omega) rfl
              dsimp only
              rw [List.drop_append_of_le_length hn, hmore]
              refine ⟨readSet ((cs ++ ending).take n) :: more, rfl, ?_, fun _ => ?_⟩ <;> rw [List.countP_cons] <;>
                split_ifs <;> omega
          · rw [if_neg hbracket]
            exact hone _ (by simp) fun h => absurd h hbracket

theorem star_not_mem (h : Steady cs) : '*' ∉ cs := by
  induction cs with
  | nil => exact List.not_mem_nil
  | cons c cs ih =>
    rw [List.mem_cons, not_or]
    exact ⟨Ne.symm h.1, ih h.2.2⟩

/-- a steady text has no two stars, and neither has the pattern that begins with it -/
theorem not_malformed {s : String} (h : Steady s.toList) : isMalformed (s ++ "-*") = false := by
  have hkept : ∀ (cs : List Char) (fuel : Nat), '*' ∉ cs →
      Text.replaceChars ['*', '*'] [] fuel (cs ++ ending) = cs ++ ending := by
    intro cs
    induction cs with
    | nil => intro fuel _; rcases fuel with _ | _ | _ | fuel <;> rfl
    | cons c cs ih =>
      intro fuel hcs
      obtain ⟨hc, hrest⟩ := not_or.1 (mt List.mem_cons.2 hcs)
      cases fuel with
      | zero => rfl
      | succ fuel =>
        rw [List.cons_append, Text.replaceChars, Text.dropPrefix?, if_neg hc]
        dsimp only
        rw [ih fuel hrest]
  have hreplace : Text.replaceAll "**" "" (s ++ "-*") = s ++ "-*" := by
    have htext : (s ++ "-*").toList = s.toList ++ ending := String.toList_append
    unfold Text.replaceAll
    rw [if_neg (by decide), htext]
    show String.ofList (Text.replaceChars ['*', '*'] [] _ (s.toList ++ ending)) = _
    rw [hkept _ _ (star_not_mem h), ← htext, String.ofList_toList]
  unfold isMalformed
  rw [hreplace, bne_self_eq_false, Bool.and_false]

theorem parse_append (s : String) : parse (s ++ "-*") = readPieces (s.toList.length + 2) (s.toList ++ ending) := by
  unfold parse
  rw [String.length_append, String.toList_append, String.length_toList]
  rfl

/-! ## Names that fit -/

/-- a text without special characters fits the names that begin with it -/
theorem covers_literal (cs ds : List Char) : covers (cs.map .char ++ [.star]) ds = true ↔ cs <+: ds := by
  induction cs generalizing ds with
  | nil => exact iff_of_true (covers_rest ds) List.nil_prefix
  | cons c cs ih =>
    rw [List.map_cons, List.cons_append]
    cases ds with
    | nil => simp [covers_nil]
    | cons d ds =>
      rw [covers_cons (by simp), Bool.and_eq_true, ih, List.cons_prefix_cons]
      exact and_congr_left fun _ => by rw [Piece.accepts, beq_iff_eq, eq_comm]

/-- **Which names fit** a pattern that begins with a text without special characters: those that begin with the text. -/
theorem fits_literal {s : String} (h : Literal s.toList) (name : String) :
    fits (s ++ "-*") name = true ↔ (s ++ "-").toList <+: name.toList := by
  have hsingle : s.toList.map single = s.toList.map .char := by
    refine List.map_congr_left fun c hc => if_neg ?_
    rintro rfl
    exact h.2 hc
  have hparse : parse (s ++ "-*") = (s ++ "-").toList.map .char ++ [.star] := by
    rw [parse_append, readPieces_steady (Nat.le_refl _) h.1, hsingle]
    simp
  rw [fits, hparse, covers_literal]

theorem utf8ByteSize_ofList_cons (c : Char) (cs : List Char) :
    (String.ofList (c :: cs)).utf8ByteSize = c.utf8Size + (String.ofList cs).utf8ByteSize := by
  rw [String.ofList_cons, String.utf8ByteSize_append, String.utf8ByteSize_singleton]

theorem utf8ByteSize_le_of_sublist (h : ds.Sublist cs) :
    (String.ofList ds).utf8ByteSize ≤ (String.ofList cs).utf8ByteSize := by
  induction h with
  | slnil => exact Nat.le_refl _
  | cons c _ ih =>
    rw [utf8ByteSize_ofList_cons]
    exact Nat.le_trans ih (Nat.le_add_left _ _)
  | cons_cons c _ ih =>
    rw [utf8ByteSize_ofList_cons, utf8ByteSize_ofList_cons]
    exact Nat.add_le_add_left ih _

/-- another character for every question mark -/
def unmarked (c : Char) : Char := if c = '?' then 'x' else c

theorem utf8ByteSize_unmarked (cs ds : List Char) :
    (String.ofList (cs.map unmarked ++ ds)).utf8ByteSize = (String.ofList (cs ++ ds)).utf8ByteSize := by
  induction cs with
  | nil => rfl
  | cons c cs ih =>
    rw [List.map_cons, List.cons_append, List.cons_append, utf8ByteSize_ofList_cons, utf8ByteSize_ofList_cons, ih]
    congr 1
    unfold unmarked
    split_ifs with h
    · rw [h]
      rfl
    · rfl

/-- a question mark fits any other character -/
theorem covers_unmarked (cs : List Char) :
    covers (cs.map single ++ [.char '-', .star]) (cs.map unmarked ++ ['-']) = true := by
  induction cs with
  | nil => rw [List.map_nil, List.map_nil, List.nil_append, List.nil_append, covers_cons (by simp), covers_rest]; rfl
  | cons c cs ih =>
    have hsingle : single c ≠ .star := by
      unfold single
      split_ifs <;> simp
    rw [List.map_cons, List.map_cons, List.cons_append, List.cons_append, covers_cons hsingle, ih, Bool.and_true]
    unfold single unmarked
    split_ifs
    · rfl
    · exact beq_self_eq_true c

/-- a name that fits and does not begin with the text, or begins with it and does not fit; it is no longer than the text, and
made of its characters and two others -/
structure Tells (s name : String) : Prop where
  unlike : ¬ (fits (s ++ "-*") name = true ↔ (s ++ "-").toList <+: name.toList)
  dashed : '-' ∈ name.toList
  characters : ∀ c ∈ name.toList, c ∈ s.toList ∨ c = '-' ∨ c = 'x'
  short : name.utf8ByteSize ≤ (s ++ "-").utf8ByteSize

theorem toList_dashed (s : String) : (s ++ "-").toList = s.toList ++ ['-'] := String.toList_append

theorem dashed_eq_ofList (s : String) : s ++ "-" = String.ofList (s.toList ++ ['-']) := by
  rw [← toList_dashed, String.ofList_toList]

theorem mem_or_eq_of_mem_dashed {s : String} {c : Char} (h : c ∈ s.toList ++ ['-']) : c ∈ s.toList ∨ c = '-' ∨ c = 'x' :=
  (List.mem_append.1 h).imp_right fun hdash => Or.inl (List.mem_singleton.1 hdash)

/-- a question mark fits another character -/
theorem tells_unmarked {s : String} (hsteady : Steady s.toList) (hmark : '?' ∈ s.toList) :
    Tells s (String.ofList (s.toList.map unmarked ++ ['-'])) where
  unlike := by
    rw [fits, parse_append, readPieces_steady (Nat.le_refl _) hsteady, String.toList_ofList, covers_unmarked, toList_dashed]
    intro hiff
    have hprefix := (hiff.1 rfl).eq_of_length (by simp)
    have hsame := List.append_cancel_right hprefix
    rw [hsame, List.mem_map] at hmark
    obtain ⟨c, -, hc⟩ := hmark
    unfold unmarked at hc
    split_ifs at hc with heq
    · cases hc
    · exact heq hc
  dashed := by simp
  characters := by
    intro c hc
    rw [String.toList_ofList, List.mem_append, List.mem_map] at hc
    rcases hc with ⟨d, hd, rfl⟩ | hc
    · unfold unmarked
      split_ifs
      · exact Or.inr (Or.inr rfl)
      · exact Or.inl hd
    · exact Or.inr (Or.inl (List.mem_singleton.1 hc))
  short := by
    rw [dashed_eq_ofList]
    exact Nat.le_of_eq (utf8ByteSize_unmarked s.toList ['-'])

/-- where the text fits itself, so does a part of it: stars stand for nothing, and sets for one character -/
theorem exists_tells_of_not_steady {s : String} (hsteady : ¬ Steady s.toList)
    (hfits : fits (s ++ "-*") (s ++ "-") = true) : ∃ name, Tells s name := by
  obtain ⟨front, hfront, -, hcount⟩ := exists_front (Nat.le_refl (s.toList.length + 2))
  rw [fits, parse_append] at hfits
  obtain ⟨ds, hds, hlength, hcovers⟩ := exists_sublist _ _ hfits
  rw [toList_dashed] at hds
  refine ⟨String.ofList ds, ⟨?_, ?_, fun c hc => ?_, ?_⟩⟩
  · rw [fits, parse_append, String.toList_ofList, hcovers, toList_dashed]
    intro hiff
    have hle := (hiff.1 rfl).length_le
    rw [hlength, hfront, List.countP_append, List.length_append] at hle
    have hlt := hcount hsteady
    have hend : [Piece.char '-', .star].countP (· ≠ .star) = 1 := by decide
    rw [hend] at hle
    simp only [List.length_singleton] at hle
    omega
  · rw [String.toList_ofList]
    exact mem_of_covers _ _ hcovers (by rw [hfront]; simp)
  · rw [String.toList_ofList] at hc
    exact mem_or_eq_of_mem_dashed (hds.subset hc)
  · rw [dashed_eq_ofList]
    exact utf8ByteSize_le_of_sublist hds

/-- **A name that tells.** For a text with a special character there is one. -/
theorem exists_tells {s : String} (h : ¬ Literal s.toList) : ∃ name, Tells s name := by
  by_cases hfits : fits (s ++ "-*") (s ++ "-") = true
  · by_cases hsteady : Steady s.toList
    · have hmark : '?' ∈ s.toList := by
        by_contra hno
        exact h ⟨hsteady, hno⟩
      exact ⟨_, tells_unmarked hsteady hmark⟩
    · exact exists_tells_of_not_steady hsteady hfits
  · -- the text itself begins with itself, and does not fit
    exact ⟨s ++ "-", fun hiff => hfits (hiff.2 (List.prefix_refl _)), by simp,
      fun c hc => mem_or_eq_of_mem_dashed (toList_dashed s ▸ hc), Nat.le_refl _⟩

end Classwright.Glob
