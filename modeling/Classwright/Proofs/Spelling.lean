/-
How the names of relationship fields are spelled.

A name is made of the name of a class and an ending: a plural `s`, the number of the relationship, and for some names an
underscore and a word. Names made of the same class are equal only when their numbers are.

- `suffix_inj`, `ending_inj`: a number is read back from the digits it adds, and the plural with it;
- `inverse_ne`: no name of an inverse field is the name of another field to the same class;
- `backTail_inj`, `tableName_inj`, `tableName_swap_inj`: the number is read back from a JSON reference and a join table.
-/
import Mathlib.Data.List.Nodup
import Classwright.Plan.Numbering
import Classwright.Plan.Relationship

namespace Classwright

namespace Numbering

theorem isDigit_of_mem_suffix {k : Nat} {c : Char} (h : c ∈ (suffix k).toList) : c.isDigit = true := by
  unfold suffix at h
  split_ifs at h
  · simp at h
  · rw [Nat.toList_repr] at h
    exact Nat.isDigit_of_mem_toDigits (by omega) (Nat.le_refl 10) h

theorem suffix_inj {k m : Nat} (hk : 1 ≤ k) (hm : 1 ≤ m) (h : suffix k = suffix m) : k = m := by
  unfold suffix at h
  split_ifs at h with hk1 hm1
  · omega
  · exact absurd h.symm Nat.repr_ne_empty
  · exact absurd h Nat.repr_ne_empty
  · have hdigits := congrArg (fun s => Nat.ofDigitChars 10 s.toList 0) h
    simpa only [Nat.toList_repr, Nat.ofDigitChars_ten_toDigits] using hdigits

end Numbering

namespace Relationship

open Naming Classwright.Numbering

/-- what follows the class in the name of a field: the plural and the number -/
def ending (many : Bool) (k : Nat) : String := (if many then "s" else "") ++ suffix k

theorem not_mem_ending {many : Bool} {k : Nat} {c : Char} (hs : c ≠ 's') (hd : c.isDigit = false) :
    c ∉ (ending many k).toList := by
  unfold ending
  rw [String.toList_append, List.mem_append]
  rintro (h | h)
  · cases many <;> simp [hs] at h
  · rw [isDigit_of_mem_suffix h] at hd
    cases hd

theorem ending_inj {many many' : Bool} {k m : Nat} (hk : 1 ≤ k) (hm : 1 ≤ m) (h : ending many k = ending many' m) :
    many = many' ∧ k = m := by
  -- a plural begins with a letter, a number does not
  have mixed : ∀ {i j}, "s" ++ suffix i ≠ suffix j := fun {i j} e => by
    have hs : 's' ∈ (suffix j).toList := by rw [← e, String.toList_append]; exact List.mem_cons_self
    exact absurd (isDigit_of_mem_suffix hs) (by decide)
  unfold ending at h
  cases many <;> cases many' <;> simp only [Bool.false_eq_true, if_true, if_false, String.empty_append] at h
  · exact ⟨rfl, suffix_inj hk hm h⟩
  · exact absurd h.symm mixed
  · exact absurd h mixed
  · exact ⟨rfl, suffix_inj hk hm ((String.append_right_inj "s").1 h)⟩

/-! ## Inverse fields -/

theorem lowerFirst_ne_empty {name : String} (h : name ≠ "") : lowerFirst name ≠ "" := by
  have hchar : ∀ c, Text.lowerChar c ≠ [] := by
    intro c
    unfold Text.lowerChar
    repeat' split
    all_goals simp
  unfold lowerFirst Text.lowerFirst
  split
  · next hnil => exact absurd (String.toList_eq_nil_iff.1 hnil) h
  · next c rest _ =>
    intro e
    have hnil := congrArg String.toList e
    rw [String.toList_ofList, String.toList_empty, List.append_eq_nil_iff] at hnil
    exact hchar c hnil.1

theorem toList_upperFirst_append {b e : String} {c : Char} {rest : List Char} (h : b.toList = c :: rest) :
    (Text.upperFirst (b ++ e)).toList = Text.upperChar c ++ (rest ++ e.toList) := by
  unfold Text.upperFirst
  rw [String.toList_append, h, List.cons_append]
  exact String.toList_ofList

theorem upperFirst_append_inj {b e e' : String} (hb : b ≠ "") (h : Text.upperFirst (b ++ e) = Text.upperFirst (b ++ e')) :
    e = e' := by
  cases hl : b.toList with
  | nil => exact absurd (String.toList_eq_nil_iff.1 hl) hb
  | cons c rest =>
    have hlist := congrArg String.toList h
    rw [toList_upperFirst_append hl, toList_upperFirst_append hl] at hlist
    exact String.toList_inj.1 (List.append_cancel_left (List.append_cancel_left hlist))

/-- the prefix changes the case of one letter, so the two texts do not hold the same number of capitals -/
theorem inverse_ne {b e e' : String} (hi : 'i' ∉ e.toList) (hI : 'I' ∉ e.toList) :
    b ++ e ≠ "inverse" ++ Text.upperFirst (b ++ e') := by
  intro h
  have hlist := congrArg String.toList h
  rw [String.toList_append, String.toList_append] at hlist
  cases hl : b.toList with
  | nil =>
    rw [hl, List.nil_append] at hlist
    exact hi (hlist ▸ List.mem_cons_self)
  | cons c rest =>
    rw [toList_upperFirst_append hl, hl] at hlist
    have hc : c = 'i' := (List.cons.inj hlist).1
    have hcount := congrArg (List.count 'I') hlist
    have hupper : Text.upperChar 'i' = ['I'] := by decide
    rw [hc, hupper] at hcount
    simp [List.count_append, List.count_eq_zero.2 hI] at hcount
    omega

/-! ## References and join tables -/

/-- what follows the class in a JSON reference -/
inductive BackTail (owner : String) (k : Nat) : String → Prop
  | plain : BackTail owner k (suffix k)
  | between : BackTail owner k ("_" ++ owner ++ suffix k)
  | composition : BackTail owner k (suffix k ++ "_composition")

theorem underscore_not_mem_suffix (k : Nat) : '_' ∉ (suffix k).toList := fun h =>
  absurd (isDigit_of_mem_suffix h) (by decide)

theorem suffix_ne_between (x : String) (k m : Nat) : suffix k ≠ "_" ++ x ++ suffix m := by
  intro h
  refine underscore_not_mem_suffix k ?_
  rw [h, String.append_assoc, String.toList_append]
  exact List.mem_cons_self

theorem suffix_ne_composition (k m : Nat) : suffix k ≠ suffix m ++ "_composition" := by
  intro h
  refine underscore_not_mem_suffix k ?_
  rw [h, String.toList_append, List.mem_append]
  exact Or.inr List.mem_cons_self

/-- only a reference without a number can be read both ways -/
theorem between_composition_inj {x : String} {k m : Nat} (hk : 1 ≤ k) (hm : 1 ≤ m)
    (h : "_" ++ x ++ suffix k = suffix m ++ "_composition") : k = m := by
  have empty_of : ∀ {n}, 1 ≤ n → suffix n = "" → n = 1 := fun hn e => suffix_inj hn (Nat.le_refl 1) (e.trans rfl)
  -- an underscore is no digit, so the number on the right is empty
  have hright : suffix m = "" := by
    by_contra hne
    obtain ⟨c, rest, hcons⟩ := List.exists_cons_of_ne_nil (mt String.toList_eq_nil_iff.1 hne)
    have hlist := congrArg String.toList h
    rw [String.append_assoc, String.toList_append, String.toList_append (s := suffix m), hcons] at hlist
    have hc : '_' = c := (List.cons.inj hlist).1
    exact underscore_not_mem_suffix m (by rw [hcons, hc]; exact List.mem_cons_self)
  -- and the letter at the end is no digit, so the number on the left is empty as well
  have hleft : suffix k = "" := by
    by_contra hne
    have hnil := mt String.toList_eq_nil_iff.1 hne
    have hlast := congrArg (fun s => s.toList.getLast?) h
    simp only [hright, String.empty_append, String.toList_append] at hlast
    rw [List.getLast?_append_of_ne_nil _ hnil, List.getLast?_eq_some_getLast hnil] at hlast
    have hmem := List.getLast_mem hnil
    rw [Option.some.inj (hlast.trans (show _ = some 'n' by decide))] at hmem
    exact absurd (isDigit_of_mem_suffix hmem) (by decide)
  rw [empty_of hk hleft, empty_of hm hright]

theorem backTail_inj {owner t : String} {k m : Nat} (hk : 1 ≤ k) (hm : 1 ≤ m) (h : BackTail owner k t)
    (h' : BackTail owner m t) : k = m := by
  generalize ht : t = u at h'
  cases h with
  | plain =>
    cases h' with
    | plain => exact suffix_inj hk hm ht
    | between => exact absurd ht (suffix_ne_between owner k m)
    | composition => exact absurd ht (suffix_ne_composition k m)
  | between =>
    cases h' with
    | plain => exact absurd ht.symm (suffix_ne_between owner m k)
    | between => exact suffix_inj hk hm ((String.append_right_inj _).1 ht)
    | composition => exact between_composition_inj hk hm ht
  | composition =>
    cases h' with
    | plain => exact absurd ht.symm (suffix_ne_composition m k)
    | between => exact (between_composition_inj hm hk ht.symm).symm
    | composition => exact suffix_inj hk hm ((String.append_left_inj _).1 ht)

theorem tableName_inj {s t : String} {k m : Nat} (hk : 1 ≤ k) (hm : 1 ≤ m)
    (h : s ++ "_" ++ t ++ suffix k = s ++ "_" ++ t ++ suffix m) : k = m :=
  suffix_inj hk hm ((String.append_right_inj _).1 h)

/-- the two classes in the other order make a text of the same length -/
theorem tableName_swap_inj {s t : String} {k m : Nat} (hk : 1 ≤ k) (hm : 1 ≤ m)
    (h : s ++ "_" ++ t ++ suffix k = t ++ "_" ++ s ++ suffix m) : k = m := by
  have hlist := congrArg String.toList h
  simp only [String.toList_append] at hlist
  have hlength := congrArg List.length hlist
  simp only [List.length_append] at hlength
  exact suffix_inj hk hm (String.toList_inj.1 (List.append_inj' hlist (by omega)).2)

end Relationship

end Classwright
