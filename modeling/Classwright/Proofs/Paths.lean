/-
Where the names of a path lead, no links being in the way.

- `splitChars_append`: a text with an ending is cut as without it, but for its last piece;
- `Path.folders`: the names before the last slash of a text; `names_append`: the names of a text with an ending;
- `Path.IsName`: what can be a name on a disk; `names_joinWith`: such names are found again in a text put together from them;
- `Path.staysWithin`: names that never climb above the directory they start from;
- `resolve_of_staysWithin`: such names lead to a place within it, wherever it is;
- `not_prefix_of_climbs`: other names leave the directory, and do not come back unless they spell its name.
-/
import Mathlib.Data.List.Infix
import Classwright.Path

namespace Classwright

namespace Text

theorem splitChars_of_not_mem {sep : Char} {cs : List Char} (h : sep ∉ cs) : splitChars sep cs = [cs] := by
  induction cs with
  | nil => rfl
  | cons c rest ih =>
    obtain ⟨hc, hrest⟩ := not_or.1 (mt List.mem_cons.2 h)
    rw [splitChars, if_neg (Ne.symm hc), ih hrest]

/-- an ending without the separator goes to the last piece -/
theorem splitChars_append {sep : Char} (cs : List Char) {ending : List Char} (h : sep ∉ ending) :
    splitChars sep (cs ++ ending) =
      (splitChars sep cs).dropLast ++ [(splitChars sep cs).getLast (splitChars_ne_nil sep cs) ++ ending] := by
  induction cs with
  | nil => exact splitChars_of_not_mem h
  | cons c rest ih =>
    have hne := splitChars_ne_nil sep rest
    by_cases hc : c = sep
    · have hcut : splitChars sep (c :: rest) = [] :: splitChars sep rest := by rw [splitChars, if_pos hc]
      simp only [List.cons_append, hcut, List.dropLast_cons_of_ne_nil hne, List.getLast_cons hne]
      rw [splitChars, if_pos hc, ih]
    · cases hcut : splitChars sep rest with
      | nil => exact absurd hcut hne
      | cons piece more =>
        have hcons : splitChars sep (c :: rest) = (c :: piece) :: more := by rw [splitChars, if_neg hc, hcut]
        simp only [hcut] at ih
        rw [List.cons_append, splitChars, if_neg hc, ih]
        simp only [hcons]
        cases more <;> rfl

/-- what is on both sides of a separator is cut on its own -/
theorem splitChars_append_cons (sep : Char) (cs rest : List Char) :
    splitChars sep (cs ++ sep :: rest) = splitChars sep cs ++ splitChars sep rest := by
  induction cs with
  | nil => simp [splitChars]
  | cons c cs ih =>
    rw [List.cons_append, splitChars, splitChars, ih]
    split_ifs with hc
    · rfl
    · cases hpieces : splitChars sep cs with
      | nil => exact absurd hpieces (splitChars_ne_nil sep cs)
      | cons piece more => rfl

theorem not_mem_of_mem_splitChars {sep : Char} {cs piece : List Char} (h : piece ∈ splitChars sep cs) : sep ∉ piece := by
  induction cs generalizing piece with
  | nil =>
    rw [splitChars, List.mem_singleton] at h
    rw [h]
    exact List.not_mem_nil
  | cons d rest ih =>
    rw [splitChars] at h
    split_ifs at h with hd
    · rcases List.mem_cons.1 h with rfl | h
      · exact List.not_mem_nil
      · exact ih h
    · split at h
      · rw [List.mem_singleton.1 h, List.mem_singleton]
        exact Ne.symm hd
      · next first more hcut =>
        rcases List.mem_cons.1 h with rfl | h
        · rw [List.mem_cons, not_or]
          exact ⟨Ne.symm hd, ih (hcut ▸ List.mem_cons_self)⟩
        · exact ih (hcut ▸ List.mem_cons_of_mem _ h)

theorem mem_of_mem_splitChars {sep : Char} {cs piece : List Char} (h : piece ∈ splitChars sep cs) {c : Char}
    (hc : c ∈ piece) : c ∈ cs := by
  induction cs generalizing piece with
  | nil =>
    rw [splitChars, List.mem_singleton] at h
    subst h
    cases hc
  | cons d rest ih =>
    rw [splitChars] at h
    split_ifs at h with hd
    · rcases List.mem_cons.1 h with rfl | h
      · cases hc
      · exact List.mem_cons_of_mem _ (ih h hc)
    · split at h
      · rw [List.mem_singleton] at h
        subst h
        exact List.mem_cons.2 (Or.inl (List.mem_singleton.1 hc))
      · next first more hcut =>
        rcases List.mem_cons.1 h with rfl | h
        · rcases List.mem_cons.1 hc with rfl | hc
          · exact List.mem_cons_self
          · exact List.mem_cons_of_mem _ (ih (hcut ▸ List.mem_cons_self) hc)
        · exact List.mem_cons_of_mem _ (ih (hcut ▸ List.mem_cons_of_mem _ h) hc)

end Text

namespace Path

/-! ## The names of a text -/

/-- the names before the last slash of a text -/
def folders (s : String) : List String :=
  ((Text.splitChars '/' s.toList).dropLast.filter fun n => n ≠ [] ∧ n ≠ ['.']).map String.ofList

/-- what stands behind the last slash of a text -/
def base (s : String) : String :=
  String.ofList ((Text.splitChars '/' s.toList).getLast (Text.splitChars_ne_nil _ _))

theorem names_append (s : String) {ending : String} (h : '/' ∉ ending.toList) (hlength : 2 ≤ ending.toList.length) :
    names (s ++ ending).toList = folders s ++ [base s ++ ending] := by
  unfold names folders base
  rw [String.toList_append, Text.splitChars_append _ h, List.filter_append, List.map_append]
  congr 1
  -- the last piece is longer than a dot
  rw [List.filter_cons_of_pos, List.filter_nil, List.map_singleton, String.ofList_append, String.ofList_toList]
  rw [decide_eq_true_eq]
  refine ⟨fun hnil => ?_, fun hdot => ?_⟩
  · have hzero := congrArg List.length hnil
    rw [List.length_append, List.length_nil] at hzero
    omega
  · have hone := congrArg List.length hdot
    rw [List.length_append, List.length_singleton] at hone
    omega

theorem mem_of_mem_folders {s name : String} (h : name ∈ folders s) {c : Char} (hc : c ∈ name.toList) : c ∈ s.toList := by
  obtain ⟨piece, hpiece, rfl⟩ := List.mem_map.1 h
  rw [String.toList_ofList] at hc
  exact Text.mem_of_mem_splitChars (List.dropLast_subset _ (List.mem_filter.1 hpiece).1) hc

theorem folders_of_not_mem {s : String} (h : '/' ∉ s.toList) : folders s = [] := by
  unfold folders
  rw [Text.splitChars_of_not_mem h]
  rfl

theorem rootOf_eq_empty_iff (cs : List Char) : rootOf cs = "" ↔ cs.head? ≠ some '/' := by
  unfold rootOf
  split
  · simp
  · simp
  · simp
  · next h =>
    simp only [true_iff]
    intro hhead
    cases cs with
    | nil => cases hhead
    | cons c rest => exact h rest (by rw [Option.some.inj hhead])

/-- an ending that does not begin with a slash does not change the root -/
theorem rootOf_append (cs : List Char) {ending : List Char} (h : ending.head? ≠ some '/') :
    rootOf (cs ++ ending) = rootOf cs := by
  by_cases hslash : cs.head? = some '/'
  · obtain ⟨rest, rfl⟩ : ∃ rest, cs = '/' :: rest := by
      cases cs with
      | nil => cases hslash
      | cons c rest => exact ⟨rest, by rw [Option.some.inj hslash]⟩
    cases ending with
    | nil => rw [List.append_nil]
    | cons e es =>
      have he : e ≠ '/' := fun heq => h (by rw [heq]; rfl)
      rcases rest with _ | ⟨b, _ | ⟨c, rest⟩⟩
      · simp [rootOf, he]
      · by_cases hb : b = '/'
        · simp [rootOf, hb, he]
        · simp [rootOf, hb]
      · by_cases hb : b = '/' <;> by_cases hc : c = '/' <;> simp [rootOf, hb, hc]
  · rw [(rootOf_eq_empty_iff cs).2 hslash, rootOf_eq_empty_iff]
    cases cs with
    | nil => exact h
    | cons c rest => exact hslash

/-- an ending makes a path neither absolute nor relative -/
theorem isAbsolute_append (s : String) {ending : String} (h : ending.toList.head? ≠ some '/') :
    (ofString (s ++ ending)).isAbsolute = true ↔ s.toList.head? = some '/' := by
  unfold isAbsolute ofString
  rw [Bool.not_eq_true', Bool.eq_false_iff, Ne, String.isEmpty_iff, rootOf_eq_empty_iff, not_not, String.toList_append]
  cases s.toList with
  | nil => simpa using h
  | cons c rest => rfl

/-! ## Names put together -/

/-- what can be the name of something on a disk -/
def IsName (name : String) : Prop := name ≠ "" ∧ name ≠ "." ∧ name ≠ ".." ∧ '/' ∉ name.toList

instance (name : String) : Decidable (IsName name) := inferInstanceAs (Decidable (_ ∧ _))

theorem isName_of_mem_names {cs : List Char} {name : String} (h : name ∈ names cs) (hup : name ≠ "..") : IsName name := by
  obtain ⟨piece, hpiece, rfl⟩ := List.mem_map.1 h
  obtain ⟨hpiece, hkept⟩ := List.mem_filter.1 hpiece
  obtain ⟨hempty, hdot⟩ := of_decide_eq_true hkept
  have hlist : ∀ s : String, String.ofList piece = s → piece = s.toList := fun s hs => by rw [← hs, String.toList_ofList]
  refine ⟨fun hs => hempty (hlist "" hs), fun hs => hdot (hlist "." hs), hup, ?_⟩
  rw [String.toList_ofList]
  exact Text.not_mem_of_mem_splitChars hpiece

/-- names that were put together are found again -/
theorem names_joinWith {ns : List String} (h : ∀ name ∈ ns, IsName name) : names (Text.joinWith "/" ns).toList = ns := by
  have hpiece : ∀ {name : String}, IsName name → ∀ pieces : List (List Char),
      (name.toList :: pieces).filter (fun n => decide (n ≠ [] ∧ n ≠ ['.'])) =
        name.toList :: pieces.filter fun n => decide (n ≠ [] ∧ n ≠ ['.']) := by
    intro name hname pieces
    refine List.filter_cons_of_pos (decide_eq_true ?_)
    exact ⟨fun hnil => hname.1 (String.toList_inj.1 hnil), fun hdot => hname.2.1 (String.toList_inj.1 hdot)⟩
  induction ns with
  | nil => rfl
  | cons name rest ih =>
    have hname := h name List.mem_cons_self
    have hrest := ih fun n hn => h n (List.mem_cons_of_mem name hn)
    cases rest with
    | nil =>
      show names name.toList = [name]
      unfold names
      rw [Text.splitChars_of_not_mem hname.2.2.2, hpiece hname]
      simp
    | cons next more =>
      have hjoin : (Text.joinWith "/" (name :: next :: more)).toList =
          name.toList ++ '/' :: (Text.joinWith "/" (next :: more)).toList := by
        show (name ++ "/" ++ Text.joinWith "/" (next :: more)).toList = _
        rw [String.toList_append, String.toList_append, List.append_assoc]
        rfl
      unfold names at hrest ⊢
      rw [hjoin, Text.splitChars_append_cons, Text.splitChars_of_not_mem hname.2.2.2, List.singleton_append, hpiece hname,
        List.map_cons, hrest, String.ofList_toList]

theorem joinWith_inj {a b : List String} (ha : ∀ name ∈ a, IsName name) (hb : ∀ name ∈ b, IsName name)
    (h : Text.joinWith "/" a = Text.joinWith "/" b) : a = b := by
  rw [← names_joinWith ha, h, names_joinWith hb]

theorem toString_relative {ns : List String} (h : ∀ name ∈ ns, IsName name) (hne : ns ≠ []) :
    toString ⟨"", ns⟩ = Text.joinWith "/" ns := by
  unfold toString
  dsimp only
  rw [String.empty_append, if_neg]
  intro hempty
  have hnames := names_joinWith h
  rw [String.isEmpty_iff.1 hempty] at hnames
  exact hne hnames.symm

/-! ## Following names -/

theorem resolve_append (start a b : List String) : resolve start (a ++ b) = resolve (resolve start a) b :=
  List.foldl_append

theorem resolve_of_not_mem {names : List String} (h : ".." ∉ names) (start : List String) :
    resolve start names = start ++ names := by
  induction names generalizing start with
  | nil => exact (List.append_nil start).symm
  | cons name rest ih =>
    obtain ⟨hname, hrest⟩ := not_or.1 (mt List.mem_cons.2 h)
    refine (ih hrest (walk start name)).trans ?_
    rw [walk, if_neg (Ne.symm hname), List.append_assoc, List.singleton_append]

/-- whether names never climb above the directory that is `depth` levels above where they start -/
def staysWithin : Nat → List String → Bool
  | _, [] => true
  | 0, name :: rest => if name = ".." then false else staysWithin 1 rest
  | depth + 1, name :: rest => if name = ".." then staysWithin depth rest else staysWithin (depth + 2) rest

theorem resolve_of_staysWithin {names inner : List String} (h : staysWithin inner.length names = true) :
    ∃ rest, ∀ start, resolve (start ++ inner) names = start ++ rest := by
  induction names generalizing inner with
  | nil => exact ⟨inner, fun start => rfl⟩
  | cons name rest ih =>
    have step : ∀ next : List String, staysWithin next.length rest = true →
        (∀ start, walk (start ++ inner) name = start ++ next) →
        ∃ r, ∀ start, resolve (start ++ inner) (name :: rest) = start ++ r := by
      intro next hnext hwalk
      obtain ⟨r, hr⟩ := ih hnext
      refine ⟨r, fun start => ?_⟩
      show resolve (walk (start ++ inner) name) rest = _
      rw [hwalk, hr]
    by_cases hup : name = ".."
    · rcases List.eq_nil_or_concat inner with rfl | ⟨front, last, rfl⟩
      · simp [staysWithin, hup] at h
      · refine step front ?_ fun start => ?_
        · simpa [staysWithin, hup] using h
        · rw [walk, if_pos hup, List.concat_eq_append, ← List.append_assoc, List.dropLast_concat]
    · refine step (inner ++ [name]) ?_ fun start => ?_
      · rw [List.length_append]
        cases hl : inner.length <;> simpa [staysWithin, hup, hl] using h
      · rw [walk, if_neg hup, List.append_assoc]

/-- a place that was left is not entered again by names other than its own -/
theorem not_prefix_walk {place here : List String} {name : String} (hname : place.getLast? ≠ some name)
    (h : ¬ place <+: here) : ¬ place <+: walk here name := by
  unfold walk
  split_ifs
  · exact fun hp => h (hp.trans (List.dropLast_prefix here))
  · intro hp
    rcases List.prefix_concat_iff.1 hp with heq | hp
    · rw [heq, List.getLast?_concat] at hname
      exact hname rfl
    · exact h hp

theorem not_prefix_resolve {place here names : List String} (hnames : ∀ name ∈ names, place.getLast? ≠ some name)
    (h : ¬ place <+: here) : ¬ place <+: resolve here names := by
  induction names generalizing here with
  | nil => exact h
  | cons name rest ih =>
    exact ih (fun n hn => hnames n (List.mem_cons_of_mem _ hn)) (not_prefix_walk (hnames name List.mem_cons_self) h)

theorem not_prefix_of_climbs {place start inner names : List String}
    (hnames : ∀ name ∈ names, place.getLast? ≠ some name) (hplace : place ≠ []) (hlength : start.length ≤ place.length)
    (h : staysWithin inner.length names = false) : ¬ place <+: resolve (start ++ inner) names := by
  induction names generalizing inner with
  | nil => cases h
  | cons name rest ih =>
    have hrest : ∀ n ∈ rest, place.getLast? ≠ some n := fun n hn => hnames n (List.mem_cons_of_mem _ hn)
    show ¬ place <+: resolve (walk (start ++ inner) name) rest
    by_cases hup : name = ".."
    · rw [walk, if_pos hup]
      rcases List.eq_nil_or_concat inner with rfl | ⟨front, last, rfl⟩
      · -- this name leaves the directory
        refine not_prefix_resolve hrest fun hp => ?_
        have hlt := hp.length_le
        have hpos := List.length_pos_of_ne_nil hplace
        rw [List.append_nil, List.length_dropLast] at hlt
        omega
      · rw [List.concat_eq_append, ← List.append_assoc, List.dropLast_concat]
        exact ih hrest (by simpa [staysWithin, hup] using h)
    · rw [walk, if_neg hup, List.append_assoc]
      refine ih hrest ?_
      rw [List.length_append]
      cases hl : inner.length <;> simpa [staysWithin, hup, hl] using h

end Path

end Classwright
