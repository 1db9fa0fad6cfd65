/-
What a controller answers, read off its source.

The source of a controller names a route for the whole class and declares its endpoints, each by an annotation with the verb
and, when there is one, the path behind the route. Both are found line by line, by how the lines begin; no other line of a
controller begins in these ways, whatever the name of the class.

- `Java.routeOf?`, `Java.mappingOf?`: what a line declares;
- `Java.Silent`: a line that declares nothing; `silent_of_start`: such a line is known by how it begins;
- `Java.Answers`: what lines declare in all, with one lemma for each kind of line;
- `Java.Controls`: what a file declares; its lines are what was written as lines, unless a name has a line end in it;
- `Java.crudMappings`: the five endpoints that list, find, make, change and remove objects;
- `controls_controller`: every controller declares one route and these five endpoints, and the controller of a child class
  two more.
-/
import Classwright.Proofs.KeyTypes

namespace Classwright

namespace Text

/-- a line end is found under no other number -/
theorem eq_of_ofNat_eq_lineEnd {n : Nat} (h : Char.ofNat n = '\n') : n = 10 := by
  by_cases hvalid : n.isValidChar
  · rw [Char.ofNat, dif_pos hvalid] at h
    exact congrArg Char.toNat h
  · rw [Char.ofNat, dif_neg hvalid] at h
    exact absurd (congrArg Char.toNat h) (by decide)

/-- no other letter becomes a line end in lower case -/
theorem lineEnd_not_mem_lowerChar {c : Char} (h : c ≠ '\n') : '\n' ∉ lowerChar c := by
  have hascii : ∀ n < 128, Char.ofNat n ≠ '\n' → '\n' ∉ [(Char.ofNat n).toLower] := by decide +kernel
  have hruns : ∀ r ∈ lowerRuns, 10 < (r.1 : Int) + r.2.2.2 := by decide +kernel
  unfold lowerChar
  split_ifs with hsmall
  · have hc := hascii c.toNat hsmall
    rw [Char.ofNat_toNat] at hc
    exact hc h
  · decide
  · split
    · next d hd =>
      obtain ⟨r, hr, rfl⟩ := Option.map_eq_some_iff.1 hd
      have hfound := List.find?_some hr
      have hle : r.1 ≤ c.toNat := (of_decide_eq_true hfound).1
      rw [List.mem_singleton]
      intro he
      have hten := eq_of_ofNat_eq_lineEnd he.symm
      have := hruns r (List.mem_of_find?_eq_some hr)
      omega
    · rw [List.mem_singleton]
      exact Ne.symm h

theorem lineEnd_not_mem_lowerFirst {s : String} (h : '\n' ∉ s.toList) : '\n' ∉ (lowerFirst s).toList := by
  unfold lowerFirst
  split
  · decide
  · next c rest hs =>
    rw [hs, List.mem_cons, not_or] at h
    rw [String.toList_ofList, List.mem_append, not_or]
    exact ⟨lineEnd_not_mem_lowerChar (Ne.symm h.1), h.2⟩

end Text

namespace Java

/-! ## Lines that declare -/

inductive Verb where
  | get
  | post
  | put
  | delete
  deriving DecidableEq, Repr

namespace Verb

def all : List Verb := [.get, .post, .put, .delete]

def marking : Verb → List Char
  | .get => "GetMapping(".toList
  | .post => "PostMapping(".toList
  | .put => "PutMapping(".toList
  | .delete => "DeleteMapping(".toList

/-- the verb as it stands in a request -/
def method : Verb → String
  | .get => "GET"
  | .post => "POST"
  | .put => "PUT"
  | .delete => "DELETE"

end Verb

/-- an endpoint: its verb, and its path behind the route of the controller -/
structure Mapping where
  verb : Verb
  path : Option String
  deriving DecidableEq, Repr

/-- the annotation of a method begins like this -/
def methodSign : List Char := [' ', ' ', ' ', ' ', '@']

/-- the annotation of a class begins like this -/
def classSign : List Char := ['@']

def untilQuote (cs : List Char) : String := String.ofList (cs.takeWhile fun c => c != '"')

/-- the path among the arguments of an annotation, where it comes first -/
def pathOf? (arguments : List Char) : Option String := ("path = \"".toList.isPrefixOf? arguments).map untilQuote

def mappingIn? (line : List Char) : Option Mapping :=
  (methodSign.isPrefixOf? line).bind fun rest =>
    Verb.all.findSome? fun v => (v.marking.isPrefixOf? rest).map fun arguments => ⟨v, pathOf? arguments⟩

/-- the endpoint that a line declares -/
def mappingOf? (line : String) : Option Mapping := mappingIn? line.toList

/-- the route that a line gives to a controller -/
def routeOf? (line : String) : Option String :=
  (classSign.isPrefixOf? line.toList).bind fun marking =>
    ("RequestMapping(\"".toList.isPrefixOf? marking).bind fun rest =>
      ("\")".toList.isSuffixOf? rest).map String.ofList

/-- the lines declare these routes and these endpoints, in this order -/
structure Answers (lines : List String) (routes : List String) (mappings : List Mapping) : Prop where
  routes : lines.filterMap routeOf? = routes
  mappings : lines.filterMap mappingOf? = mappings

/-! ## Lines that declare nothing -/

/-- a line that declares nothing -/
structure Silent (line : String) : Prop where
  route : routeOf? line = none
  mapping : mappingOf? line = none

/-- two beginnings that no text has both -/
def apart (opening start : List Char) : Bool := !opening.isPrefixOf start && !start.isPrefixOf opening

theorem isPrefixOf?_of_apart {opening start : List Char} (h : apart opening start = true) (rest : List Char) :
    opening.isPrefixOf? (start ++ rest) = none := by
  unfold apart at h
  rw [Bool.and_eq_true, Bool.not_eq_true', Bool.not_eq_true', ← Bool.not_eq_true, ← Bool.not_eq_true,
    List.isPrefixOf_iff_prefix, List.isPrefixOf_iff_prefix] at h
  rw [Option.eq_none_iff_forall_ne_some]
  intro found hfound
  have hopening : opening <+: start ++ rest := ⟨found, List.append_eq_of_isPrefixOf?_eq_some hfound⟩
  rcases List.prefix_or_prefix_of_prefix hopening (List.prefix_append start rest) with hprefix | hprefix
  · exact h.1 hprefix
  · exact h.2 hprefix

/-- a line that begins like no annotation declares nothing, whatever follows -/
theorem silent_of_start {start : List Char} (h : (apart classSign start && apart methodSign start) = true)
    (rest : String) : Silent (String.ofList start ++ rest) := by
  rw [Bool.and_eq_true] at h
  have htext : (String.ofList start ++ rest).toList = start ++ rest.toList := by
    rw [String.toList_append, String.toList_ofList]
  constructor
  · unfold routeOf?
    rw [htext, isPrefixOf?_of_apart h.1]
    rfl
  · unfold mappingOf? mappingIn?
    rw [htext, isPrefixOf?_of_apart h.2]
    rfl

theorem silent_of_chars {cs : List Char} (h : (apart classSign cs && apart methodSign cs) = true) :
    Silent (String.ofList cs) := by
  rw [← String.append_empty (s := String.ofList cs)]
  exact silent_of_start h ""

theorem silent_empty : Silent "" := ⟨by decide, by decide⟩

theorem silent_marking : Silent "@RestController" := ⟨by decide, by decide⟩

namespace Answers

variable {line : String} {lines more routes : List String} {ms : List Mapping}

theorem nil : Answers [] [] [] := ⟨rfl, rfl⟩

theorem silent (hline : Silent line) (h : Answers lines routes ms) : Answers (line :: lines) routes ms where
  routes := by rw [List.filterMap_cons_none hline.route, h.routes]
  mappings := by rw [List.filterMap_cons_none hline.mapping, h.mappings]

theorem append {routes' : List String} {ms' : List Mapping} (h : Answers lines routes ms)
    (hmore : Answers more routes' ms') : Answers (lines ++ more) (routes ++ routes') (ms ++ ms') where
  routes := by rw [List.filterMap_append, h.routes, hmore.routes]
  mappings := by rw [List.filterMap_append, h.mappings, hmore.mappings]

/-- lines that declare nothing in front of others -/
theorem silence (hmore : Answers more [] []) (h : Answers lines routes ms) : Answers (more ++ lines) routes ms :=
  hmore.append h

theorem route {r : String} (hroute : routeOf? line = some r) (hmapping : mappingOf? line = none)
    (h : Answers lines routes ms) : Answers (line :: lines) (r :: routes) ms where
  routes := by rw [List.filterMap_cons_some hroute, h.routes]
  mappings := by rw [List.filterMap_cons_none hmapping, h.mappings]

theorem mapping {m : Mapping} (hroute : routeOf? line = none) (hmapping : mappingOf? line = some m)
    (h : Answers lines routes ms) : Answers (line :: lines) routes (m :: ms) where
  routes := by rw [List.filterMap_cons_none hroute, h.routes]
  mappings := by rw [List.filterMap_cons_some hmapping, h.mappings]

end Answers

theorem answers_route (route : String) {lines : List String} {routes : List String} {ms : List Mapping}
    (h : Answers lines routes ms) : Answers (("@RequestMapping(\"" ++ route ++ "\")") :: lines) (route :: routes) ms := by
  have htext : ("@RequestMapping(\"" ++ route ++ "\")").toList =
      classSign ++ ("RequestMapping(\"".toList ++ (route.toList ++ "\")".toList)) := by
    simp only [String.toList_append, List.append_assoc]
    rfl
  refine .route ?_ ?_ h
  · unfold routeOf?
    rw [htext, List.isPrefixOf?_eq_some_iff_append_eq.2 rfl, Option.bind_some,
      List.isPrefixOf?_eq_some_iff_append_eq.2 rfl, Option.bind_some, List.isSuffixOf?_eq_some_iff_append_eq.2 rfl,
      Option.map_some, String.ofList_toList]
  · unfold mappingOf? mappingIn?
    rw [htext, isPrefixOf?_of_apart rfl]
    rfl

/-- a line that begins like an endpoint declares it, whatever follows -/
theorem answers_mapping {start : List Char} {m : Mapping} (hmapping : ∀ rest, mappingIn? (start ++ rest) = some m)
    (hstart : apart classSign start = true) (rest : String) {lines : List String} {routes : List String}
    {ms : List Mapping} (h : Answers lines routes ms) :
    Answers ((String.ofList start ++ rest) :: lines) routes (m :: ms) := by
  have htext : (String.ofList start ++ rest).toList = start ++ rest.toList := by
    rw [String.toList_append, String.toList_ofList]
  refine .mapping ?_ ?_ h
  · unfold routeOf?
    rw [htext, isPrefixOf?_of_apart hstart]
    rfl
  · unfold mappingOf?
    rw [htext, hmapping]

theorem answers_mapping_of_chars {cs : List Char} {m : Mapping} (hmapping : ∀ rest, mappingIn? (cs ++ rest) = some m)
    (hstart : apart classSign cs = true) {lines : List String} {routes : List String} {ms : List Mapping}
    (h : Answers lines routes ms) : Answers (String.ofList cs :: lines) routes (m :: ms) := by
  rw [← String.append_empty (s := String.ofList cs)]
  exact answers_mapping hmapping hstart "" h

/-- a line that declares where objects are looked up, by a path of its own -/
theorem answers_get (rest : String) {lines : List String} {routes : List String} {ms : List Mapping}
    (h : Answers lines routes ms) :
    Answers (("    @GetMapping(path = \"/" ++ rest) :: lines) routes
      (⟨.get, some (untilQuote ('/' :: rest.toList))⟩ :: ms) := by
  have htext : ("    @GetMapping(path = \"/" ++ rest).toList =
      methodSign ++ (Verb.get.marking ++ ("path = \"".toList ++ '/' :: rest.toList)) := by
    simp only [String.toList_append]
    rfl
  refine .mapping ?_ ?_ h
  · unfold routeOf?
    rw [htext, isPrefixOf?_of_apart rfl]
    rfl
  · unfold mappingOf? mappingIn? pathOf?
    rw [htext, List.isPrefixOf?_eq_some_iff_append_eq.2 rfl, Option.bind_some, Verb.all, List.findSome?_cons,
      List.isPrefixOf?_eq_some_iff_append_eq.2 rfl, Option.map_some, List.isPrefixOf?_eq_some_iff_append_eq.2 rfl]
    rfl

/-! ## Controllers -/

/-- the endpoints by which objects are listed, found, made, changed and removed -/
def crudMappings : List Mapping :=
  [⟨.get, none⟩, ⟨.get, some "/\x7bid\x7d"⟩, ⟨.post, none⟩, ⟨.put, some "/\x7bid\x7d"⟩, ⟨.delete, some "/\x7bid\x7d"⟩]

/-- the further endpoints of a child class look up objects, by paths of their own -/
theorem answers_typedEndpoints (name lower : String) :
    ∃ all one, Answers (typedEndpoints name lower) [] [⟨.get, some all⟩, ⟨.get, some one⟩] := by
  refine ⟨untilQuote ('/' :: (lower ++ "s\", produces = MediaType.APPLICATION_JSON_VALUE)").toList),
    untilQuote ('/' :: (lower ++ "s/\x7bid\x7d\", produces = MediaType.APPLICATION_JSON_VALUE)").toList), ?_⟩
  unfold typedEndpoints
  simp only [String.append_assoc]
  refine .silent silent_empty (answers_get _ ?_)
  iterate 6 refine .silent (by first | exact silent_of_chars (by rfl) | exact silent_of_start (by rfl) _) ?_
  refine .silent silent_empty (answers_get _ ?_)
  iterate 7 refine .silent (by first | exact silent_of_chars (by rfl) | exact silent_of_start (by rfl) _) ?_
  exact .nil

/-- a text without a line end -/
def Unbroken (line : String) : Prop := '\n' ∉ line.toList

theorem unbroken_of_chars {cs : List Char} (h : cs.contains '\n' = false) : Unbroken (String.ofList cs) := by
  unfold Unbroken
  rw [String.toList_ofList]
  exact fun hmem => Bool.false_ne_true (h.symm.trans (List.contains_iff_mem.2 hmem))

theorem unbroken_append {a b : String} : Unbroken (a ++ b) ↔ Unbroken a ∧ Unbroken b := by
  unfold Unbroken
  rw [String.toList_append, List.mem_append, not_or]

/-- the lines of a file in which no line is broken -/
theorem splitChars_text_of_unbroken {lines : List String} (h : ∀ line ∈ lines, Unbroken line) :
    Text.splitChars '\n' (text lines).toList = lines.map String.toList ++ [[]] := by
  rw [splitChars_text]
  congr 1
  rw [List.map_eq_flatMap]
  exact List.flatMap_congr fun line hline => Text.splitChars_of_not_mem (h line hline)

/-- a file whose lines declare one route and these endpoints. What is written as a line is found as a line in the file,
unless the name that the file is written for has a line end in it -/
def Controls (file name route : String) (ms : List Mapping) : Prop :=
  ∃ lines, file = text lines ∧ Answers lines [route] ms ∧
    (Unbroken name → Text.splitChars '\n' file.toList = lines.map String.toList ++ [[]])

/-- **Controllers.** Every controller declares the route of its class and the five endpoints, and that of a child class two
more. -/
theorem controls_controller (e : Entity) :
    ∃ more, Controls (renderController e) e.name (baseRoute e.name) (crudMappings ++ more) ∧
      (e.isChild = false → more = []) ∧ (e.isChild = true → more.map Mapping.verb = [.get, .get]) := by
  obtain ⟨all, one, htyped⟩ := answers_typedEndpoints e.name e.lowerName
  set more : List Mapping := if e.isChild then [⟨.get, some all⟩, ⟨.get, some one⟩] else [] with hmore
  have hchild : Answers (if e.isChild then typedEndpoints e.name e.lowerName else []) [] more := by
    rw [hmore]
    split_ifs
    · exact htyped
    · exact .nil
  have hstreams : Answers (if e.isChild then ["import java.util.stream.Collectors;"] else []) [] [] := by
    split_ifs
    · exact .silent (silent_of_chars (by rfl)) .nil
    · exact .nil
  refine ⟨more, ⟨_, rfl, ?answers, fun hname => splitChars_text_of_unbroken ?unbroken⟩,
    fun h => if_neg (by rw [h]; decide), fun h => by rw [hmore, if_pos h]; rfl⟩
  case answers =>
    simp only [List.cons_append, List.nil_append, List.append_assoc, String.append_assoc]
    iterate 5
      refine .silent (by first | exact silent_empty | exact silent_of_chars (by rfl) | exact silent_of_start (by rfl) _) ?_
    refine hstreams.silence ?_
    iterate 4
      refine .silent (by first | exact silent_empty | exact silent_of_chars (by rfl)) ?_
    refine .silent silent_marking (answers_route _ ?_)
    iterate 7
      refine .silent (by first | exact silent_empty | exact silent_of_chars (by rfl) | exact silent_of_start (by rfl) _) ?_
    refine answers_mapping_of_chars (m := ⟨.get, none⟩) (fun _ => by rfl) (by rfl) ?_
    iterate 4
      refine .silent (by first | exact silent_empty | exact silent_of_chars (by rfl) | exact silent_of_start (by rfl) _) ?_
    refine answers_mapping_of_chars (m := ⟨.get, some "/\x7bid\x7d"⟩) (fun _ => by rfl) (by rfl) ?_
    iterate 6
      refine .silent (by first | exact silent_empty | exact silent_of_chars (by rfl) | exact silent_of_start (by rfl) _) ?_
    refine answers_mapping_of_chars (m := ⟨.post, none⟩) (fun _ => by rfl) (by rfl) ?_
    iterate 4
      refine .silent (by first | exact silent_empty | exact silent_of_chars (by rfl) | exact silent_of_start (by rfl) _) ?_
    refine answers_mapping (m := ⟨.put, some "/\x7bid\x7d"⟩) (fun _ => by rfl) (by rfl) _ ?_
    iterate 4
      refine .silent (by first | exact silent_empty | exact silent_of_chars (by rfl) | exact silent_of_start (by rfl) _) ?_
    refine answers_mapping_of_chars (m := ⟨.delete, some "/\x7bid\x7d"⟩) (fun _ => by rfl) (by rfl) ?_
    iterate 4
      refine .silent (by first | exact silent_empty | exact silent_of_chars (by rfl)) ?_
    rw [← List.append_nil more]
    exact hchild.append (.silent (silent_of_chars (by rfl)) .nil)
  case unbroken =>
    have hlower : Unbroken (Naming.lowerFirst e.name) := Text.lineEnd_not_mem_lowerFirst hname
    unfold typedEndpoints baseRoute Entity.lowerName basePackage
    split_ifs
    -- the lines without their names
    all_goals
      simp only [List.forall_mem_append, List.forall_mem_cons, unbroken_append, hname, hlower,
        and_true, List.not_mem_nil, false_imp_iff, implies_true]
      repeat' refine And.intro ?_ ?_
      all_goals exact unbroken_of_chars (by rfl)

end Java

end Classwright
