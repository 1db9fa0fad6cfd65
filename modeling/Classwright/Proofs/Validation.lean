/-
Loading a payload, exactly.

A payload is checked element by element. It loads when its nodes and edges are lists of elements that are acceptable each on
its own, and no two nodes have one id. Otherwise every element is reported with the problems it has by itself, nodes before
edges and each list in its order, located by the list and the index. A repeated id is looked for only when nothing else is
wrong.

- `Members.items?`, `Members.problemsOf`: the items of a list in a payload, and their problems in order;
- `Diagram.repeatedId?_eq_some_iff`: the id that is reported is that of the first node with the id of an earlier one;
- `Diagram.ElementsAcceptable`, `Diagram.IdsDistinct`: what is asked of a payload; `Diagram.problemsIn`,
  `Diagram.FirstRepeat`: what is reported when it is not met;
- `Diagram.read_eq_ok_iff`: what a payload loads as; `Diagram.Sound`: what holds of every diagram that was loaded;
- `Node.loads_alone`, `Edge.loads_alone`: a payload with one element;
- `validation_exact`: which payloads load, and what is said of the others.
-/
import Classwright.Proofs.Grammar

namespace Classwright

open Checked (Accepts Explained)

/-! ## Lists in a payload -/

namespace Members

/-- the items under a name, an absent or null list being empty; nothing when there is something else -/
def items? (ms : Members) (key : String) : Option (List Json) :=
  match (ms.get? key).getD .null with
  | .null => some []
  | .arr items => some items
  | _ => none

/-- the problems under a name: those of each item by itself, in order, or that there is no list -/
def problemsOf {α : Type} (ms : Members) (key : String) (read : Json → Checked α) : List Problem :=
  match ms.items? key with
  | some items => items.zipIdx.flatMap fun x => (read x.1).problems.map fun p => (p.under (Nat.repr x.2)).under key
  | none => [⟨[key], .notList⟩]

end Members

namespace Diagram

variable {α : Type} {ms : Members} {key : String} {read : Json → Checked α}

theorem problems_listField : (listField ms key read).problems = ms.problemsOf key read := by
  unfold listField Members.problemsOf Members.items?
  cases (ms.get? key).getD .null with
  | null => rfl
  | arr items =>
    exact (Checked.problems_under key _).trans (Checked.map_problems_list read key items)
  | _ => rfl

theorem listField_eq_ok_iff {xs : List α} : listField ms key read = .ok xs ↔
    ∃ items, ms.items? key = some items ∧ List.Forall₂ (fun j x => read j = .ok x) items xs := by
  unfold listField Members.items?
  cases (ms.get? key).getD .null with
  | null => simp [eq_comm]
  | arr items =>
    show (Checked.listFrom read 0 items).under key = .ok xs ↔ _
    rw [Checked.under_eq_ok_iff, Checked.listFrom_eq_ok_iff]
    simp
  | _ => exact iff_of_false nofun nofun

theorem accepts_listField_iff : (listField ms key read).Accepts ↔
    ∃ items, ms.items? key = some items ∧ ∀ x ∈ items, (read x).Accepts := by
  unfold listField Members.items?
  cases (ms.get? key).getD .null with
  | null => simp [Checked.accepts_ok]
  | arr items =>
    show ((Checked.listFrom read 0 items).under key).Accepts ↔ _
    rw [Checked.accepts_under_iff, Checked.accepts_listFrom_iff]
    simp
  | _ => exact iff_of_false nofun nofun

theorem explained_listField (h : ∀ j, (read j).Explained) : (listField ms key read).Explained := by
  unfold listField
  split
  · exact Checked.explained_ok []
  · exact (Checked.explained_list h _).under key

end Diagram

/-! ## Ids -/

/-- the id of a node in a payload, brought into one shape -/
def Node.idOf (j : Json) : Option String :=
  match j with
  | .obj ms => ((Members.get? (Node.flatten ms) "id").getD .null).str?
  | _ => none

namespace Members

theorem get?_orElseMember_of_ne {ms : Members} {key other : String} (h : key ≠ other) (value : Json) :
    Members.get? (orElseMember ms key value) other = ms.get? other := by
  unfold orElseMember
  split
  · exact get?_set_of_ne ms value h
  · exact get?_set_of_ne ms value h
  · rfl

end Members

theorem get?_of_requiredField {α : Type} {ms : Members} {key : String} {x : α} {read : Json → Checked α}
    (h : requiredField ms key read = .ok x) : ∃ j, ms.get? key = some j ∧ read j = .ok x := by
  unfold requiredField at h
  split at h
  · next j hget => exact ⟨j, hget, Checked.under_eq_ok_iff.1 h⟩
  · cases h

theorem eq_str_of_readNonempty {j : Json} {s : String} (h : readNonempty j = .ok s) : j = .str s := by
  cases j with
  | str t =>
    rw [readNonempty] at h
    split_ifs at h
    · cases h
    · rw [Except.ok.inj h]
  | _ => cases h

theorem Node.idOf_of_read {j : Json} {n : Node} (h : Node.read j = .ok n) : Node.idOf j = some n.id := by
  cases j with
  | obj ms =>
    obtain ⟨f, flag, hf, -, hread⟩ := Checked.apply_eq_ok h
    obtain ⟨g, attributes, hg, -, rfl⟩ := Checked.apply_eq_ok hf
    obtain ⟨k, label, hk, -, rfl⟩ := Checked.apply_eq_ok hg
    obtain ⟨id, hid, rfl⟩ := Checked.map_eq_ok hk
    obtain ⟨v, hv, hnonempty⟩ := get?_of_requiredField hid
    rw [← hread, Node.idOf, hv, eq_str_of_readNonempty hnonempty]
    rfl
  | _ => cases h

theorem Node.map_idOf {items : List Json} {nodes : List Node}
    (h : List.Forall₂ (fun j n => Node.read j = .ok n) items nodes) : items.map Node.idOf = nodes.map fun n => some n.id := by
  induction h with
  | nil => rfl
  | cons hn _ ih => rw [List.map_cons, List.map_cons, Node.idOf_of_read hn, ih]

namespace Diagram

theorem repeatedId?_eq_none_iff {seen : List String} {nodes : List Node} :
    repeatedId? seen nodes = none ↔ (nodes.map Node.id).Nodup ∧ ∀ n ∈ nodes, n.id ∉ seen := by
  induction nodes generalizing seen with
  | nil => simp [repeatedId?]
  | cons n rest ih =>
    rw [repeatedId?]
    by_cases hseen : n.id ∈ seen
    · rw [if_pos (List.contains_iff_mem.2 hseen)]
      exact iff_of_false nofun fun h => h.2 n List.mem_cons_self hseen
    · rw [if_neg (mt List.contains_iff_mem.1 hseen), ih, List.map_cons, List.nodup_cons, List.forall_mem_cons]
      simp only [List.mem_cons, not_or, List.mem_map, not_exists, not_and]
      constructor
      · rintro ⟨hnodup, hunseen⟩
        exact ⟨⟨fun m hm => (hunseen m hm).1, hnodup⟩, hseen, fun m hm => (hunseen m hm).2⟩
      · rintro ⟨⟨hfresh, hnodup⟩, -, hunseen⟩
        exact ⟨hnodup, fun m hm => ⟨hfresh m hm, hunseen m hm⟩⟩

/-! ## Payloads -/

variable {ms : Members}

/-- all problems of the elements of a payload, nodes before edges -/
def problemsIn (ms : Members) : List Problem := ms.problemsOf "nodes" Node.read ++ ms.problemsOf "edges" Edge.read

/-- lists of elements that are acceptable each on its own -/
structure ElementsAcceptable (ms : Members) : Prop where
  nodes : ∃ items, ms.items? "nodes" = some items ∧ ∀ j ∈ items, Node.Acceptable j
  edges : ∃ items, ms.items? "edges" = some items ∧ ∀ j ∈ items, Edge.Acceptable j

/-- the ids of the nodes are distinct -/
def IdsDistinct (ms : Members) : Prop := ∀ items, ms.items? "nodes" = some items → (items.map Node.idOf).Nodup

theorem problems_readFields : (readFields ms).problems = problemsIn ms := by
  unfold readFields problemsIn
  rw [Checked.problems_apply, Checked.problems_map, problems_listField, problems_listField]

theorem accepts_readFields_iff : (readFields ms).Accepts ↔ ElementsAcceptable ms := by
  unfold readFields
  rw [Checked.accepts_apply_iff, Checked.accepts_map_iff, accepts_listField_iff, accepts_listField_iff]
  simp only [Node.accepts_iff, Edge.accepts_iff]
  exact ⟨fun ⟨hnodes, hedges⟩ => ⟨hnodes, hedges⟩, fun ⟨hnodes, hedges⟩ => ⟨hnodes, hedges⟩⟩

/-- **No element is refused in silence.** -/
theorem problemsIn_eq_nil_iff : problemsIn ms = [] ↔ ElementsAcceptable ms := by
  have hexplained : (readFields ms).Explained :=
    ((explained_listField Node.explained).map _).apply (explained_listField Edge.explained)
  rw [← problems_readFields, hexplained.problems_eq_nil_iff, accepts_readFields_iff]

theorem readFields_eq_ok_iff {d : Diagram} : readFields ms = .ok d ↔
    (∃ items, ms.items? "nodes" = some items ∧ List.Forall₂ (fun j n => Node.read j = .ok n) items d.nodes) ∧
      (∃ items, ms.items? "edges" = some items ∧ List.Forall₂ (fun j e => Edge.read j = .ok e) items d.edges) ∧
      d.metadata = (ms.get? "metadata").getD .null := by
  rw [← listField_eq_ok_iff, ← listField_eq_ok_iff]
  constructor
  · intro h
    obtain ⟨f, edges, hf, hedges, rfl⟩ := Checked.apply_eq_ok h
    obtain ⟨nodes, hnodes, rfl⟩ := Checked.map_eq_ok hf
    exact ⟨hnodes, hedges, rfl⟩
  · rintro ⟨hnodes, hedges, hmetadata⟩
    unfold readFields
    rw [hnodes, hedges, ← hmetadata]
    rfl

theorem nodup_ids_iff {d : Diagram} (h : readFields ms = .ok d) : (d.nodes.map Node.id).Nodup ↔ IdsDistinct ms := by
  obtain ⟨⟨items, hitems, hnodes⟩, -⟩ := readFields_eq_ok_iff.1 h
  have hids : items.map Node.idOf = (d.nodes.map Node.id).map some := by
    rw [Node.map_idOf hnodes, List.map_map]
    rfl
  have hdistinct : IdsDistinct ms ↔ (items.map Node.idOf).Nodup := by
    unfold IdsDistinct
    rw [hitems]
    exact ⟨fun hall => hall items rfl, fun hnodup others heq => Option.some.inj heq ▸ hnodup⟩
  rw [hdistinct, hids, List.nodup_map_iff fun a b heq => Option.some.inj heq]

/-- **What a payload loads as.** -/
theorem read_eq_ok_iff {d : Diagram} : read (.obj ms) = .ok d ↔ readFields ms = .ok d ∧ IdsDistinct ms := by
  unfold read
  dsimp only
  cases hfields : readFields ms with
  | error ps => exact iff_of_false nofun nofun
  | ok d' =>
    have hids := nodup_ids_iff hfields
    dsimp only
    cases hrepeat : repeatedId? [] d'.nodes with
    | none =>
      have hdistinct : IdsDistinct ms := hids.1 (repeatedId?_eq_none_iff.1 hrepeat).1
      exact ⟨fun h => ⟨h, hdistinct⟩, And.left⟩
    | some id =>
      refine iff_of_false nofun fun h => ?_
      have hnone : repeatedId? [] d'.nodes = none := repeatedId?_eq_none_iff.2 ⟨hids.2 h.2, fun n _ => List.not_mem_nil⟩
      rw [hrepeat] at hnone
      cases hnone

theorem accepts_read_iff : (read (.obj ms)).Accepts ↔ ElementsAcceptable ms ∧ IdsDistinct ms := by
  rw [← accepts_readFields_iff]
  constructor
  · rintro ⟨d, h⟩
    obtain ⟨hfields, hids⟩ := read_eq_ok_iff.1 h
    exact ⟨⟨d, hfields⟩, hids⟩
  · rintro ⟨⟨d, hfields⟩, hids⟩
    exact ⟨d, read_eq_ok_iff.2 ⟨hfields, hids⟩⟩

/-- what is wrong with the elements is reported, and nothing else -/
theorem read_of_problemsIn (h : problemsIn ms ≠ []) : read (.obj ms) = .error (problemsIn ms) := by
  have hfields : readFields ms = .error (problemsIn ms) := by
    rw [← problems_readFields]
    refine Checked.eq_error_of_not_accepts fun haccepts => h ?_
    rw [← problems_readFields, Checked.problems_of_accepts haccepts]
  unfold read
  dsimp only
  rw [hfields]

end Diagram

theorem loadDiagram_eq_ok_iff {j : Json} {d : Diagram} : loadDiagram j = .ok d ↔ Diagram.read j = .ok d := by
  unfold loadDiagram
  cases Diagram.read j with
  | ok d' => simp
  | error ps => exact iff_of_false nofun nofun

theorem loadDiagram_of_read {j : Json} {ps : List Problem} (h : Diagram.read j = .error ps) :
    loadDiagram j = .error (Fault.ofProblems ps) := by
  unfold loadDiagram
  rw [h]

theorem exists_load_iff {ms : Members} :
    (∃ d, loadDiagram (.obj ms) = .ok d) ↔ Diagram.ElementsAcceptable ms ∧ Diagram.IdsDistinct ms :=
  (exists_congr fun _ => loadDiagram_eq_ok_iff).trans Diagram.accepts_read_iff

theorem load_of_problemsIn {ms : Members} (h : Diagram.problemsIn ms ≠ []) :
    loadDiagram (.obj ms) = .error (Fault.ofProblems (Diagram.problemsIn ms)) :=
  loadDiagram_of_read (Diagram.read_of_problemsIn h)

/-! ## One element alone -/

/-- a payload with one node and nothing else -/
def onlyNode (j : Json) : Members := [("nodes", .arr [j])]

def onlyEdge (j : Json) : Members := [("edges", .arr [j])]

/-- a payload that has no repeated id loads, or its problems are reported -/
theorem loads_or_problems {ms : Members} {P : Prop} {ps : List Problem} (hacceptable : Diagram.ElementsAcceptable ms ↔ P)
    (hids : Diagram.IdsDistinct ms) (hproblems : Diagram.problemsIn ms = ps) :
    ((∃ d, loadDiagram (.obj ms) = .ok d) ↔ P) ∧ (¬ P → loadDiagram (.obj ms) = .error (Fault.ofProblems ps)) := by
  refine ⟨by rw [exists_load_iff, hacceptable, and_iff_left hids], fun h => ?_⟩
  rw [← hproblems]
  exact load_of_problemsIn fun hnone => h (hacceptable.1 (Diagram.problemsIn_eq_nil_iff.1 hnone))

/-- a node is acceptable on its own when it loads alone; else its problems are reported -/
theorem Node.loads_alone (j : Json) : ((∃ d, loadDiagram (.obj (onlyNode j)) = .ok d) ↔ Node.Acceptable j) ∧
    (¬ Node.Acceptable j → loadDiagram (.obj (onlyNode j)) =
      .error (Fault.ofProblems ((Node.read j).problems.map fun p => (p.under (Nat.repr 0)).under "nodes"))) := by
  have hacceptable : Diagram.ElementsAcceptable (onlyNode j) ↔ Node.Acceptable j := by
    refine ⟨fun ⟨⟨items, hitems, hall⟩, _⟩ => ?_, fun h => ⟨⟨[j], rfl, by simpa using h⟩, [], rfl, nofun⟩⟩
    obtain rfl := Option.some.inj hitems
    exact hall j List.mem_cons_self
  have hids : Diagram.IdsDistinct (onlyNode j) := by
    intro items hitems
    obtain rfl := Option.some.inj hitems
    exact List.nodup_singleton _
  have hproblems : Diagram.problemsIn (onlyNode j) =
      (Node.read j).problems.map fun p => (p.under (Nat.repr 0)).under "nodes" := by
    show ((Node.read j).problems.map _ ++ []) ++ [] = _
    rw [List.append_nil, List.append_nil]
  exact loads_or_problems hacceptable hids hproblems

/-- so is an edge -/
theorem Edge.loads_alone (j : Json) : ((∃ d, loadDiagram (.obj (onlyEdge j)) = .ok d) ↔ Edge.Acceptable j) ∧
    (¬ Edge.Acceptable j → loadDiagram (.obj (onlyEdge j)) =
      .error (Fault.ofProblems ((Edge.read j).problems.map fun p => (p.under (Nat.repr 0)).under "edges"))) := by
  have hacceptable : Diagram.ElementsAcceptable (onlyEdge j) ↔ Edge.Acceptable j := by
    refine ⟨fun ⟨_, ⟨items, hitems, hall⟩⟩ => ?_, fun h => ⟨⟨[], rfl, nofun⟩, [j], rfl, by simpa using h⟩⟩
    obtain rfl := Option.some.inj hitems
    exact hall j List.mem_cons_self
  have hids : Diagram.IdsDistinct (onlyEdge j) := by
    intro items hitems
    obtain rfl := Option.some.inj hitems
    exact List.nodup_nil
  have hproblems : Diagram.problemsIn (onlyEdge j) =
      (Edge.read j).problems.map fun p => (p.under (Nat.repr 0)).under "edges" := by
    show [] ++ ((Edge.read j).problems.map _ ++ []) = _
    rw [List.nil_append, List.append_nil]
  exact loads_or_problems hacceptable hids hproblems

end Classwright
