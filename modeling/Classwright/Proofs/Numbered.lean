/-
The fields of a plan in closed form.

The links of a diagram stand in the order of its edges. The number of a link counts the links up to it that tie the same
two classes together, whichever way round. Every field of a plan comes from one numbered link, and the fields of a class
stand in the order of their links.

- `numbered`: links with their numbers; `pairwise_numbered`: two links of one pair have ascending numbers;
- `Layout.rows_tieAll`: what tying links in sequence adds to each class;
- `outline_of_build`: the classes of a plan with their fields, from the links of the diagram alone.
-/
import Mathlib.Data.List.Flatten
import Mathlib.Order.Defs.LinearOrder
import Mathlib.Data.String.Basic
import Classwright.Proofs.Layout

namespace Classwright

/-! ## Counting pairs -/

namespace Numbering

/-- the same two classes, whichever way round -/
def SamePair (a b c d : String) : Prop := (a = c ∧ b = d) ∨ (a = d ∧ b = c)

instance (a b c d : String) : Decidable (SamePair a b c d) := by unfold SamePair; infer_instance

theorem key_eq_iff (a b c d : String) : key a b = key c d ↔ SamePair a b c d := by
  unfold key SamePair
  split_ifs with hab hcd hcd <;> simp only [Prod.mk.injEq]
  · constructor
    · exact Or.inl
    · rintro (h | ⟨rfl, rfl⟩)
      · exact h
      · exact ⟨le_antisymm hab hcd, le_antisymm hcd hab⟩
  · constructor
    · exact Or.inr
    · rintro (⟨rfl, rfl⟩ | h)
      · exact absurd hab hcd
      · exact h
  · constructor
    · rintro ⟨hb, ha⟩
      exact Or.inr ⟨ha, hb⟩
    · rintro (⟨rfl, rfl⟩ | ⟨ha, hb⟩)
      · exact absurd hcd hab
      · exact ⟨hb, ha⟩
  · constructor
    · rintro ⟨hb, ha⟩
      exact Or.inl ⟨ha, hb⟩
    · rintro (⟨ha, hb⟩ | ⟨rfl, rfl⟩)
      · exact ⟨hb, ha⟩
      · exact absurd (le_of_lt (not_le.1 hab)) hcd

theorem count_advance (n : Numbering) (a b c d : String) :
    (n.advance a b).count c d = if SamePair a b c d then n.count c d + 1 else n.count c d := by
  unfold count advance
  simp only [Table.get?_set, key_eq_iff]
  split_ifs with h
  · rw [← (key_eq_iff a b c d).2 h]
    rfl
  · rfl

end Numbering

namespace Link

open Classwright.Numbering (SamePair)

/-- between the same two classes -/
def samePair (k l : Link) : Bool := decide (SamePair k.source k.target l.source l.target)

/-- which of its pair a link is, after some earlier ones -/
def rank (earlier : List Link) (k : Link) : Nat := earlier.countP (samePair k) + 1

theorem samePair_iff {k l : Link} : k.samePair l = true ↔
    (k.source = l.source ∧ k.target = l.target) ∨ (k.source = l.target ∧ k.target = l.source) :=
  decide_eq_true_iff

theorem samePair_congr {k l : Link} (h : k.samePair l) : samePair l = samePair k := by
  funext m
  rw [Bool.eq_iff_iff, samePair_iff, samePair_iff]
  rcases samePair_iff.1 h with ⟨hs, ht⟩ | ⟨hs, ht⟩
  · rw [hs, ht]
  · rw [hs, ht, or_comm, and_comm (a := l.source = m.target), and_comm (a := l.source = m.source)]

end Link

/-- links with their numbers, after some earlier ones -/
def numbered (earlier : List Link) : List Link → List (Link × Nat)
  | [] => []
  | k :: rest => (k, Link.rank earlier k) :: numbered (earlier ++ [k]) rest

theorem rank_le_of_mem_numbered {ks earlier : List Link} {n : Link × Nat} (h : n ∈ numbered earlier ks) :
    Link.rank earlier n.1 ≤ n.2 := by
  induction ks generalizing earlier with
  | nil => cases h
  | cons k rest ih =>
    rcases List.mem_cons.1 h with rfl | h
    · exact le_rfl
    · refine le_trans ?_ (ih h)
      simp only [Link.rank, List.countP_append]
      omega

theorem pos_of_mem_numbered {ks earlier : List Link} {n : Link × Nat} (h : n ∈ numbered earlier ks) : 1 ≤ n.2 :=
  le_trans (Nat.le_add_left 1 _) (rank_le_of_mem_numbered h)

theorem mem_of_mem_numbered {ks earlier : List Link} {n : Link × Nat} (h : n ∈ numbered earlier ks) : n.1 ∈ ks := by
  induction ks generalizing earlier with
  | nil => cases h
  | cons k rest ih =>
    rcases List.mem_cons.1 h with rfl | h
    · exact List.mem_cons_self
    · exact List.mem_cons_of_mem _ (ih h)

/-- **Numbers ascend within a pair.** -/
theorem pairwise_numbered (ks earlier : List Link) :
    (numbered earlier ks).Pairwise fun n m => n.1.samePair m.1 → n.2 < m.2 := by
  induction ks generalizing earlier with
  | nil => exact List.Pairwise.nil
  | cons k rest ih =>
    refine List.Pairwise.cons (fun m hm hsame => ?_) (ih (earlier ++ [k]))
    change k.samePair m.1 = true at hsame
    have hrank := rank_le_of_mem_numbered hm
    have hself : k.samePair k := Link.samePair_iff.2 (Or.inl ⟨rfl, rfl⟩)
    rw [Link.rank, Link.samePair_congr hsame, List.countP_append, List.countP_singleton, if_pos hself] at hrank
    show Link.rank earlier k < m.2
    unfold Link.rank
    omega

/-! ## What links add to a layout -/

/-- the fields of numbered links, each with its class -/
def placements (ns : List (Link × Nat)) : List Placed := ns.flatMap fun n => n.1.fields n.2

/-- the fields of one class -/
def onClass (name : String) (ps : List Placed) : List RelationField :=
  (ps.filter fun p => p.owner = name).map fun p => p.field.plain

theorem onClass_append (name : String) (ps qs : List Placed) :
    onClass name (ps ++ qs) = onClass name ps ++ onClass name qs := by
  simp [onClass]

namespace Layout

theorem rows_placeAll (l : Layout) (ps : List Placed) :
    (l.placeAll ps).rows = l.rows.map fun r => (r.1, r.2 ++ onClass r.1 ps) := by
  induction ps generalizing l with
  | nil => simp [placeAll, onClass]
  | cons p rest ih =>
    rw [placeAll, List.foldl_cons]
    refine (ih (l.place p)).trans ?_
    simp only [place, List.map_map]
    refine List.map_congr_left fun r _ => ?_
    simp only [Function.comp_apply]
    by_cases h : r.1 = p.owner
    · simp [onClass, h]
    · simp [onClass, h, Ne.symm h]

theorem numbering_placeAll (l : Layout) (ps : List Placed) : (l.placeAll ps).numbering = l.numbering := by
  induction ps generalizing l with
  | nil => rfl
  | cons p rest ih => exact ih (l.place p)

theorem rows_tie (l : Layout) (k : Link) :
    (l.tie k).rows = l.rows.map fun r => (r.1, r.2 ++ onClass r.1 (k.fields (l.number k))) :=
  rows_placeAll _ _

theorem number_tie (l : Layout) (k m : Link) :
    (l.tie k).number m = if m.samePair k then l.number m + 1 else l.number m := by
  unfold number tie
  rw [numbering_placeAll, Numbering.count_advance]
  have hsymm : Numbering.SamePair k.source k.target m.source m.target ↔ m.samePair k = true := by
    rw [Link.samePair_iff, Numbering.SamePair, eq_comm, eq_comm (a := k.target), eq_comm (a := k.source),
      eq_comm (a := k.target) (b := m.source), and_comm (a := m.target = k.source)]
  simp only [hsymm]
  split_ifs <;> rfl

/-- a layout that has counted the links before it -/
def Counts (l : Layout) (earlier : List Link) : Prop := ∀ k, l.number k = Link.rank earlier k

theorem Counts.tie {l : Layout} {earlier : List Link} (h : l.Counts earlier) (k : Link) :
    (l.tie k).Counts (earlier ++ [k]) := by
  intro m
  rw [number_tie, h m]
  unfold Link.rank
  rw [List.countP_append, List.countP_singleton]
  split_ifs <;> rfl

/-- **Tying links in sequence.** Each class gets the fields of the numbered links that belong to it. -/
theorem rows_tieAll {l : Layout} {earlier : List Link} (h : l.Counts earlier) (ks : List Link) :
    (l.tieAll ks).rows = l.rows.map fun r => (r.1, r.2 ++ onClass r.1 (placements (numbered earlier ks))) := by
  induction ks generalizing l earlier with
  | nil => simp [tieAll, numbered, placements, onClass]
  | cons k rest ih =>
    rw [tieAll, List.foldl_cons]
    refine (ih (h.tie k)).trans ?_
    rw [rows_tie, List.map_map, h k]
    refine List.map_congr_left fun r _ => ?_
    simp only [Function.comp_apply, numbered, placements, List.flatMap_cons, onClass_append, List.append_assoc]

end Layout

/-! ## Plans -/

namespace Diagram

/-- the links of the edges outside hierarchies, in the order of the edges -/
def links (d : Diagram) : List Link :=
  (d.edges.filter fun e => !Plan.isInheritance e).flatMap fun e => d.nameTable.linksOf (Plan.fieldCall e)

/-- the fields of every class of a diagram -/
def placements (d : Diagram) : List Placed := Classwright.placements (numbered [] d.links)

theorem named_of_mem_links {d : Diagram} {l : Link} (h : l ∈ d.links) :
    (∃ id, d.nameTable.named? id = some l.source) ∧ ∃ id, d.nameTable.named? id = some l.target := by
  obtain ⟨e, -, hl⟩ := List.mem_flatMap.1 h
  exact NameTable.named_of_mem_linksOf hl

theorem mem_placements {d : Diagram} {p : Placed} (h : p ∈ d.placements) : ∃ l ∈ d.links, ∃ k, 1 ≤ k ∧ p ∈ l.fields k := by
  obtain ⟨n, hn, hp⟩ := List.mem_flatMap.1 h
  exact ⟨n.1, mem_of_mem_numbered hn, n.2, pos_of_mem_numbered hn, hp⟩

/-- what holds of the fields of one link, and between the fields of two links of which the first has the smaller number
if they are links of one pair, holds between the fields of a diagram -/
theorem pairwise_placements {d : Diagram} {R : Placed → Placed → Prop}
    (within : ∀ l ∈ d.links, ∀ k, 1 ≤ k → (l.fields k).Pairwise R)
    (across : ∀ l ∈ d.links, ∀ m ∈ d.links, ∀ i j, 1 ≤ i → 1 ≤ j → (l.samePair m → i < j) →
      ∀ p ∈ l.fields i, ∀ q ∈ m.fields j, R p q) :
    d.placements.Pairwise R := by
  unfold placements Classwright.placements
  rw [List.pairwise_flatMap]
  refine ⟨fun n hn => within _ (mem_of_mem_numbered hn) _ (pos_of_mem_numbered hn), ?_⟩
  refine (pairwise_numbered d.links []).imp_of_mem fun hn hm hlt => ?_
  exact across _ (mem_of_mem_numbered hn) _ (mem_of_mem_numbered hm) _ _ (pos_of_mem_numbered hn)
    (pos_of_mem_numbered hm) hlt

end Diagram

namespace Plan

/-- in a run that comes to its end, every call ties the links it asks for -/
theorem layout_of_takeAll {p q : Progress} {cs : List Call} (h : p.takeAll cs = .ok q) :
    q.session.layout = p.session.layout.tieAll (cs.flatMap p.session.names.linksOf) := by
  induction cs generalizing p with
  | nil => cases h; rfl
  | cons c rest ih =>
    obtain ⟨p', b, hsession, hb, hrest⟩ := Progress.step_of_takeAll h
    have hlayout : p'.session.layout = p.session.layout.tieAll (p.session.names.linksOf c) := by
      rw [hsession]
      rcases Session.layout_step p.session c with ⟨⟨x, hx⟩, -⟩ | ⟨-, hl⟩
      · rw [hb] at hx; cases hx
      · exact hl
    rw [ih hrest, hlayout, hsession, Session.names_step, List.flatMap_cons, Layout.tieAll, Layout.tieAll, Layout.tieAll,
      List.foldl_append]

theorem flatMap_linksOf_calls (t : NameTable) (edges : List Edge) :
    (calls edges).flatMap t.linksOf =
      (edges.filter fun e => !isInheritance e).flatMap fun e => t.linksOf (fieldCall e) := by
  have hinherit : ((edges.filter isInheritance).map Call.inherit).flatMap t.linksOf = [] := by
    rw [List.flatMap_eq_nil_iff]
    intro c hc
    obtain ⟨e, -, rfl⟩ := List.mem_map.1 hc
    rfl
  unfold calls
  rw [List.flatMap_append, List.flatMap_append, hinherit, List.flatMap_map]
  rfl

/-- **The fields of a plan.** -/
theorem outline_of_build {policy : Policy} {d : Diagram} {p : Plan} (h : build policy d = .ok p) :
    p.entities.map Entity.outline = d.nameTable.names.map fun n => (n, onClass n d.placements) := by
  obtain ⟨q, hrun, hentities⟩ := run_of_build h
  have hcounts : (Session.start d.nameTable policy).layout.Counts [] := fun k => rfl
  have hlayout := layout_of_takeAll hrun
  have hlinks : (calls d.edges).flatMap (begin policy d).session.names.linksOf = d.links :=
    flatMap_linksOf_calls _ _
  rw [hlinks] at hlayout
  rw [hentities]
  show q.session.layout.rows = _
  rw [hlayout]
  refine (Layout.rows_tieAll hcounts d.links).trans ?_
  simp only [Session.layout, Session.start, List.map_map, NameTable.names]
  refine List.map_congr_left fun c _ => ?_
  simp [Entity.outline, Diagram.placements]

/-- the fields of one class of a plan, without their share of the key -/
theorem fields_of_build {policy : Policy} {d : Diagram} {p : Plan} (h : build policy d = .ok p) {e : Entity}
    (he : e ∈ p.entities) : e.fields.map RelationField.plain = onClass e.name d.placements := by
  have hmem : e.outline ∈ d.nameTable.names.map fun n => (n, onClass n d.placements) := by
    rw [← outline_of_build h]
    exact List.mem_map_of_mem he
  obtain ⟨n, -, hn⟩ := List.mem_map.1 hmem
  obtain ⟨hname, hfields⟩ := Prod.mk.inj hn
  rw [← hname, hfields]

end Plan

end Classwright
