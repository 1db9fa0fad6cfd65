/-
The fields of a session without the keys they share.

A part that changes its whole keeps the field to its earlier whole; the field only loses its share of the key. Fields are
therefore compared without it (`RelationField.plain`), and what is left of a session is a `Layout`: the fields of each
class and the numbering. A call does one simple thing to a layout: it ties classes together, pair by pair.

- `Link`: two classes to be tied together, in one of five shapes; `Link.fields` gives the pair of fields;
- `NameTable.linksOf`: the links a call asks for, read off the edge and the names alone;
- `layout_step`: a call that ends in a conflict changes nothing, every other call ties the links it asks for.
-/
import Mathlib.Data.List.Nodup
import Classwright.Plan.Basic
import Classwright.Proofs.Calls
import Classwright.Proofs.Classes

namespace Classwright

/-- a field without its share of the key -/
def RelationField.plain (f : RelationField) : RelationField := { f with mapsId := none }

def Entity.outline (e : Entity) : String × List RelationField := (e.name, e.fields.map RelationField.plain)

/-- where no name comes twice, a class is found by its name -/
theorem Entity.find?_eq {es : List Entity} (h : (es.map Entity.name).Nodup) {e : Entity} (he : e ∈ es) :
    (es.find? fun e' => e'.name == e.name) = some e := by
  have hsome : (es.find? fun e' => e'.name == e.name).isSome := List.find?_isSome.2 ⟨e, he, by simp⟩
  obtain ⟨r, hr⟩ := Option.isSome_iff_exists.1 hsome
  have hname : r.name = e.name := by simpa using List.find?_some hr
  rw [hr, List.inj_on_of_nodup_map h (List.mem_of_find?_eq_some hr) he hname]

/-! ## Links -/

/-- how two classes are tied together -/
inductive LinkShape where
  | byCardinality (sourceMany targetMany : Bool)
  | viaClass
  | composition
  deriving DecidableEq, Repr

structure Link where
  shape : LinkShape
  source : String
  target : String
  deriving DecidableEq, Repr

/-- the fields of the link that is the `k`-th between its two classes -/
def Link.fields (l : Link) (k : Nat) : List Placed :=
  match l.shape with
  | .byCardinality sourceMany targetMany =>
    Relationship.byCardinality l.source l.target (Numbering.suffix k) sourceMany targetMany
  | .viaClass => Relationship.viaClass l.source l.target (Numbering.suffix k)
  | .composition => Relationship.composition l.source l.target (Numbering.suffix k)

namespace NameTable

/-- the links between two classes that an edge outside hierarchies and compositions asks for -/
def plainLinks (t : NameTable) (e : Edge) (source target : String) : List Link :=
  match t.assoc? e with
  | some j => [⟨.viaClass, source, j⟩, ⟨.viaClass, target, j⟩]
  | none => [⟨.byCardinality (Naming.isMany e.sourceCardinality) (Naming.isMany e.targetCardinality), source, target⟩]

/-- the links that a call asks for -/
def linksOf (t : NameTable) : Call → List Link
  | .inherit _ | .apply => []
  | .compose e =>
    match t.ends? e with
    | some (whole, part) => [⟨.composition, whole, part⟩]
    | none => []
  | .relate e =>
    if e.kind = .inheritance ∨ e.kind = .composition then []
    else
      match t.ends? e with
      | some (source, target) => t.plainLinks e source target
      | none => []

/-- both ends of a link are names that some node id leads to -/
theorem named_of_mem_linksOf {t : NameTable} {c : Call} {l : Link} (h : l ∈ t.linksOf c) :
    (∃ id, t.named? id = some l.source) ∧ ∃ id, t.named? id = some l.target := by
  cases c with
  | inherit e => simp [linksOf] at h
  | apply => simp [linksOf] at h
  | compose e =>
    simp only [linksOf] at h
    split at h
    · next a b hab =>
      obtain ⟨ha, hb⟩ := named_of_ends? hab
      rw [List.mem_singleton] at h
      subst h
      exact ⟨⟨_, ha⟩, ⟨_, hb⟩⟩
    · simp at h
  | relate e =>
    simp only [linksOf] at h
    split_ifs at h
    · simp at h
    · split at h
      · next a b hab =>
        obtain ⟨ha, hb⟩ := named_of_ends? hab
        unfold plainLinks at h
        split at h
        · next j hj =>
          rcases List.mem_cons.1 h with rfl | h
          · exact ⟨⟨_, ha⟩, named_of_assoc? hj⟩
          · rw [List.mem_singleton] at h
            subst h
            exact ⟨⟨_, hb⟩, named_of_assoc? hj⟩
        · rw [List.mem_singleton] at h
          subst h
          exact ⟨⟨_, ha⟩, ⟨_, hb⟩⟩
      · simp at h

end NameTable

/-! ## Layouts -/

structure Layout where
  /-- classes with their fields -/
  rows : List (String × List RelationField)
  numbering : Numbering
  deriving Repr

namespace Layout

def place (l : Layout) (p : Placed) : Layout :=
  { l with rows := l.rows.map fun r => if r.1 = p.owner then (r.1, r.2 ++ [p.field.plain]) else r }

def placeAll (l : Layout) (ps : List Placed) : Layout := ps.foldl place l

/-- which relationship of its pair a link becomes -/
def number (l : Layout) (k : Link) : Nat := l.numbering.count k.source k.target + 1

/-- one more link, under the next number of its pair -/
def tie (l : Layout) (k : Link) : Layout :=
  placeAll { l with numbering := l.numbering.advance k.source k.target } (k.fields (l.number k))

def tieAll (l : Layout) (ks : List Link) : Layout := ks.foldl tie l

theorem get?_place (l : Layout) (p : Placed) (name : String) :
    Table.get? (l.place p).rows name =
      (Table.get? l.rows name).map fun fs => if name = p.owner then fs ++ [p.field.plain] else fs := by
  unfold place
  induction l.rows with
  | nil => rfl
  | cons r rest ih =>
    obtain ⟨n, fs⟩ := r
    simp only [List.map_cons]
    by_cases hn : n = name
    · subst hn
      by_cases ho : n = p.owner <;> simp [Table.get?, ho]
    · by_cases ho : n = p.owner
      · simp only [ho, if_true, Table.get?] at hn ⊢
        rw [if_neg hn, if_neg hn]
        exact ih
      · simp only [ho, if_false, Table.get?, if_neg hn]
        exact ih

theorem keys_place (l : Layout) (p : Placed) : Table.keys (l.place p).rows = Table.keys l.rows := by
  simp only [place, Table.keys, List.map_map]
  refine List.map_congr_left fun r _ => ?_
  simp only [Function.comp_apply]
  split_ifs <;> rfl

theorem keys_placeAll (l : Layout) (ps : List Placed) : Table.keys (l.placeAll ps).rows = Table.keys l.rows := by
  induction ps generalizing l with
  | nil => rfl
  | cons p rest ih => exact (ih (l.place p)).trans (keys_place l p)

theorem keys_tie (l : Layout) (k : Link) : Table.keys (l.tie k).rows = Table.keys l.rows :=
  keys_placeAll _ _

theorem keys_tieAll (l : Layout) (ks : List Link) : Table.keys (l.tieAll ks).rows = Table.keys l.rows := by
  induction ks generalizing l with
  | nil => rfl
  | cons k rest ih => exact (ih (l.tie k)).trans (keys_tie l k)

end Layout

namespace Session

def layout (s : Session) : Layout := ⟨s.entities.map Entity.outline, s.numbering⟩

/-! ## What a call does to the layout -/

theorem layout_modify (s : Session) (name : String) {f : Entity → Entity} (h : ∀ e, (f e).outline = e.outline) :
    (s.modify name f).layout = s.layout := by
  unfold layout
  rw [s.map_modify name h]
  rfl

theorem layout_place (s : Session) (p : Placed) : (s.place p).layout = s.layout.place p := by
  simp only [layout, place, modify, Layout.place, List.map_map]
  congr 1
  refine List.map_congr_left fun e _ => ?_
  simp only [Function.comp_apply, Entity.outline]
  split_ifs with h
  · simp [Entity.addField, h]
  · simp [h]

theorem layout_placeAll (s : Session) (ps : List Placed) : (s.placeAll ps).layout = s.layout.placeAll ps := by
  induction ps generalizing s with
  | nil => rfl
  | cons p rest ih =>
    rw [Layout.placeAll, List.foldl_cons, ← layout_place]
    exact ih (s.place p)

theorem layout_join (s : Session) (source target : String) (sourceMany targetMany : Bool) :
    (s.join source target sourceMany targetMany).layout =
      s.layout.tie ⟨.byCardinality sourceMany targetMany, source, target⟩ :=
  layout_placeAll _ _

theorem layout_joinClass (s : Session) (endpoint assoc : String) :
    (s.joinClass endpoint assoc).layout = s.layout.tie ⟨.viaClass, endpoint, assoc⟩ :=
  layout_placeAll _ _

theorem layout_bind (s : Session) (whole part : String) :
    (s.bind whole part).layout = s.layout.tie ⟨.composition, whole, part⟩ := by
  unfold bind
  rw [layout_placeAll, layout_modify]
  · rfl
  · intro e; rfl

theorem outline_releaseIdentity (e : Entity) : (releaseIdentity e).outline = e.outline := by
  simp only [releaseIdentity, Entity.outline, List.map_map]
  congr 1
  refine List.map_congr_left fun f _ => ?_
  simp only [Function.comp_apply]
  split_ifs <;> rfl

theorem layout_apply (s : Session) : s.apply.session.layout = s.layout := by
  simp only [apply, layout, List.map_map]
  congr 1
  refine List.map_congr_left fun e _ => ?_
  simp only [Function.comp_apply]
  split <;> rfl

/-- a call either ends in a conflict and leaves the session as it was, or does what is said of it -/
def Refused (s : Session) (r : Reply) : Prop := (∃ c, r.result = .error c) ∧ r.session = s

def Ties (s : Session) (r : Reply) (ks : List Link) : Prop :=
  (∃ b, r.result = .ok b) ∧ r.session.layout = s.layout.tieAll ks

theorem ties_inherit (s : Session) (e : Edge) : s.Refused (s.inherit e) ∨ s.Ties (s.inherit e) [] := by
  cases s.inherits e with
  | unresolved _ hr => rw [hr]; exact Or.inr ⟨⟨_, rfl⟩, rfl⟩
  | self _ hr => obtain ⟨log, hr⟩ := hr; rw [hr]; exact Or.inr ⟨⟨_, rfl⟩, rfl⟩
  | known _ _ _ hr => rw [hr]; exact Or.inr ⟨⟨_, rfl⟩, rfl⟩
  | refused _ _ _ _ _ hr => rw [hr]; exact Or.inl ⟨⟨_, rfl⟩, rfl⟩
  | adopted _ _ _ hr => obtain ⟨log, hr⟩ := hr; rw [hr]; exact Or.inr ⟨⟨_, rfl⟩, rfl⟩

theorem ties_compose (s : Session) (e : Edge) :
    s.Refused (s.compose e) ∨ s.Ties (s.compose e) (s.names.linksOf (.compose e)) := by
  simp only [NameTable.linksOf]
  cases s.composes e with
  | unresolved hends hr =>
    rw [hr, hends]
    exact Or.inr ⟨⟨_, rfl⟩, rfl⟩
  | @first whole part hends _ hr =>
    rw [hr, hends]
    exact Or.inr ⟨⟨_, rfl⟩, layout_bind s whole part⟩
  | refused _ _ _ hr =>
    rw [hr]
    exact Or.inl ⟨⟨_, rfl⟩, rfl⟩
  | @again whole part _ hends _ _ hr =>
    obtain ⟨log, hr⟩ := hr
    have hrelease := layout_modify s part outline_releaseIdentity
    rw [hr, hends]
    refine Or.inr ⟨⟨_, rfl⟩, (layout_bind _ whole part).trans ?_⟩
    rw [hrelease]
    rfl

theorem ties_relate (s : Session) (e : Edge) : s.Ties (s.relate e) (s.names.linksOf (.relate e)) := by
  simp only [NameTable.linksOf]
  cases s.relates e with
  | other hkind hr =>
    rw [hr, if_pos (not_not.1 hkind)]
    exact ⟨⟨_, rfl⟩, rfl⟩
  | unresolved hkind hends hr =>
    rw [hr, if_neg hkind, hends]
    exact ⟨⟨_, rfl⟩, rfl⟩
  | @direct source target hkind hends hassoc hr =>
    obtain ⟨log, hr⟩ := hr
    rw [hr, if_neg hkind, hends]
    unfold NameTable.plainLinks
    rw [hassoc]
    exact ⟨⟨_, rfl⟩, layout_join s source target _ _⟩
  | @through source target assoc hkind hends hassoc hr =>
    rw [hr, if_neg hkind, hends]
    unfold NameTable.plainLinks
    rw [hassoc]
    refine ⟨⟨_, rfl⟩, (layout_joinClass _ target assoc).trans ?_⟩
    rw [layout_joinClass]
    rfl

/-- **A call on the layout.** A call is refused and changes nothing, or it ties the links it asks for. -/
theorem layout_step (s : Session) (c : Call) : s.Refused (s.step c) ∨ s.Ties (s.step c) (s.names.linksOf c) := by
  cases c with
  | inherit e => exact ties_inherit s e
  | compose e => exact ties_compose s e
  | relate e => exact Or.inr (ties_relate s e)
  | apply => exact Or.inr ⟨⟨_, rfl⟩, layout_apply s⟩

/-! ## Sessions -/

theorem keys_layout (s : Session) : Table.keys s.layout.rows = s.entities.map Entity.name := by
  simp only [layout, Table.keys, List.map_map]
  rfl

/-- the classes of a session are those of its names, each of them once -/
structure Regular (s : Session) : Prop where
  closed : s.names.Closed
  keys : Table.keys s.layout.rows = s.names.names

theorem Regular.nodup {s : Session} (h : s.Regular) : (s.entities.map Entity.name).Nodup := by
  rw [← keys_layout, h.keys]
  exact h.closed.names_nodup

theorem Regular.entity?_eq {s : Session} (h : s.Regular) {e : Entity} (he : e ∈ s.entities) : s.entity? e.name = some e :=
  Entity.find?_eq h.nodup he

theorem Regular.mem_keys {s : Session} (h : s.Regular) {c : Call} {l : Link} (hl : l ∈ s.names.linksOf c) :
    l.source ∈ Table.keys s.layout.rows ∧ l.target ∈ Table.keys s.layout.rows := by
  obtain ⟨⟨_, hs⟩, ⟨_, ht⟩⟩ := NameTable.named_of_mem_linksOf hl
  rw [h.keys]
  exact ⟨h.closed.named_mem hs, h.closed.named_mem ht⟩

theorem regular_start {t : NameTable} (h : t.Closed) (policy : Policy) : (start t policy).Regular where
  closed := h
  keys := by
    simp only [keys_layout, start, List.map_map, NameTable.names]
    rfl

theorem Regular.step {s : Session} (h : s.Regular) (c : Call) : (s.step c).session.Regular where
  closed := by rw [names_step]; exact h.closed
  keys := by
    rw [names_step, ← h.keys]
    rcases layout_step s c with ⟨-, hs⟩ | ⟨-, hl⟩
    · rw [hs]
    · rw [hl, Layout.keys_tieAll]

/-- a session after some calls; it goes on after a conflict -/
def after (s : Session) (cs : List Call) : Session := cs.foldl (fun s c => (s.step c).session) s

theorem names_after (s : Session) (cs : List Call) : (s.after cs).names = s.names := by
  induction cs generalizing s with
  | nil => rfl
  | cons c rest ih => exact (ih _).trans (names_step s c)

theorem Regular.after {s : Session} (h : s.Regular) (cs : List Call) : (s.after cs).Regular := by
  induction cs generalizing s with
  | nil => exact h
  | cons c rest ih => exact ih (h.step c)

end Session

namespace Plan

/-! ## Runs -/

theorem Progress.step_of_take {p p' : Progress} {c : Call} (h : p.take c = .ok p') :
    p'.session = (p.session.step c).session ∧ ∃ b, (p.session.step c).result = .ok b := by
  unfold take at h
  dsimp only at h
  split at h
  · cases h
  · next answer hanswer => cases h; exact ⟨rfl, answer, hanswer⟩

theorem Progress.takeAll_cons {p q : Progress} {c : Call} {cs : List Call} (h : p.takeAll (c :: cs) = .ok q) :
    ∃ p', p.take c = .ok p' ∧ p'.takeAll cs = .ok q := by
  unfold takeAll at h
  rw [List.foldlM_cons] at h
  cases hc : p.take c with
  | error x => rw [hc] at h; cases h
  | ok p' => rw [hc] at h; exact ⟨p', rfl, h⟩

/-- a run that comes to its end takes its first call -/
theorem Progress.step_of_takeAll {p q : Progress} {c : Call} {cs : List Call} (h : p.takeAll (c :: cs) = .ok q) :
    ∃ (p' : Progress) (b : Option Bool), p'.session = (p.session.step c).session ∧
      (p.session.step c).result = .ok b ∧ p'.takeAll cs = .ok q := by
  obtain ⟨p', hc, hrest⟩ := Progress.takeAll_cons h
  obtain ⟨hsession, b, hb⟩ := Progress.step_of_take hc
  exact ⟨p', b, hsession, hb, hrest⟩

theorem Progress.takeAll_append {p q : Progress} {cs cs' : List Call} (h : p.takeAll (cs ++ cs') = .ok q) :
    ∃ m, p.takeAll cs = .ok m ∧ m.takeAll cs' = .ok q := by
  unfold takeAll at h
  rw [List.foldlM_append] at h
  cases hm : p.takeAll cs with
  | error x => unfold takeAll at hm; rw [hm] at h; cases h
  | ok m => unfold takeAll at hm; rw [hm] at h; exact ⟨m, rfl, h⟩

/-- a run that comes to its end leaves the session that its calls leave -/
theorem session_of_takeAll {p q : Progress} {cs : List Call} (h : p.takeAll cs = .ok q) :
    q.session = p.session.after cs := by
  induction cs generalizing p with
  | nil => cases h; rfl
  | cons c rest ih =>
    obtain ⟨p', -, hsession, -, hrest⟩ := Progress.step_of_takeAll h
    rw [ih hrest, hsession]
    rfl

/-- a diagram has a plan when the run over its calls comes to its end -/
theorem build_eq_ok_iff {policy : Policy} {d : Diagram} {p : Plan} :
    build policy d = .ok p ↔ ∃ q, run policy d = .ok q ∧ ofProgress q = p := by
  unfold build
  cases run policy d <;> simp

theorem run_of_build {policy : Policy} {d : Diagram} {p : Plan} (h : build policy d = .ok p) :
    ∃ q, run policy d = .ok q ∧ p.entities = q.session.entities := by
  obtain ⟨q, hrun, rfl⟩ := build_eq_ok_iff.1 h
  exact ⟨q, hrun, rfl⟩

/-- the classes of a plan are those of the diagram, in their order -/
theorem names_of_build {policy : Policy} {d : Diagram} {p : Plan} (h : build policy d = .ok p) :
    p.entities.map Entity.name = d.nameTable.names := by
  obtain ⟨q, hrun, hentities⟩ := run_of_build h
  have hreg := (Session.regular_start (NameTable.closed_ofDiagram d) policy).after (calls d.edges)
  rw [hentities, session_of_takeAll hrun, ← Session.keys_layout]
  exact hreg.keys.trans (congrArg NameTable.names (Session.names_after _ _))

end Plan

end Classwright
