/-
What holds of every entity of a session, whatever the calls.

A call changes entities one at a time and in four ways only: a field is added, the place in a hierarchy is written, an
identity is given to the part of a whole, or an identity is released. A property that these changes keep holds of all
entities after any calls, and of all entities of a plan.

- `EntityInvariant`: a property of entities that the four changes keep;
- `EntityInvariant.step`, `EntityInvariant.of_build`: it holds after a call, and in a plan;
- `idNamed_of_build`: the key class of a part is named after the part.
-/
import Classwright.Proofs.Layout

namespace Classwright

structure EntityInvariant (P : Entity → Prop) : Prop where
  addField : ∀ {e}, P e → ∀ f, P (e.addField f)
  place : ∀ {e}, P e → ∀ i, P { e with inheritance := some i }
  identify : ∀ {e}, P e → ∀ (s : Session) whole suffix, P { e with identity := some (s.identityOf whole e.name suffix) }
  release : ∀ {e}, P e → P (Session.releaseIdentity e)

namespace Session

def Each (P : Entity → Prop) (s : Session) : Prop := ∀ e ∈ s.entities, P e

theorem Each.modify {P : Entity → Prop} {s : Session} (hs : s.Each P) {name : String} {f : Entity → Entity}
    (hf : ∀ {e}, e.name = name → P e → P (f e)) : (s.modify name f).Each P := by
  intro e he
  obtain ⟨e', he', rfl⟩ := List.mem_map.1 he
  split_ifs with hname
  · exact hf hname (hs e' he')
  · exact hs e' he'

end Session

namespace EntityInvariant

open Session

variable {P : Entity → Prop} {s : Session}

theorem placeAll (h : EntityInvariant P) (hs : s.Each P) (ps : List Placed) : (s.placeAll ps).Each P := by
  induction ps generalizing s with
  | nil => exact hs
  | cons p rest ih => exact ih (hs.modify fun _ he => h.addField he p.field)

theorem bind (h : EntityInvariant P) (hs : s.Each P) (whole part : String) : (s.bind whole part).Each P := by
  unfold Session.bind
  refine h.placeAll (Each.modify (s := s.advance whole part) hs fun {e} hname he => ?_) _
  subst hname
  exact h.identify he _ whole _

theorem apply (h : EntityInvariant P) (hs : s.Each P) : s.apply.session.Each P := by
  intro e he
  obtain ⟨e', he', rfl⟩ := List.mem_map.1 he
  split
  · exact h.place (hs e' he') _
  · exact hs e' he'

/-- **One call.** What the four changes keep holds of every entity after the call. -/
theorem step (h : EntityInvariant P) (hs : s.Each P) (c : Call) : (s.step c).session.Each P := by
  cases c with
  | inherit e => exact keeps_inherit hs fun _ _ => hs
  | apply => exact h.apply hs
  | compose e =>
    exact keeps_compose hs (fun part => hs.modify fun _ he => h.release he) fun whole part hs => h.bind hs whole part
  | relate e =>
    refine keeps_relate hs (fun source target => ?_) fun {s} endpoint assoc hs => ?_
    · exact h.placeAll (s := s.advance source target) hs _
    · exact h.placeAll (s := s.advance endpoint assoc) hs _

theorem after (h : EntityInvariant P) (hs : s.Each P) (cs : List Call) : (s.after cs).Each P := by
  induction cs generalizing s with
  | nil => exact hs
  | cons c rest ih => exact ih (h.step hs c)

theorem of_build (h : EntityInvariant P) {policy : Policy} {d : Diagram} {p : Plan}
    (hstart : (start d.nameTable policy).Each P) (hp : Plan.build policy d = .ok p) : ∀ e ∈ p.entities, P e := by
  obtain ⟨q, hrun, hentities⟩ := Plan.run_of_build hp
  rw [hentities, Plan.session_of_takeAll hrun]
  exact h.after hstart _

end EntityInvariant

/-- the key class of an entity is named after it -/
def Entity.IdNamed (e : Entity) : Prop := ∀ i, e.identity = some i → i.idClassName = e.name ++ "Id"

theorem entityInvariant_idNamed : EntityInvariant Entity.IdNamed where
  addField := fun he _ => he
  place := fun he _ => he
  identify := fun _ _ _ _ i hi => by cases hi; rfl
  release := fun _ i hi => by cases hi

theorem idNamed_of_build {policy : Policy} {d : Diagram} {p : Plan} (h : Plan.build policy d = .ok p) :
    ∀ e ∈ p.entities, e.IdNamed := by
  refine entityInvariant_idNamed.of_build (fun e he => ?_) h
  obtain ⟨c, -, rfl⟩ := List.mem_map.1 he
  nofun

end Classwright
