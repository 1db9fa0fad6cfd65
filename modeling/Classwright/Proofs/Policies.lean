/-
The two policies side by side.

A session that lets the last claim win refuses nothing. A call that a session accepts has the same outcome when the last
claim wins, so a plan that is built under either policy is the plan of the last claims.

- `Session.step_of_refused`: a call that is refused; `accepts_step`: none is when the last claim wins;
- `Session.under`: a session under another policy; `step_under`: one call;
- `exists_build`: every diagram has a plan when the last claim wins;
- `build_lastWins_of_build`: a plan is the same under both policies, where there is one under both;
- `Progress.takeAll_error`: a run that fails does so at the first call that is refused;
- `log_of_run`, `log_of_conflict`: what is in the log of a run, whether or not a conflict ends it.
-/
import Classwright.Proofs.Layout

namespace Classwright

namespace Session

def under (s : Session) (policy : Policy) : Session := { s with policy := policy }

end Session

def Reply.under (r : Reply) (policy : Policy) : Reply := { r with session := r.session.under policy }

namespace Session

variable {s : Session}

/-! ## What is refused -/

theorem policy_step (s : Session) (c : Call) : (s.step c).session.policy = s.policy := by
  cases c with
  | apply => rfl
  | inherit e => exact keeps_inherit (P := fun t => t.policy = s.policy) rfl fun _ _ => rfl
  | compose e => exact unseen_compose s e (g := Session.policy) fun _ _ _ => rfl
  | relate e => exact unseen_relate s e (g := Session.policy) fun _ _ _ => rfl

theorem refused_inherit {e : Edge} {r : Reply} {x : Conflict} (hr : s.Inherits e r) (h : r.result = .error x) :
    s.policy = .fail ∧ x.kind = .inheritance ∧ r = ⟨.error x, s, []⟩ := by
  cases hr with
  | unresolved _ hr => subst hr; cases h
  | self _ hr => obtain ⟨log, rfl⟩ := hr; cases h
  | known _ _ _ hr => subst hr; cases h
  | refused _ _ _ _ hpolicy hr => subst hr; cases h; exact ⟨hpolicy, rfl, rfl⟩
  | adopted _ _ _ hr => obtain ⟨log, rfl⟩ := hr; cases h

theorem refused_compose {e : Edge} {r : Reply} {x : Conflict} (hr : s.Composes e r) (h : r.result = .error x) :
    s.policy = .fail ∧ x.kind = .composition ∧ r = ⟨.error x, s, []⟩ := by
  cases hr with
  | unresolved _ hr => subst hr; cases h
  | first _ _ hr => subst hr; cases h
  | refused _ _ hpolicy hr => subst hr; cases h; exact ⟨hpolicy, rfl, rfl⟩
  | again _ _ _ hr => obtain ⟨log, rfl⟩ := hr; cases h

/-- **A call that is refused** changes nothing and says nothing. -/
theorem step_of_refused {c : Call} {x : Conflict} (h : (s.step c).result = .error x) :
    s.policy = .fail ∧ s.step c = ⟨.error x, s, []⟩ := by
  cases c with
  | apply => cases h
  | inherit e =>
    obtain ⟨hpolicy, -, hr⟩ := refused_inherit (s.inherits e) h
    exact ⟨hpolicy, hr⟩
  | compose e =>
    obtain ⟨hpolicy, -, hr⟩ := refused_compose (s.composes e) h
    exact ⟨hpolicy, hr⟩
  | relate e =>
    obtain ⟨b, hb⟩ := (ties_relate s e).1
    cases hb.symm.trans h

theorem accepts_step (h : s.policy = .lastWins) (c : Call) : ∃ b, (s.step c).result = .ok b := by
  cases hresult : (s.step c).result with
  | ok b => exact ⟨b, rfl⟩
  | error x => cases h.symm.trans (step_of_refused hresult).1

/-! ## What is accepted comes out the same -/

theorem placeAll_under (s : Session) (policy : Policy) (ps : List Placed) :
    (s.under policy).placeAll ps = (s.placeAll ps).under policy := by
  induction ps generalizing s with
  | nil => rfl
  | cons p rest ih => exact ih (s.place p)

theorem joinEdge_under (s : Session) (policy : Policy) (e : Edge) (source target : String) :
    (s.under policy).joinEdge e source target = (s.joinEdge e source target).under policy :=
  placeAll_under (s.advance source target) policy _

theorem joinClass_under (s : Session) (policy : Policy) (endpoint assoc : String) :
    (s.under policy).joinClass endpoint assoc = (s.joinClass endpoint assoc).under policy :=
  placeAll_under (s.advance endpoint assoc) policy _

theorem inherit_under {e : Edge} {b : Option Bool} (h : (s.inherit e).result = .ok b) :
    (s.under .lastWins).inherit e = (s.inherit e).under .lastWins := by
  have hends : (s.under .lastWins).ends? e = s.ends? e := rfl
  unfold inherit at h ⊢
  rw [hends]
  cases he : s.ends? e with
  | none => rfl
  | some ends =>
    obtain ⟨parent, child⟩ := ends
    have hparent : (s.under .lastWins).hierarchy.parent? child = s.hierarchy.parent? child := rfl
    simp only [he, hparent] at h ⊢
    split_ifs with hself
    · rfl
    · simp only [if_neg hself] at h
      cases hp : s.hierarchy.parent? child with
      | none => rfl
      | some previous =>
        simp only [hp] at h ⊢
        split_ifs with hsame
        · rfl
        · simp only [if_neg hsame] at h
          cases hpolicy : s.policy with
          | lastWins => rfl
          | fail => simp [hpolicy] at h

theorem compose_under {e : Edge} {b : Option Bool} (h : (s.compose e).result = .ok b) :
    (s.under .lastWins).compose e = (s.compose e).under .lastWins := by
  have hends : (s.under .lastWins).ends? e = s.ends? e := rfl
  unfold compose at h ⊢
  rw [hends]
  cases he : s.ends? e with
  | none => rfl
  | some ends =>
    obtain ⟨whole, part⟩ := ends
    have hheld : (s.under .lastWins).entity? part = s.entity? part := rfl
    simp only [he, hheld] at h ⊢
    cases hi : (s.entity? part).bind Entity.identity with
    | none => rfl
    | some held =>
      simp only [hi] at h ⊢
      cases hpolicy : s.policy with
      | lastWins => rfl
      | fail => simp [hpolicy] at h

theorem relate_under (s : Session) (policy : Policy) (e : Edge) :
    (s.under policy).relate e = (s.relate e).under policy := by
  have hends : (s.under policy).ends? e = s.ends? e := rfl
  have hnames : (s.under policy).names = s.names := rfl
  unfold relate
  simp only [hends, hnames]
  split
  · rfl
  · rfl
  · split
    · rfl
    · split
      · rw [joinEdge_under]; rfl
      · split
        · rw [joinClass_under, joinClass_under]; rfl
        · rw [joinEdge_under]; rfl

/-- **A call that is accepted.** It has the same outcome when the last claim wins. -/
theorem step_under {c : Call} {b : Option Bool} (h : (s.step c).result = .ok b) :
    (s.under .lastWins).step c = (s.step c).under .lastWins := by
  cases c with
  | inherit e => exact inherit_under h
  | compose e => exact compose_under h
  | relate e => exact relate_under s .lastWins e
  | apply => rfl

end Session

namespace Plan

/-! ## Runs -/

def Progress.under (p : Progress) (policy : Policy) : Progress := { p with session := p.session.under policy }

theorem Progress.take_of_ok {p : Progress} {c : Call} {b : Option Bool} (h : (p.session.step c).result = .ok b) :
    p.take c = .ok ⟨(p.session.step c).session, if b = some false then p.dropped + 1 else p.dropped,
      p.log ++ (p.session.step c).log⟩ := by
  unfold take
  simp only [h]

theorem Progress.take_of_error {p : Progress} {c : Call} {x : Conflict} (h : (p.session.step c).result = .error x) :
    p.take c = .error x := by
  unfold take
  simp only [h]

theorem Progress.takeAll_cons_of_ok {p p' : Progress} {c : Call} (h : p.take c = .ok p') (cs : List Call) :
    p.takeAll (c :: cs) = p'.takeAll cs := by
  unfold takeAll
  rw [List.foldlM_cons, h]
  rfl

theorem Progress.takeAll_cons_of_error {p : Progress} {c : Call} {x : Conflict} (h : p.take c = .error x)
    (cs : List Call) : p.takeAll (c :: cs) = .error x := by
  unfold takeAll
  rw [List.foldlM_cons, h]
  rfl

theorem Progress.take_under {p q : Progress} {c : Call} (h : p.take c = .ok q) :
    (p.under .lastWins).take c = .ok (q.under .lastWins) := by
  obtain ⟨-, b, hb⟩ := Progress.step_of_take h
  rw [Progress.take_of_ok hb] at h
  cases h
  have hstep : (p.under .lastWins).session.step c = (p.session.step c).under .lastWins := Session.step_under hb
  have hb' : ((p.under .lastWins).session.step c).result = .ok b := by rw [hstep]; exact hb
  rw [Progress.take_of_ok hb', hstep]
  rfl

theorem Progress.takeAll_under {p q : Progress} {cs : List Call} (h : p.takeAll cs = .ok q) :
    (p.under .lastWins).takeAll cs = .ok (q.under .lastWins) := by
  induction cs generalizing p with
  | nil => cases h; rfl
  | cons c rest ih =>
    obtain ⟨p', hc, hrest⟩ := Progress.takeAll_cons h
    rw [Progress.takeAll_cons_of_ok (Progress.take_under hc)]
    exact ih hrest

theorem Progress.exists_takeAll {p : Progress} (h : p.session.policy = .lastWins) (cs : List Call) :
    ∃ q, p.takeAll cs = .ok q := by
  induction cs generalizing p with
  | nil => exact ⟨p, rfl⟩
  | cons c rest ih =>
    obtain ⟨b, hb⟩ := Session.accepts_step h c
    rw [Progress.takeAll_cons_of_ok (Progress.take_of_ok hb)]
    exact ih ((Session.policy_step _ _).trans h)

/-- **A run that fails.** It does so at the first call that is refused. -/
theorem Progress.takeAll_error {p : Progress} {cs : List Call} {x : Conflict} (h : p.takeAll cs = .error x) :
    ∃ before c after q, cs = before ++ c :: after ∧ p.takeAll before = .ok q ∧
      (q.session.step c).result = .error x := by
  induction cs generalizing p with
  | nil => cases h
  | cons c rest ih =>
    cases hresult : (p.session.step c).result with
    | error y =>
      rw [Progress.takeAll_cons_of_error (Progress.take_of_error hresult)] at h
      cases h
      exact ⟨[], c, rest, p, rfl, rfl, hresult⟩
    | ok b =>
      have htake := Progress.take_of_ok hresult
      rw [Progress.takeAll_cons_of_ok htake] at h
      obtain ⟨before, c', after, q, rfl, hq, herror⟩ := ih h
      exact ⟨c :: before, c', after, q, rfl, (Progress.takeAll_cons_of_ok htake before).trans hq, herror⟩

/-! ## What is said on the way -/

/-- what is said on a way that comes to its end is said first -/
theorem Progress.said_append {p q : Progress} {before : List Call} (h : p.takeAll before = .ok q) (cs : List Call) :
    p.said (before ++ cs) = q.said cs := by
  induction before generalizing p with
  | nil => cases h; rfl
  | cons c rest ih =>
    obtain ⟨p', hc, hrest⟩ := Progress.takeAll_cons h
    rw [List.cons_append, said, hc]
    exact ih hrest

/-- **The log of a run** that comes to its end is all that was said. -/
theorem log_of_run {policy : Policy} {d : Diagram} {q : Progress} (h : run policy d = .ok q) : log policy d = q.log := by
  have hsaid := Progress.said_append h []
  rwa [List.append_nil] at hsaid

/-- **The log of a run that fails** is what was said before the call that is refused. -/
theorem log_of_conflict {policy : Policy} {d : Diagram} {x : Conflict} (h : run policy d = .error x) :
    ∃ before c after q, calls d.edges = before ++ c :: after ∧ (begin policy d).takeAll before = .ok q ∧
      (q.session.step c).result = .error x ∧ log policy d = q.log := by
  obtain ⟨before, c, after, q, hcalls, hq, herror⟩ := Progress.takeAll_error h
  refine ⟨before, c, after, q, hcalls, hq, herror, ?_⟩
  rw [log, hcalls, Progress.said_append hq, Progress.said, Progress.take_of_error herror]
  dsimp only
  rw [(Session.step_of_refused herror).2, List.append_nil]

/-! ## Plans -/

theorem build_lastWins_of_build {policy : Policy} {d : Diagram} {p : Plan} (h : build policy d = .ok p) :
    build .lastWins d = .ok p := by
  obtain ⟨q, hrun, rfl⟩ := build_eq_ok_iff.1 h
  have hlast : run .lastWins d = .ok (q.under .lastWins) := Progress.takeAll_under hrun
  exact build_eq_ok_iff.2 ⟨_, hlast, rfl⟩

/-- **Every diagram has a plan when the last claim wins.** -/
theorem exists_build (d : Diagram) : ∃ p, build .lastWins d = .ok p := by
  obtain ⟨q, hq⟩ := Progress.exists_takeAll (p := begin .lastWins d) rfl (calls d.edges)
  have hrun : run .lastWins d = .ok q := hq
  exact ⟨ofProgress q, build_eq_ok_iff.2 ⟨q, hrun, rfl⟩⟩

end Plan

end Classwright
