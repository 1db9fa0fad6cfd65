/-
The types by which the files of a class look its objects up.

The repository of a class, its service, and the keys of its parts take a number for the key of the class. The key is a number
as long as the class that declares it is no part; the key of a part has a class of its own, which these files do not know.

- `Java.HasLines`: a file with these lines in it; `repositoryLine`, `updateLines`, `wholeIdLine`: the lines that name a key
  type;
- `Plan.RefersBy`: all files that look up objects of a class do so by one type; `refersBy_number`: this type is a number;
- `Plan.KeyFrom`: the nearest class on the way up that declares a key; `KeyFrom.unique`, `exists_keyFrom`: without a circle
  there is exactly one;
- `key_types`: the type of the key of every class, and when the files about the class agree with it.
-/
import Classwright.Proofs.Keys

namespace Classwright

open Relation (ReflTransGen)

/-! ## Lines that name a key type -/

namespace Java

/-- a file with these lines, one right after the other -/
def HasLines (file : String) (lines : List String) : Prop := ∃ before after, file = text (before ++ lines ++ after)

theorem hasLines_drop_take (lines : List String) (k n : Nat) : HasLines (text lines) ((lines.drop k).take n) := by
  refine ⟨lines.take k, lines.drop (k + n), ?_⟩
  rw [List.append_assoc, ← List.drop_drop, List.take_append_drop, List.take_append_drop]

/-- the lines of a file as they are read: a line may be given with line ends in it -/
theorem splitChars_text (lines : List String) :
    Text.splitChars '\n' (text lines).toList = (lines.flatMap fun l => Text.splitChars '\n' l.toList) ++ [[]] := by
  unfold text
  induction lines with
  | nil => rfl
  | cons l rest ih =>
    rw [List.map_cons, String.join_cons, String.toList_append, String.toList_append, List.append_assoc]
    rw [show "\n".toList = ['\n'] from rfl, List.singleton_append, Text.splitChars_append_cons, ih, List.flatMap_cons,
      List.append_assoc]

/-- a line found in a file is one of those it was written from -/
theorem mem_of_hasLines {xs ls : List String} {l : String} (h : HasLines (text xs) ls) (hl : l ∈ ls)
    (hxs : ∀ x ∈ xs, '\n' ∉ x.toList) (hline : '\n' ∉ l.toList) : l ∈ xs := by
  obtain ⟨before, after, heq⟩ := h
  have hpieces := congrArg (fun s : String => Text.splitChars '\n' s.toList) heq
  simp only [splitChars_text] at hpieces
  have hmem : l.toList ∈ (before ++ ls ++ after).flatMap fun l => Text.splitChars '\n' l.toList := by
    refine List.mem_flatMap.2 ⟨l, List.mem_append_left _ (List.mem_append_right _ hl), ?_⟩
    rw [Text.splitChars_of_not_mem hline]
    exact List.mem_singleton_self _
  rw [← List.append_cancel_right hpieces] at hmem
  obtain ⟨x, hx, hpiece⟩ := List.mem_flatMap.1 hmem
  rw [Text.splitChars_of_not_mem (hxs x hx), List.mem_singleton] at hpiece
  exact String.toList_injective hpiece ▸ hx

/-- the line of a repository that names the class and the type of its key -/
def repositoryLine (name key : String) : String :=
  "public interface " ++ name ++ "Repository extends JpaRepository<" ++ name ++ ", " ++ key ++ "> \x7b"

/-- the lines of a service that set the key of an object -/
def updateLines (name key : String) : List String :=
  ["    public " ++ name ++ " update(" ++ key ++ " id, " ++ name ++ " entity) \x7b", "        entity.setId(id);"]

/-- the line of a composite key that holds the key of the whole -/
def wholeIdLine (i : CompositeIdentity) (key : String) : String := "    private " ++ key ++ " " ++ i.wholeIdField ++ ";"

theorem hasLines_repository (name : String) : HasLines (renderRepository name) [repositoryLine name lookupKeyType] := by
  unfold renderRepository
  exact hasLines_drop_take _ 7 1

theorem hasLines_service (name : String) : HasLines (renderService name) (updateLines name lookupKeyType) := by
  unfold renderService
  exact hasLines_drop_take _ 28 2

/-- no other type is read off a repository, as long as no name has a line end in it -/
theorem number_of_repository {name type : String} (hname : '\n' ∉ name.toList) (htype : '\n' ∉ type.toList)
    (h : HasLines (renderRepository name) [repositoryLine name type]) : type = lookupKeyType := by
  unfold renderRepository repositoryLine at h
  have hmem := mem_of_hasLines h (List.mem_singleton_self _) ?_ ?_
  · -- all other lines begin in another way
    simp only [← String.toList_inj, String.toList_append, List.mem_cons, List.not_mem_nil, or_false] at hmem
    exact String.toList_injective (by simpa [basePackage] using hmem)
  · simp only [List.forall_mem_cons, String.toList_append, List.mem_append, not_or, hname, not_false_eq_true, and_true,
      List.not_mem_nil, false_imp_iff, implies_true]
    decide +kernel
  · simp only [String.toList_append, List.mem_append, not_or, hname, htype, not_false_eq_true, and_true]
    decide +kernel

theorem hasLines_id (i : CompositeIdentity) : HasLines (renderId i) [wholeIdLine i i.wholeIdType] := by
  unfold renderId
  exact hasLines_drop_take _ 13 1

theorem name_keyMember {e : Entity} {m : Member} (h : keyMember e = some m) : m.name = "id" := by
  unfold keyMember at h
  split at h
  · cases h; rfl
  · split_ifs at h <;> cases h <;> rfl

end Java

theorem Entity.keys_of_keyMember {e : Entity} {m : Java.Member} (h : Java.keyMember e = some m) : e.keys = [m] := by
  unfold keys
  rw [Java.keys_entitySource, h]
  rfl

/-! ## The type that files refer by -/

/-- a part takes the key of its whole for a number -/
def Entity.NumbersWhole (e : Entity) : Prop := ∀ i, e.identity = some i → i.wholeIdType = Java.lookupKeyType

theorem entityInvariant_numbersWhole : EntityInvariant Entity.NumbersWhole where
  addField := fun he _ => he
  place := fun he _ => he
  identify := fun _ _ _ _ i hi => by cases hi; rfl
  release := fun _ i hi => by cases hi

namespace Plan

variable {policy : Policy} {p : Plan} {d : Diagram} {e a b : Entity}

theorem numbersWhole_of_build (h : build policy d = .ok p) : ∀ e ∈ p.entities, e.NumbersWhole := by
  refine entityInvariant_numbersWhole.of_build (fun e he => ?_) h
  obtain ⟨c, -, rfl⟩ := List.mem_map.1 he
  nofun

/-- the files that look up objects of a class do so by this type -/
structure RefersBy (p : Plan) (e : Entity) (type : String) : Prop where
  repository : Java.HasLines (Java.renderRepository e.name) [Java.repositoryLine e.name type]
  service : Java.HasLines (Java.renderService e.name) (Java.updateLines e.name type)
  parts : ∀ part ∈ p.entities, ∀ i, part.identity = some i → i.wholeClass = e.name →
    Java.HasLines (Java.renderId i) [Java.wholeIdLine i type]

/-- **All files look objects up by a number.** -/
theorem refersBy_number (h : build policy d = .ok p) (e : Entity) : p.RefersBy e Java.lookupKeyType where
  repository := Java.hasLines_repository e.name
  service := Java.hasLines_service e.name
  parts := fun part hpart i hi _ => numbersWhole_of_build h part hpart i hi ▸ Java.hasLines_id i

/-! ## Where a key comes from -/

/-- a class has its key from the first class on the way up, itself included, that declares one -/
inductive KeyFrom (p : Plan) : Entity → Entity → Prop
  | own {e : Entity} : e.keys ≠ [] → KeyFrom p e e
  | inherited {e a b : Entity} : e.keys = [] → p.Extends e a → KeyFrom p a b → KeyFrom p e b

namespace KeyFrom

theorem chain (h : p.KeyFrom e b) : b ∈ p.chain e := by
  induction h with
  | own => exact .refl
  | inherited _ hstep _ ih => exact .head hstep ih

theorem keys_ne_nil (h : p.KeyFrom e b) : b.keys ≠ [] := by
  induction h with
  | own hkeys => exact hkeys
  | inherited _ _ _ ih => exact ih

theorem unique (hf : p.Follows d) (ha : p.KeyFrom e a) (hb : p.KeyFrom e b) : a = b := by
  induction ha with
  | own hkeys =>
    cases hb with
    | own => rfl
    | inherited hnone => exact absurd hnone hkeys
  | inherited hnone hstep _ ih =>
    cases hb with
    | own hkeys => exact absurd hnone hkeys
    | inherited _ hstep' hrest => exact ih (hf.extends_unique hstep hstep' ▸ hrest)

end KeyFrom

/-- **Without a circle every class has a key.** The class that ends its chain declares one, if no class before it does. -/
theorem exists_keyFrom (h : build policy d = .ok p) (hcircle : NoCircle d.lastParent?) (he : e ∈ p.entities) :
    ∃ b, p.KeyFrom e b := by
  obtain ⟨top, hchain, htop⟩ := (follows_of_build h).exists_holder hcircle he
  have hkeys : top.keys ≠ [] := top.length_keys.1 ((keys_of_build h (mem_of_chain he hchain)).1 htop)
  have hreach : ReflTransGen p.Extends e top := hchain
  induction hreach using ReflTransGen.head_induction_on with
  | refl => exact ⟨top, .own hkeys⟩
  | @head x _ hstep hrest ih =>
    by_cases hx : x.keys = []
    · obtain ⟨b, hb⟩ := ih hstep.1 hrest
      exact ⟨b, .inherited hx hstep hb⟩
    · exact ⟨x, .own hx⟩

/-- the key of a part has a class of its own, any other key is a number -/
theorem key_of_build (h : build policy d = .ok p) (he : e ∈ p.entities) (hkeys : e.keys ≠ []) :
    ∃ m, e.keys = [m] ∧ m.name = "id" ∧
      (e.name ∈ d.parts → m.type = e.name ++ "Id") ∧ (e.name ∉ d.parts → m.type = Java.lookupKeyType) := by
  unfold Diagram.parts
  rw [← identity_isSome_iff h he]
  cases hid : e.identity with
  | some i =>
    have hkey := Java.keyMember_of_identity hid
    refine ⟨_, Entity.keys_of_keyMember hkey, Java.name_keyMember hkey, fun _ => idNamed_of_build h e he i hid, nofun⟩
  | none =>
    have hchild : e.isChild = false :=
      Bool.eq_false_iff.2 fun hchild => hkeys (e.keys_eq_nil_iff.2 ⟨hchild, hid⟩)
    obtain ⟨m, hm, htype, -⟩ := Java.keyMember_of_top hid hchild
    exact ⟨m, Entity.keys_of_keyMember hm, Java.name_keyMember hm, nofun, fun _ => htype⟩

end Plan

/-- the key of a part is no number -/
theorem keyClass_ne_number (name : String) : name ++ "Id" ≠ Java.lookupKeyType := by
  intro h
  have hlast := congrArg (fun s : String => s.toList.getLast?) h
  simp only [String.toList_append] at hlast
  rw [List.getLast?_append_of_ne_nil _ (by decide)] at hlast
  revert hlast
  decide

/-- **The types of keys.** Without a circle every class has its key from one class, itself or the nearest above it that
declares one. All files that look up its objects do so by a number. So they agree with the type of the key exactly when the
class it comes from is no part; the key of a part has a class of its own. -/
theorem key_types (policy : Policy) (d : Diagram) (as : List Artifact) (h : render policy d = .ok as)
    (hcircle : NoCircle d.lastParent?) :
    ∃ p, Plan.build policy d = .ok p ∧ as = Artifact.ofPlan p ∧ ∀ e ∈ p.entities, p.RefersBy e "Long" ∧
      (∀ type, '\n' ∉ e.name.toList → '\n' ∉ type.toList → p.RefersBy e type → type = "Long") ∧
      ∃ b m, p.KeyFrom e b ∧ (∀ b', p.KeyFrom e b' → b' = b) ∧ b.keys = [m] ∧ m.name = "id" ∧
        (m.type = "Long" ↔ b.name ∉ d.parts) ∧ (b.name ∉ d.parts → p.RefersBy e m.type) ∧
        (b.name ∈ d.parts → m.type = b.name ++ "Id") := by
  obtain ⟨p, hp, rfl⟩ := artifacts_of_render h
  refine ⟨p, hp, rfl, fun e he => ⟨Plan.refersBy_number hp e,
    fun type hname htype hrefers => Java.number_of_repository hname htype hrefers.repository, ?_⟩⟩
  obtain ⟨b, hb⟩ := Plan.exists_keyFrom hp hcircle he
  obtain ⟨m, hkeys, hname, hpart, hnumber⟩ := Plan.key_of_build hp (Plan.mem_of_chain he hb.chain) hb.keys_ne_nil
  refine ⟨b, m, hb, fun b' hb' => hb'.unique (Plan.follows_of_build hp) hb, hkeys, hname, ⟨fun htype hmem => ?_, hnumber⟩,
    fun hmem => hnumber hmem ▸ Plan.refersBy_number hp e, hpart⟩
  exact keyClass_ne_number b.name ((hpart hmem).symm.trans htype)

theorem convoy_key_types : ∃ as, render .fail convoy = .ok as ∧ ∃ p, as = Artifact.ofPlan p ∧
    ∀ e ∈ p.entities, p.RefersBy e "Long" ∧ ∃ b m, p.KeyFrom e b ∧ b.keys = [m] ∧
      (m.type = "Long" ↔ b.name ∉ ["Bolt", "Engine"]) := by
  have hparts : convoy.parts = ["Bolt", "Engine"] := by decide
  obtain ⟨p, -, has, htypes⟩ := key_types .fail convoy _ rfl noCircle_convoy
  refine ⟨_, rfl, p, has, fun e he => ?_⟩
  obtain ⟨hrefers, -, b, m, hb, -, hkeys, -, hnumber, -⟩ := htypes e he
  exact ⟨hrefers, b, m, hb, hkeys, hparts ▸ hnumber⟩

/-- an order with line items, each with discounts -/
def receipt : Diagram where
  nodes := [⟨"o", "Order", [], false⟩, ⟨"i", "LineItem", [], false⟩, ⟨"d", "Discount", [], false⟩]
  edges := [⟨"", "o", "i", none, none, none, .composition⟩, ⟨"", "i", "d", none, none, none, .composition⟩]
  metadata := .null

/-- **The key of a part goes by another type.** The key of a line item is a `LineItemId`; its repository, its service and
the keys of its discounts take a number for it, and nothing but a number can be read off the first and the last. -/
theorem receipt_key_types : ∃ p, Plan.build .lastWins receipt = .ok p ∧ NoCircle receipt.lastParent? ∧
    ∃ item ∈ p.entities, p.KeyFrom item item ∧ item.keys.map Java.Member.type = ["LineItemId"] ∧ p.RefersBy item "Long" ∧
      ¬ Java.HasLines (Java.renderRepository item.name) [Java.repositoryLine item.name "LineItemId"] ∧
      ∃ part ∈ p.entities, ∃ i, part.identity = some i ∧ i.wholeClass = item.name ∧
        ¬ Java.HasLines (Java.renderId i) [Java.wholeIdLine i "LineItemId"] := by
  have hcircle : NoCircle receipt.lastParent? := fun c hcircle => by
    obtain ⟨q, hq⟩ := exists_parent_of_circle hcircle
    cases hq
  have hrefers := @Plan.refersBy_number .lastWins _ receipt rfl
  refine ⟨_, rfl, hcircle, _, List.mem_cons_of_mem _ List.mem_cons_self, .own nofun, rfl, hrefers _, fun h => ?_,
    _, List.mem_cons_of_mem _ (List.mem_cons_of_mem _ List.mem_cons_self), _, rfl, rfl, fun h => ?_⟩
  · exact absurd (Java.number_of_repository (by decide) (by decide) h) (by decide)
  · change Java.HasLines (Java.renderId ⟨"DiscountId", "LineItem", "lineItem", "Long", "Long"⟩) _ at h
    unfold Java.renderId Java.wholeIdLine at h
    exact absurd (Java.mem_of_hasLines h List.mem_cons_self (by decide +kernel) (by decide +kernel)) (by decide +kernel)

end Classwright
