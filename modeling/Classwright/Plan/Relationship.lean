/-
The pair of fields that one relationship gives to the classes at its ends.

Each function takes the two class names and the suffix of the relationship, and gives the fields with the classes they
belong to, the declaring end first. Both fields of a pair carry the same JSON reference, exactly one owns it, and the
field that is mapped names its partner.
-/
import Classwright.Entity.Basic

namespace Classwright

/-- a field with the class it belongs to -/
structure Placed where
  owner : String
  field : RelationField
  deriving DecidableEq, Repr

namespace Relationship

open Naming

/-- the name of the other end; a class related to itself needs two different ones -/
def inverseName (name : String) (selfRelated : Bool) : String :=
  if selfRelated then "inverse" ++ Text.upperFirst name else name

def inverseColumn (name : String) (selfRelated : Bool) : String :=
  if selfRelated then "inverse_" ++ name else name

/-- many to many: the source owns the join table -/
def manyToMany (source target suffix : String) : List Placed :=
  let s := lowerFirst source
  let t := lowerFirst target
  let owningName := plural t ++ suffix
  let reference := s ++ "_" ++ t ++ suffix
  [⟨source, {
      name := owningName
      kind := .manyToMany
      related := target
      owning := true
      collection := true
      joinTable := some ⟨s ++ "_" ++ t ++ suffix, s ++ "_id", inverseColumn (t ++ "_id") (source == target)⟩
      jsonReference := some reference }⟩,
   ⟨target, {
      name := inverseName (plural s ++ suffix) (source == target)
      kind := .manyToMany
      related := source
      owning := false
      collection := true
      mappedBy := some owningName
      jsonReference := some reference }⟩]

/-- one to many: a collection on the one side, a foreign key on the many side -/
def oneToMany (one many suffix : String) : List Placed :=
  let backRef := lowerFirst one ++ suffix
  [⟨one, {
      name := plural (lowerFirst many) ++ suffix
      kind := .oneToMany
      related := many
      owning := true
      collection := true
      mappedBy := some backRef
      jsonReference := some backRef }⟩,
   ⟨many, {
      name := backRef
      kind := .manyToOne
      related := one
      owning := false
      joinColumn := some (backRef ++ "_id")
      jsonReference := some backRef }⟩]

/-- one to one: the source owns the foreign key -/
def oneToOne (source target suffix : String) : List Placed :=
  let s := lowerFirst source
  let t := lowerFirst target
  let owningName := t ++ suffix
  let reference := s ++ "_" ++ t ++ suffix
  [⟨source, {
      name := owningName
      kind := .oneToOne
      related := target
      owning := true
      joinColumn := some (owningName ++ "_id")
      jsonReference := some reference }⟩,
   ⟨target, {
      name := inverseName (s ++ suffix) (source == target)
      kind := .oneToOne
      related := source
      owning := false
      mappedBy := some owningName
      jsonReference := some reference }⟩]

/-- one end of an association and its association class: the end holds a collection, the class a foreign key -/
def viaClass (endpoint assoc suffix : String) : List Placed :=
  let backRef := lowerFirst endpoint ++ suffix
  let reference := lowerFirst endpoint ++ "_" ++ lowerFirst assoc ++ suffix
  [⟨endpoint, {
      name := plural (lowerFirst assoc) ++ suffix
      kind := .oneToMany
      related := assoc
      owning := true
      collection := true
      mappedBy := some backRef
      jsonReference := some reference }⟩,
   ⟨assoc, {
      name := backRef
      kind := .manyToOne
      related := endpoint
      owning := false
      joinColumn := some (backRef ++ "_id")
      jsonReference := some reference }⟩]

/-- the field of a part that leads to its whole -/
def wholeField (whole suffix : String) : String := lowerFirst whole ++ suffix

/-- a whole and its parts: the collection cascades, and the key of the way back is part of the part's identity -/
def composition (whole part suffix : String) : List Placed :=
  let back := wholeField whole suffix
  let reference := back ++ "_composition"
  [⟨whole, {
      name := plural (lowerFirst part) ++ suffix
      kind := .oneToMany
      related := part
      owning := true
      collection := true
      mappedBy := some back
      cascadeAll := true
      orphanRemoval := true
      jsonReference := some reference }⟩,
   ⟨part, {
      name := back
      kind := .manyToOne
      related := whole
      owning := false
      joinColumn := some (back ++ "_id")
      optional := false
      mapsId := some (back ++ "Id")
      jsonReference := some reference }⟩]

/-- the fields of an edge by its cardinalities -/
def byCardinality (source target suffix : String) (sourceMany targetMany : Bool) : List Placed :=
  match sourceMany, targetMany with
  | true, true => manyToMany source target suffix
  | false, true => oneToMany source target suffix
  | true, false => oneToMany target source suffix
  | false, false => oneToOne source target suffix

end Relationship

end Classwright
