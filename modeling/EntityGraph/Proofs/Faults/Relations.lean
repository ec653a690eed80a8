import EntityGraph.Proofs.Annotations.Block
import EntityGraph.Proofs.Relation.Link
import EntityGraph.Proofs.TypeGraph.Fields

/-!
# Relations that do not fit

A relation is stored in the way that its model declares, or in the conventional one. Types are built
from properties alone, so that a declared kind which does not fit the type of its property shows
only when the relation is resolved.

* `Catalog.Misdeclared` says that a kind does not fit, and `Catalog.relation_eq` what becomes of a
  relation in either case;
* `TypeNode.relation_of_mem` says the same of the fields of a built type.
-/

namespace EntityGraph

/-- Whether relations of a kind lead to one entity at most. -/
def RelationKind.isToOne : RelationKind → Bool
  | belongsTo _ => true
  | hasOne _ => true
  | _ => false

theorem RelationKind.isToOne_link (kind : RelationKind) (owner target property : String) :
    (kind.link owner target property).isToOne = kind.isToOne := by
  cases kind <;> rfl

/-- The kind of the relation behind a property: the declared one, or else the conventional one. -/
def ModelDefinition.kindOf (d : ModelDefinition) (p : Property) : RelationKind :=
  ((d.relations.find? (·.property == p.name)).map (·.kind)).getD (RelationKind.default p.isList)

namespace Catalog

variable {c : Catalog} {m target : ModelId} {name : String} {p : Property}

/-- A property that is found is described. -/
theorem property_eq_ok : c.property m name = .ok p ↔
    ∃ properties, c.describe m = .ok properties ∧ properties.find? (·.name == name) = some p := by
  simp only [property, findProperty, bind_eq_ok, elim_error_eq_ok]

/-- A described model has a definition, and the models of its relations are known. -/
theorem contains_of_property (hp : c.property m name = .ok p) (htarget : p.target = some target) :
    c.contains m = true ∧ c.contains target = true := by
  obtain ⟨properties, hproperties, hfind⟩ := property_eq_ok.1 hp
  obtain ⟨d, hd, hparse⟩ := bind_eq_ok.1 hproperties
  have hfound := elim_error_eq_ok.1 hd
  have hknown : c.contains m = true :=
    List.any_eq_true.2 ⟨d, List.mem_of_find?_eq_some hfound, by simpa using List.find?_some hfound⟩
  refine ⟨hknown, ?_⟩
  have htype : p.type = .model target := by
    unfold Property.target at htarget
    split at htarget
    · rename_i t ht
      rw [ht, Option.some.inj htarget]
    · cases htarget
  exact Annotations.known_of_parse hparse (List.mem_of_find?_eq_some hfind) htype

/-- The kind of a relation does not fit the type of its property: it leads to one entity at most,
and the property is a list, or the other way round. -/
def Misdeclared (c : Catalog) (m : ModelId) (p : Property) : Prop :=
  ∃ d target, c.definition m = .ok d ∧ p.target = some target ∧ (d.kindOf p).isToOne = p.isList

/-- A relation is resolved unless its kind does not fit. -/
theorem relation_eq (hp : c.property m name = .ok p) (htarget : p.target = some target) :
    ∃ d related, c.definition m = .ok d ∧ c.definition target = .ok related ∧
      c.relation m name = if (d.kindOf p).isToOne = p.isList then
        .error (.metadata m name .cardinality)
      else .ok ⟨name, d.tableName, target, related.tableName,
        (d.kindOf p).link d.name related.name name⟩ := by
  obtain ⟨hm, ht⟩ := contains_of_property hp htarget
  obtain ⟨d, hd⟩ := exists_definition_of_contains hm
  obtain ⟨related, hrelated⟩ := exists_definition_of_contains ht
  have hname : p.name = name := by
    obtain ⟨properties, -, hfind⟩ := property_eq_ok.1 hp
    simpa using List.find?_some hfind
  subst hname
  refine ⟨d, related, hd, hrelated, ?_⟩
  have hlink := (d.kindOf p).isToOne_link d.name related.name p.name
  simp only [relation, hp, bind, Except.bind, resolveRelation, htarget, hd, hrelated]
  by_cases hfits : (d.kindOf p).isToOne = p.isList
  · rw [if_pos hfits]
    exact if_pos (beq_iff_eq.2 (hfits.symm.trans hlink.symm))
  · rw [if_neg hfits]
    exact if_neg fun heq => hfits (hlink.symm.trans (beq_iff_eq.1 heq).symm)

end Catalog

/-- The model that the field of a relation leads to. -/
def FieldShape.related : FieldShape → Option ModelId
  | toOne target => some target
  | toMany target => some target
  | connection target => some target
  | _ => none

theorem FieldShape.target_of_related {shape : FieldShape} {target : ModelId}
    (h : shape.related = some target) : shape.target = some target := by
  cases shape <;> first | exact h | cases h

/-- Whether a field leads to one entity at most. -/
def FieldShape.isToOne : FieldShape → Bool
  | toOne _ => true
  | _ => false

theorem TypeKind.shape_relationField (p : Property) (target : ModelId) :
    (relationField p target).shape.related = some target ∧
      (relationField p target).shape.isToOne = !p.isList := by
  unfold relationField
  cases p.isList with
  | false => exact ⟨rfl, rfl⟩
  | true => cases p.paginated <;> exact ⟨rfl, rfl⟩

/-- A field of a built object that leads to entities of a model shows a relation to that model,
which is a list unless the field leads to one entity. -/
theorem TypeNode.exists_relation {c : Catalog} {n : TypeNode} {f : FieldNode} {target : ModelId}
    (hn : n.Complete c) (hkind : n.key.kind = .object) (hf : f ∈ n.fields)
    (htarget : f.shape.related = some target) :
    ∃ p, c.property n.key.model f.name = .ok p ∧ p.target = some target ∧
      f.shape.isToOne = !p.isList := by
  have hcases := mem_fields hn (by simp [TypeKind.ofProperties, hkind]) hf
  rw [hkind] at hcases
  rcases hcases with hcombining | ⟨p, hp, -, hfield⟩
  · cases hcombining
  have hname := (TypeKind.name_of_fieldOf hfield).1
  cases htype : p.type with
  | model target' =>
    simp only [TypeKind.fieldOf, htype, Except.ok.injEq] at hfield
    obtain ⟨hrelated, hone⟩ := TypeKind.shape_relationField p target'
    rw [hfield] at hrelated hone
    obtain rfl := Option.some.inj (hrelated.symm.trans htarget)
    exact ⟨p, hname ▸ hp, by simp [Property.target, htype], hone⟩
  | scalar kind =>
    simp only [TypeKind.fieldOf, htype, Except.ok.injEq] at hfield
    rw [← hfield] at htarget
    cases htarget
  | untypedArray => simp [TypeKind.fieldOf, htype] at hfield
  | «unsupported» name => simp [TypeKind.fieldOf, htype] at hfield

/-- The relation that a field of a built object shows: it is resolved if the declared kind fits the
field, and otherwise found not to fit. -/
theorem TypeNode.relation_of_mem {c : Catalog} {n : TypeNode} {f : FieldNode} {target : ModelId}
    (hn : n.Complete c) (hkind : n.key.kind = .object) (hf : f ∈ n.fields)
    (htarget : f.shape.related = some target) :
    ∃ d p, c.definition n.key.model = .ok d ∧ c.property n.key.model f.name = .ok p ∧
      ((d.kindOf p).isToOne = f.shape.isToOne →
        ∃ r, c.relation n.key.model f.name = .ok r ∧ r.target = target ∧
          r.link.isToOne = f.shape.isToOne) ∧
      ((d.kindOf p).isToOne ≠ f.shape.isToOne → c.relation n.key.model f.name =
        .error (.metadata n.key.model f.name .cardinality)) := by
  obtain ⟨p, hp, hrelated, hone⟩ := exists_relation hn hkind hf htarget
  obtain ⟨d, related, hd, -, hrelation⟩ := Catalog.relation_eq hp hrelated
  refine ⟨d, p, hd, hp, fun hfits => ?_, fun hmisfits => ?_⟩
  · have hne : (d.kindOf p).isToOne ≠ p.isList := by
      rw [hfits, hone]
      cases p.isList <;> decide
    exact ⟨_, hrelation.trans (if_neg hne), rfl, (RelationKind.isToOne_link ..).trans hfits⟩
  · have heq : (d.kindOf p).isToOne = p.isList := by
      rw [hone] at hmisfits
      exact (Bool.eq_not_of_ne hmisfits).trans (Bool.not_not _)
    exact hrelation.trans (if_pos heq)

end EntityGraph
