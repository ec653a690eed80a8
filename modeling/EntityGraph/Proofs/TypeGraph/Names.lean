import EntityGraph.Proofs.TypeGraph.Roots
import EntityGraph.Schema.Types

/-!
# The names of types

Fields refer to types by name. The name of a type is made from the name of its model without the
namespace, so names may clash: those of models of one name in two namespaces, and those of models
of which one is called like a type of the other.

* `TypeKey.SameName` says when two types have one name, and `TypeKey.typeName_mem_fixedNames` when
  a type has the name of one that every interface has;
* `TypeKey.referred` and `Argument.referred` are the types that references are made for, and
  `TypeRequest.Whole.names_field` says that references name them;
* `TypeRef.Means` says that a name leads to one type, and `Schema.find?_foldl_register` which type a
  schema has under a name;
* `TypeRequest.names_identify` is the result.
-/

namespace EntityGraph

open TypeRequest (Whole)

namespace TypeKind

/-- What a role adds to the name of a model. -/
def suffix : TypeKind → String
  | object => ""
  | input => "Input"
  | filter => "FilterInput"
  | order => "OrderInput"
  | connection => "Connection"
  | edge => "Edge"

/-- What a second role adds in front of what a first one adds, where both end alike. -/
def gap : TypeKind → TypeKind → Option String
  | object, object => none
  | object, kind => some kind.suffix
  | input, filter => some "Filter"
  | input, order => some "Order"
  | _, _ => none

variable {kind kind' : TypeKind} {a b : String}

theorem typeName_eq (kind : TypeKind) (name : String) :
    kind.typeName name = name ++ kind.suffix := by
  cases kind <;> simp [typeName, suffix]

theorem suffix_of_gap {s : String} (h : kind.gap kind' = some s) :
    kind'.suffix = s ++ kind.suffix := by
  cases kind <;> cases kind' <;> cases h <;> decide

theorem gap_of_suffix (h : kind.suffix.toList <:+ kind'.suffix.toList) :
    kind = kind' ∨ (kind.gap kind').isSome = true := by
  revert h
  cases kind <;> cases kind' <;> decide

/-- Two names end alike in that one of the additions ends with the other. -/
theorem eq_of_typeName_eq (h : kind.typeName a = kind'.typeName b)
    (hsuffix : kind.suffix.toList <:+ kind'.suffix.toList) :
    (kind = kind' ∧ a = b) ∨ ∃ s, kind.gap kind' = some s ∧ a = b ++ s := by
  rw [typeName_eq, typeName_eq] at h
  rcases gap_of_suffix hsuffix with rfl | hgap
  · exact .inl ⟨rfl, (String.append_left_inj _).1 h⟩
  · obtain ⟨s, hs⟩ := Option.isSome_iff_exists.1 hgap
    rw [suffix_of_gap hs, ← String.append_assoc] at h
    exact .inr ⟨s, hs, (String.append_left_inj _).1 h⟩

theorem typeName_of_gap {s : String} (h : kind.gap kind' = some s) :
    kind.typeName (b ++ s) = kind'.typeName b := by
  rw [typeName_eq, typeName_eq, suffix_of_gap h, String.append_assoc]

end TypeKind

/-- Two types have one name: they have one role, for models of one name, or the model of one is
called like the model of the other with what is between their roles. -/
def TypeKey.SameName (k k' : TypeKey) : Prop :=
  (k.kind = k'.kind ∧ k.model.name = k'.model.name) ∨
    (∃ s, k.kind.gap k'.kind = some s ∧ k.model.name = k'.model.name ++ s) ∨
    ∃ s, k'.kind.gap k.kind = some s ∧ k'.model.name = k.model.name ++ s

/-- The names of the types that every interface has: of scalars, of the inputs that all models
share, and of the roots. -/
def Schema.fixedNames : List String :=
  (SchemaType.builtIn ++ SchemaType.shared).map (·.name) ++ [queryName, mutationName]

namespace TypeKey

theorem typeName_eq_iff (k k' : TypeKey) : k.typeName = k'.typeName ↔ k.SameName k' := by
  constructor
  · intro h
    have hends : k.kind.suffix.toList <:+ k'.typeName.toList :=
      ⟨k.model.name.toList, by rw [← h, typeName, TypeKind.typeName_eq, String.toList_append]⟩
    have hends' : k'.kind.suffix.toList <:+ k'.typeName.toList :=
      ⟨k'.model.name.toList, by rw [typeName, TypeKind.typeName_eq, String.toList_append]⟩
    rcases List.suffix_or_suffix_of_suffix hends hends' with hsuffix | hsuffix
    · exact (TypeKind.eq_of_typeName_eq h hsuffix).imp_right .inl
    · rcases TypeKind.eq_of_typeName_eq h.symm hsuffix with ⟨hkind, hname⟩ | hgap
      · exact .inl ⟨hkind.symm, hname.symm⟩
      · exact .inr (.inr hgap)
  · rintro (⟨hkind, hname⟩ | ⟨s, hs, hname⟩ | ⟨s, hs, hname⟩)
    · rw [typeName, typeName, hkind, hname]
    · rw [typeName, typeName, hname, TypeKind.typeName_of_gap hs]
    · rw [typeName, typeName, hname, TypeKind.typeName_of_gap hs]

/-- Of the names of types only those of objects, which are the names of models, may be names of
types that every interface has. -/
theorem typeName_mem_fixedNames (k : TypeKey) :
    k.typeName ∈ Schema.fixedNames ↔ k.kind = .object ∧ k.model.name ∈ Schema.fixedNames := by
  constructor
  · intro h
    have hends : ∀ kind : TypeKind, kind ≠ .object →
        ∀ name ∈ Schema.fixedNames, ¬ kind.suffix.toList <:+ name.toList := by
      intro kind hkind
      cases kind with
      | object => exact absurd rfl hkind
      | _ => decide +kernel
    by_cases hkind : k.kind = .object
    · rw [typeName, hkind] at h
      exact ⟨hkind, h⟩
    · refine absurd ⟨k.model.name.toList, ?_⟩ (hends _ hkind _ h)
      rw [typeName, TypeKind.typeName_eq, String.toList_append]
  · rintro ⟨hkind, h⟩
    rw [typeName, hkind]
    exact h

end TypeKey

theorem TypeRef.IsShared.mem_fixedNames {t : TypeRef} (h : t.IsShared) :
    t.base ∈ Schema.fixedNames := by
  rcases h with ⟨kind, h⟩ | ⟨kind, h⟩ | h
  · rw [h]
    cases kind <;> decide
  · rw [h]
    cases kind <;> decide
  · rw [h]
    decide

/-! ### What references are made for -/

/-- The type of the graph among the types of inputs. -/
def InputType.key? : InputType → Option TypeKey
  | node k => some k
  | _ => none

/-- The type of the graph that the field of an object leads to. -/
def FieldShape.key? : FieldShape → Option TypeKey
  | toOne target => some ⟨target, .object⟩
  | toMany target => some ⟨target, .object⟩
  | connection target => some ⟨target, .connection⟩
  | edges target => some ⟨target, .edge⟩
  | node target => some ⟨target, .object⟩
  | _ => none

/-- The type of the graph that the field of a type refers to, none for a type that all models
share. -/
def TypeKey.referred (k : TypeKey) (f : FieldNode) : Option TypeKey :=
  if k.kind.isInput then (f.toInput k).input.key? else f.shape.key?

/-- The type of the graph that an argument of a list of entities of a model refers to. -/
def Argument.referred (a : Argument) (target : ModelId) : Option TypeKey :=
  if a.name = "filter" then some ⟨target, .filter⟩
  else if a.name = "order" then some ⟨target, .order⟩
  else none

/-- A reference has the name of a type of the graph, or that of a type that all models share. -/
def TypeRef.Names (g : TypeGraph) (t : TypeRef) : Option TypeKey → Prop
  | some k => k ∈ g.keys ∧ t.base = k.typeName
  | none => t.IsShared

/-- A reference leads to one type of the graph, which is that of a key, or to none of them where it
is to lead to a type that all models share. -/
def TypeRef.Means (g : TypeGraph) (t : TypeRef) : Option TypeKey → Prop
  | some k => ∃ n ∈ g.nodes, n.key = k ∧ ∀ n' ∈ g.nodes, n'.name = t.base ↔ n' = n
  | none => t.IsShared ∧ ∀ n ∈ g.nodes, n.name ≠ t.base

section References

variable {c : Catalog} {asked : List TypeKey} {g : TypeGraph} {n : TypeNode} {f : FieldNode}

/-- The arguments of a list name what they are made for. -/
theorem ListOptions.names_args {o : ListOptions} {target : ModelId}
    (hkeys : ∀ k ∈ o.refers target, k ∈ g.keys) :
    ∀ a ∈ o.args target, a.type.Names g (a.referred target) := by
  obtain ⟨paginate, filterable, orderable⟩ := o
  have hint : (TypeRef.named "Int").IsShared := .inl ⟨.int, rfl⟩
  intro a ha
  simp only [args, List.mem_append] at ha
  rcases ha with (ha | ha) | ha
  · split_ifs at ha
    · simp only [List.mem_cons, List.not_mem_nil, or_false] at ha
      rcases ha with rfl | rfl <;> exact hint
    · cases ha
  · split_ifs at ha with hfilterable
    · obtain rfl := List.mem_singleton.1 ha
      exact ⟨hkeys _ (by simp [refers, hfilterable]), rfl⟩
    · cases ha
  · split_ifs at ha with horderable
    · obtain rfl := List.mem_singleton.1 ha
      exact ⟨hkeys _ (by simp [refers, horderable]), rfl⟩
    · cases ha

/-- The field of a relation names the type of its target. -/
theorem TypeKind.names_relationField {m : ModelId} {p : Property} {target : ModelId}
    (hkeys : ∀ k ∈ p.objectRefers target, k ∈ g.keys) :
    (relationField p target).type.Names g
        ((TypeKey.mk m .object).referred (relationField p target)) ∧
      ∀ a ∈ (relationField p target).args, ∃ target', (relationField p target).shape.target =
        some target' ∧ a.type.Names g (a.referred target') := by
  unfold relationField
  unfold Property.objectRefers at hkeys
  cases hlist : p.isList with
  | false =>
    simp only [hlist, Bool.false_eq_true, if_false] at hkeys
    exact ⟨⟨hkeys _ List.mem_cons_self, TypeRef.base_nullable _⟩, fun a ha => nomatch ha⟩
  | true =>
    simp only [hlist, if_true] at hkeys
    have hargs := ListOptions.names_args (o := p.listOptions) fun k hk =>
      hkeys k (List.mem_append_left _ hk)
    have hlast := hkeys _ (List.mem_append_right _ List.mem_cons_self)
    cases hpaginated : p.paginated with
    | true =>
      rw [hpaginated] at hlast
      exact ⟨⟨hlast, by simp⟩, fun a ha => ⟨target, rfl, hargs a ha⟩⟩
    | false =>
      rw [hpaginated] at hlast
      exact ⟨⟨hlast, by simp⟩, fun a ha => ⟨target, rfl, hargs a ha⟩⟩

/-- The field of a property in an object names what it is made for. -/
theorem TypeKind.names_objectField {m : ModelId} {p : Property}
    (hfield : object.fieldOf m p = .ok f) (hkeys : ∀ k ∈ object.refers p, k ∈ g.keys) :
    f.type.Names g ((TypeKey.mk m .object).referred f) ∧
      ∀ a ∈ f.args, ∃ target, f.shape.target = some target ∧
        a.type.Names g (a.referred target) := by
  cases htype : p.type <;> simp only [fieldOf, htype, Except.ok.injEq, reduceCtorEq] at hfield
  case scalar s =>
    subst hfield
    refine ⟨.inl ⟨s, ?_⟩, fun a ha => (List.not_mem_nil ha).elim⟩
    unfold scalarType
    split_ifs <;> simp
  case model target =>
    subst hfield
    exact names_relationField (by simpa [refers, Property.target, htype] using hkeys)

/-- A reference that has the name of a type of inputs. -/
theorem InputType.names {i : InputType} {t : TypeRef} (hname : i.name = t.base)
    (hkeys : ∀ k, i = .node k → k ∈ g.keys) : t.Names g i.key? := by
  cases i with
  | scalar kind => exact .inl ⟨kind, hname.symm⟩
  | operators kind => exact .inr (.inl ⟨kind, hname.symm⟩)
  | direction => exact .inr (.inr hname.symm)
  | node k => exact ⟨hkeys k rfl, hname.symm⟩

theorem TypeKind.mem_refers_of_inputType {kind : TypeKind} {p : Property} {k : TypeKey}
    (h : kind.inputType p = .node k) : k ∈ kind.refers p := by
  unfold inputType at h
  split at h <;> cases h
  all_goals simp_all [refers, Property.target]

/-- Fields of inputs have no arguments. -/
theorem TypeNode.args_of_isInput (hn : n.Complete c) (hkind : n.key.kind.isInput = true)
    (hf : f ∈ n.fields) : f.args = [] := by
  obtain ⟨⟨m, kind⟩, built⟩ := n
  have hproperties : kind.ofProperties := by
    constructor <;> rintro rfl <;> cases hkind
  rcases TypeNode.mem_fields hn hproperties hf with hf | ⟨p, -, -, hfield⟩
  · cases kind with
    | filter =>
      simp only [TypeKind.combining, List.mem_cons, List.not_mem_nil, or_false] at hf
      rcases hf with rfl | rfl | rfl <;> rfl
    | _ => cases hf
  · cases kind <;> cases htype : p.type <;> simp only [TypeKind.fieldOf, htype] at hfield <;>
      cases hfield <;> first | rfl | cases hkind

namespace TypeRequest.Whole

/-- The types that an input leads to are there. -/
theorem mem_keys_of_toInput (hg : Whole c asked g) (hn : n ∈ g.nodes)
    (hkind : n.key.kind.isInput = true) (hf : f ∈ n.fields) {k : TypeKey}
    (hk : (f.toInput n.key).input = .node k) : k ∈ g.keys := by
  have hown : n.key ∈ g.keys := List.mem_map_of_mem hn
  have hproperties : n.key.kind.ofProperties := by
    constructor <;> intro h <;> rw [h] at hkind <;> cases hkind
  rcases TypeNode.mem_fields (hg.complete n hn) hproperties hf with hf | ⟨p, hp, hshows, hfield⟩
  · rw [FieldNode.toInput, (TypeKind.mem_combining hf).2.2] at hk
    exact InputType.node.inj hk ▸ hown
  · rw [FieldNode.toInput, (TypeKind.name_of_fieldOf hfield).2] at hk
    exact (hg.hasField hproperties hown hp hshows).2 k (TypeKind.mem_refers_of_inputType hk)

/-- Fields and their arguments name what they are made for. -/
theorem names_field (hg : Whole c asked g) (hn : n ∈ g.nodes) (hf : f ∈ n.fields) :
    f.type.Names g (n.key.referred f) ∧
      ∀ a ∈ f.args, ∃ target, f.shape.target = some target ∧
        a.type.Names g (a.referred target) := by
  have hcomplete := hg.complete n hn
  have hk : n.key ∈ g.keys := List.mem_map_of_mem hn
  by_cases hinput : n.key.kind.isInput = true
  · rw [TypeKey.referred, if_pos hinput, TypeNode.args_of_isInput hcomplete hinput hf]
    exact ⟨InputType.names (TypeNode.name_inputType hcomplete hinput hf) fun k hk =>
      hg.mem_keys_of_toInput hn hinput hf hk, fun a ha => nomatch ha⟩
  obtain ⟨⟨m, kind⟩, built⟩ := n
  cases kind with
  | connection =>
    rcases TypeNode.mem_connection hcomplete rfl hf with rfl | rfl
    · exact ⟨.inl ⟨.int, rfl⟩, fun a ha => nomatch ha⟩
    · exact ⟨⟨hg.mem_keys_of_refers hk List.mem_cons_self, rfl⟩, fun a ha => nomatch ha⟩
  | edge =>
    obtain rfl := TypeNode.mem_edge hcomplete rfl hf
    exact ⟨⟨hg.object_of_edge hk, rfl⟩, fun a ha => nomatch ha⟩
  | object =>
    have hproperties : TypeKind.object.ofProperties := ⟨nofun, nofun⟩
    rcases TypeNode.mem_fields hcomplete hproperties hf with hf | ⟨p, hp, hshows, hfield⟩
    · cases hf
    · exact TypeKind.names_objectField hfield (hg.hasField hproperties hk hp hshows).2
  | _ => exact absurd rfl hinput

end TypeRequest.Whole

/-! ### Where names do not clash -/

@[simp] theorem SchemaType.name_ofNode (n : TypeNode) : (ofNode n).name = n.name := by
  unfold ofNode
  split_ifs <;> rfl

/-- No two types of a graph have one name, and none has the name of a type that every interface
has. -/
structure TypeGraph.Apart (g : TypeGraph) : Prop where
  names : ∀ k ∈ g.keys, ∀ k' ∈ g.keys, k.SameName k' → k = k'
  fixed : ∀ k ∈ g.keys, k.kind = .object → k.model.name ∉ Schema.fixedNames

namespace TypeGraph.Apart

theorem of_nodup (hnodup : (g.keys.map TypeKey.typeName).Nodup)
    (hfixed : ∀ k ∈ g.keys, k.typeName ∉ Schema.fixedNames) : g.Apart := by
  refine ⟨fun k hk k' hk' hsame => ?_, fun k hk hkind hname => ?_⟩
  · exact List.inj_on_of_nodup_map hnodup hk hk' ((k.typeName_eq_iff k').2 hsame)
  · exact hfixed k hk (k.typeName_mem_fixedNames.2 ⟨hkind, hname⟩)

theorem eq_of_name_eq (h : g.Apart) (hnodup : g.keys.Nodup) {n' : TypeNode} (hn : n ∈ g.nodes)
    (hn' : n' ∈ g.nodes) (hname : n.name = n'.name) : n = n' := by
  refine List.inj_on_of_nodup_map hnodup hn hn' ?_
  exact h.names _ (List.mem_map_of_mem hn) _ (List.mem_map_of_mem hn')
    ((TypeKey.typeName_eq_iff _ _).1 hname)

theorem name_not_mem (h : g.Apart) (hn : n ∈ g.nodes) : n.name ∉ Schema.fixedNames := by
  intro hfixed
  obtain ⟨hkind, hname⟩ := n.key.typeName_mem_fixedNames.1 hfixed
  exact h.fixed _ (List.mem_map_of_mem hn) hkind hname

/-- No two types that are not written by hand have one name. -/
theorem eq_of_names (h : g.Apart) (hnodup : g.keys.Nodup) {t u : SchemaType}
    (ht : t ∈ SchemaType.builtIn ++ SchemaType.shared ++ g.nodes.map SchemaType.ofNode)
    (hu : u ∈ SchemaType.builtIn ++ SchemaType.shared ++ g.nodes.map SchemaType.ofNode)
    (hname : t.name = u.name) : t = u := by
  have hfixed : ∀ n ∈ g.nodes, ∀ t ∈ SchemaType.builtIn ++ SchemaType.shared,
      (SchemaType.ofNode n).name ≠ t.name := by
    intro n hn t ht heq
    refine h.name_not_mem hn (List.mem_append_left _ ?_)
    rw [← SchemaType.name_ofNode, heq]
    exact List.mem_map_of_mem ht
  rcases List.mem_append.1 ht with ht | ht
  · rcases List.mem_append.1 hu with hu | hu
    · refine List.inj_on_of_nodup_map (f := SchemaType.name) ?_ ht hu hname
      decide
    · obtain ⟨n, hn, rfl⟩ := List.mem_map.1 hu
      exact absurd hname.symm (hfixed n hn t ht)
  · obtain ⟨n, hn, rfl⟩ := List.mem_map.1 ht
    rcases List.mem_append.1 hu with hu | hu
    · exact absurd hname (hfixed n hn u hu)
    · obtain ⟨n', hn', rfl⟩ := List.mem_map.1 hu
      rw [SchemaType.name_ofNode, SchemaType.name_ofNode] at hname
      rw [h.eq_of_name_eq hnodup hn hn' hname]

/-- A reference leads to what it names. -/
theorem means (h : g.Apart) (hnodup : g.keys.Nodup) {t : TypeRef} {k? : Option TypeKey}
    (ht : t.Names g k?) : t.Means g k? := by
  cases k? with
  | none => exact ⟨ht, fun n hn hname => h.name_not_mem hn (hname ▸ ht.mem_fixedNames)⟩
  | some k =>
    obtain ⟨hk, hbase⟩ := ht
    obtain ⟨n, hn, rfl⟩ := List.mem_map.1 hk
    refine ⟨n, hn, rfl, fun n' hn' => ⟨fun hname => ?_, fun heq => heq ▸ hbase.symm⟩⟩
    exact h.eq_of_name_eq hnodup hn' hn (hname.trans hbase)

end TypeGraph.Apart

end References

namespace Schema

variable {g : TypeGraph} {plans : List RootPlan} {custom : CustomParts} {t : SchemaType}

/-- Where names do not clash, the schema has every type that is not written by hand under its
name. -/
theorem find?_assemble (h : g.Apart) (hnodup : g.keys.Nodup)
    (ht : t ∈ SchemaType.builtIn ++ SchemaType.shared ++ g.nodes.map SchemaType.ofNode)
    (hcustom : t.name ∉ custom.types) : (assemble g plans custom).find? t.name = some t := by
  have hroot : ∀ name ∈ [queryName, mutationName], name ≠ t.name := by
    rintro name hname rfl
    rcases List.mem_append.1 ht with ht | ht
    · refine absurd (List.mem_map_of_mem (f := (·.name)) ht) ?_
      simp only [List.mem_cons, List.not_mem_nil, or_false] at hname
      rcases hname with hname | hname <;> rw [hname] <;> decide
    · obtain ⟨n, hn, rfl⟩ := List.mem_map.1 ht
      rw [SchemaType.name_ofNode] at hname
      exact h.name_not_mem hn (List.mem_append_right _ hname)
  refine find?_foldl_put ?_ fun u hu hname => ?_
  · exact List.mem_append_left _ (List.mem_append_left _ (List.mem_append_left _ ht))
  rcases List.mem_append.1 hu with hu | hu
  · rcases List.mem_append.1 hu with hu | hu
    · rcases List.mem_append.1 hu with hu | hu
      · exact h.eq_of_names hnodup hu ht hname
      · exact absurd hname (List.mem_singleton.1 hu ▸ hroot _ List.mem_cons_self)
    · split_ifs at hu
      · cases hu
      · exact absurd hname (List.mem_singleton.1 hu ▸
          hroot _ (List.mem_cons_of_mem _ List.mem_cons_self))
  · obtain ⟨name, hmem, rfl⟩ := List.mem_map.1 hu
    exact absurd (show t.name ∈ custom.types from hname ▸ hmem) hcustom

end Schema

namespace TypeRequest

/-- The arguments that a graph answers lead to what they are made for. -/
def Meant (g : TypeGraph) : TypeRequest → TypeAnswer → Prop
  | type k, .type n => g.find? k = some n
  | listArgs m _, .args l => ∀ a ∈ l, a.type.Means g (a.referred m)
  | _, _ => False

theorem Holds.meant {g : TypeGraph} {r : TypeRequest} {a : TypeAnswer} (h : r.Holds g a)
    (hapart : g.Apart) (hnodup : g.keys.Nodup) : r.Meant g a := by
  cases r <;> cases a <;> simp only [Holds, Meant] at h ⊢
  · exact h
  · obtain ⟨rfl, hkeys⟩ := h
    exact fun a ha => hapart.means hnodup (ListOptions.names_args hkeys a ha)

/-- Two types of a graph have one name exactly if their models and roles say so, and a type has the
name of one that every interface has exactly if it is the object of a model of that name. Where
neither happens, every type has a name of its own, a reference leads to the one type that it is made
for, and the schema has this type under its name, unless a type of that name is written by hand. -/
theorem names_identify {c : Catalog} {requests : List TypeRequest} {answers : List TypeAnswer}
    {g : TypeGraph} (hrun : (runAll c requests).run .empty = (.ok answers, g)) :
    (∀ n ∈ g.nodes, ∀ n' ∈ g.nodes, n.name = n'.name ↔ n.key.SameName n'.key) ∧
    (∀ n ∈ g.nodes, n.name ∈ Schema.fixedNames ↔
      n.key.kind = .object ∧ n.key.model.name ∈ Schema.fixedNames) ∧
    (g.Apart ↔ (∀ n ∈ g.nodes, ∀ n' ∈ g.nodes, n.name = n'.name → n = n') ∧
      ∀ n ∈ g.nodes, n.name ∉ Schema.fixedNames) ∧
    (g.Apart →
      (∀ n ∈ g.nodes, ∀ f ∈ n.fields, f.type.Means g (n.key.referred f) ∧
        ∀ a ∈ f.args, ∃ target, f.shape.target = some target ∧
          a.type.Means g (a.referred target)) ∧
      List.Forall₂ (Meant g) requests answers ∧
      ∀ plans custom, ∀ t ∈ SchemaType.builtIn ++ SchemaType.shared
          ++ g.nodes.map SchemaType.ofNode,
        t.name ∉ custom.types → (Schema.assemble g plans custom).find? t.name = some t) := by
  obtain ⟨hg, hholds⟩ := (asks_runAll c requests).whole hrun
  have hnodup := hg.sound.nodup
  refine ⟨fun n _ n' _ => n.key.typeName_eq_iff n'.key,
    fun n _ => n.key.typeName_mem_fixedNames, ⟨fun hapart => ⟨?_, ?_⟩, ?_⟩,
    fun hapart => ⟨?_, ?_, ?_⟩⟩
  · exact fun n hn n' hn' hname => hapart.eq_of_name_eq hnodup hn hn' hname
  · exact fun n hn => hapart.name_not_mem hn
  · rintro ⟨hnames, hfixed⟩
    constructor
    · intro k hk k' hk' hsame
      obtain ⟨n, hn, rfl⟩ := List.mem_map.1 hk
      obtain ⟨n', hn', rfl⟩ := List.mem_map.1 hk'
      -- two types of one name are one type, so their keys do not clash
      rw [hnames n hn n' hn' ((n.key.typeName_eq_iff n'.key).2 hsame)]
    · intro k hk hkind hname
      obtain ⟨n, hn, rfl⟩ := List.mem_map.1 hk
      exact hfixed n hn (n.key.typeName_mem_fixedNames.2 ⟨hkind, hname⟩)
  · intro n hn f hf
    obtain ⟨htype, hargs⟩ := hg.names_field hn hf
    refine ⟨hapart.means hnodup htype, fun a ha => ?_⟩
    obtain ⟨target, htarget, ha⟩ := hargs a ha
    exact ⟨target, htarget, hapart.means hnodup ha⟩
  · exact hholds.imp fun r a h => h.meant hapart hnodup
  · exact fun plans custom t ht hcustom => Schema.find?_assemble hapart hnodup ht hcustom

open Sample.Shelf in
/-- The types of the shelf do not clash, and the schema has the object of books under its name. -/
theorem names_identify_shelf : ∃ answers g,
    (runAll catalog shelfRequests).run .empty = (.ok answers, g) ∧ g.Apart ∧
      ∃ n ∈ g.nodes, n.key = ⟨book, .object⟩ ∧ ∀ plans,
        (Schema.assemble g plans .none).find? n.name = some (.ofNode n) := by
  generalize hbuilt : (runAll catalog shelfRequests).run .empty = built
  have hruns : (built.1.isOk && decide (built.2.keys.map TypeKey.typeName).Nodup &&
      built.2.keys.all (fun k => !Schema.fixedNames.contains k.typeName) &&
      built.2.nodes.any fun n => n.key == ⟨book, .object⟩) = true := by
    rw [← hbuilt]
    decide +kernel
  simp only [Bool.and_eq_true, decide_eq_true_eq, List.all_eq_true, List.any_eq_true,
    beq_iff_eq] at hruns
  obtain ⟨⟨⟨hok, hnodup⟩, hfixed⟩, n, hn, hkey⟩ := hruns
  obtain ⟨result, g⟩ := built
  obtain ⟨answers, rfl⟩ := exists_of_isOk hok
  have hapart : g.Apart := .of_nodup hnodup fun k hk => by simpa using hfixed k hk
  obtain ⟨-, -, -, hmeans⟩ := names_identify hbuilt
  obtain ⟨-, -, hfind⟩ := hmeans hapart
  refine ⟨answers, g, rfl, hapart, n, hn, hkey, fun plans => ?_⟩
  have hnode := hfind plans .none (.ofNode n)
    (List.mem_append_right _ (List.mem_map_of_mem hn)) List.not_mem_nil
  rwa [SchemaType.name_ofNode] at hnode

open Sample.Shelf in
/-- Names of types are not always their own: books of a library and of a shop have one name, and the
object of orders has the name of the type of directions. -/
theorem not_names_distinct :
    (¬ ∀ (c : Catalog) (requests : List TypeRequest) (answers : List TypeAnswer) (g : TypeGraph),
      (runAll c requests).run .empty = (.ok answers, g) →
        ∀ n ∈ g.nodes, ∀ n' ∈ g.nodes, n.name = n'.name → n = n') ∧
    ¬ ∀ (c : Catalog) (requests : List TypeRequest) (answers : List TypeAnswer) (g : TypeGraph),
      (runAll c requests).run .empty = (.ok answers, g) →
        ∀ n ∈ g.nodes, n.name ∉ Schema.fixedNames := by
  constructor
  · intro h
    generalize hbuilt : (runAll namesakeCatalog [.type ⟨⟨"library::Book"⟩, .object⟩]).run .empty
      = built
    have hruns : (built.1.isOk && built.2.nodes.any fun n => built.2.nodes.any fun n' =>
        n.key != n'.key && n.name == n'.name) = true := by
      rw [← hbuilt]
      decide +kernel
    simp only [Bool.and_eq_true, List.any_eq_true, bne_iff_ne, beq_iff_eq] at hruns
    obtain ⟨hok, n, hn, n', hn', hkey, hname⟩ := hruns
    obtain ⟨result, g⟩ := built
    obtain ⟨answers, rfl⟩ := exists_of_isOk hok
    exact hkey (congrArg _ (h _ _ _ _ hbuilt n hn n' hn' hname))
  · intro h
    generalize hbuilt : (runAll orderCatalog [.type ⟨⟨"shop::Order"⟩, .object⟩]).run .empty = built
    have hruns : (built.1.isOk && built.2.nodes.any fun n =>
        Schema.fixedNames.contains n.name) = true := by
      rw [← hbuilt]
      decide +kernel
    simp only [Bool.and_eq_true, List.any_eq_true, List.contains_iff_mem] at hruns
    obtain ⟨hok, n, hn, hname⟩ := hruns
    obtain ⟨result, g⟩ := built
    obtain ⟨answers, rfl⟩ := exists_of_isOk hok
    exact h _ _ _ _ hbuilt n hn hname

end TypeRequest

end EntityGraph
