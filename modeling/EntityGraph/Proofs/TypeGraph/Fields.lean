import EntityGraph.Proofs.Filter.Levels
import EntityGraph.Proofs.TypeGraph.Complete

/-!
# The fields of the types of a model

A type that is built in a role has a field for each property that its role shows, and a filter has
three more, which combine filters.

* `TypeKind.fieldOf` is the field of a property in a role;
* `TypeNode.mem_fields` says where the fields of a built type come from, and
  `TypeNode.exists_field?` that each of them is found under its name;
* `TypeRequest.whole_of_runAll` says that requests which succeed leave a whole graph.
-/

namespace EntityGraph

namespace Catalog

/-- Whether all properties of all models meet a condition, as far as their annotations can be
read. -/
def allProperties (c : Catalog) (ok : Property → Bool) : Bool :=
  c.definitions.all fun d => match Annotations.parse d.id c.contains d.annotations with
    | .ok properties => properties.all ok
    | .error _ => true

section All

variable {c : Catalog} {ok : Property → Bool} (h : c.allProperties ok = true) {m : ModelId}

include h

theorem of_allProperties {properties : List Property} (hproperties : c.describe m = .ok properties)
    {p : Property} (hp : p ∈ properties) : ok p = true := by
  obtain ⟨d, hd, hparse⟩ := bind_eq_ok.1 hproperties
  have hfound := elim_error_eq_ok.1 hd
  have hid : d.id = m := by simpa using List.find?_some hfound
  have hcheck := List.all_eq_true.1 h d (List.mem_of_find?_eq_some hfound)
  rw [hid, hparse] at hcheck
  exact List.all_eq_true.1 hcheck p hp

theorem property_of_allProperties {name : String} {p : Property}
    (hp : c.property m name = .ok p) : ok p = true ∧ p.name = name := by
  obtain ⟨properties, hproperties, hfind⟩ := bind_eq_ok.1 hp
  have hfound := elim_error_eq_ok.1 hfind
  exact ⟨of_allProperties h hproperties (List.mem_of_find?_eq_some hfound), by
    simpa using List.find?_some hfound⟩

end All

end Catalog

namespace TypeKind

/-- The roles whose types have fields for properties. -/
def ofProperties (kind : TypeKind) : Prop :=
  kind ≠ .connection ∧ kind ≠ .edge

/-- The type of a scalar property, and of a list of scalars. -/
def scalarType (p : Property) (kind : ScalarKind) : TypeRef :=
  let type := TypeRef.named kind.typeName
  let type := if p.isList then .list type.required else type
  type.nullable p.nullable

/-- The field of a relation in the object of its owner. -/
def relationField (p : Property) (target : ModelId) : FieldNode :=
  let object := TypeRef.named (TypeKey.mk target .object).typeName
  if !p.isList then ⟨p.name, object.nullable p.nullable, [], .toOne target, some p⟩
  else if p.paginated then
    ⟨p.name, (TypeRef.named (TypeKey.mk target .connection).typeName).required,
      p.listOptions.args target, .connection target, some p⟩
  else ⟨p.name, (TypeRef.list object.required).required, p.listOptions.args target,
    .toMany target, some p⟩

/-- The type of the keys by which an input sets a relation. -/
def keysType (p : Property) : TypeRef :=
  if p.isList then .list (TypeRef.named "Int").required
  else (TypeRef.named "Int").nullable p.nullable

/-- The field of a property of a model in the type of a role. -/
def fieldOf (kind : TypeKind) (m : ModelId) (p : Property) : Except Error FieldNode :=
  match kind, p.type with
  | object, .scalar s => .ok ⟨p.name, scalarType p s, [], .scalar s, some p⟩
  | object, .model target => .ok (relationField p target)
  | input, .scalar s => .ok (.ofProperty p (scalarType p s))
  | input, .model _ => .ok (.ofProperty p (keysType p))
  | filter, .scalar s => .ok (.ofProperty p (.named s.filterTypeName))
  | filter, .model target => .ok (.ofProperty p (.named (TypeKey.mk target .filter).typeName))
  | order, .scalar _ => .ok (.ofProperty p (.named "Order"))
  | order, .model target => .ok (.ofProperty p (.named (TypeKey.mk target .order).typeName))
  | _, _ => .error (.unsupportedType m p.name p.type.text)

/-- The fields that combine filters on a model. -/
def combining (kind : TypeKind) (m : ModelId) : List FieldNode :=
  let own := TypeRef.named (TypeKey.mk m .filter).typeName
  match kind with
  | filter => [.plain "and" (.list own.required) .input, .plain "or" (.list own.required) .input,
    .plain "not" own .input]
  | _ => []

variable {kind : TypeKind} {m : ModelId} {p : Property} {f : FieldNode}

theorem name_relationField (p : Property) (target : ModelId) :
    (relationField p target).name = p.name ∧ (relationField p target).property = some p := by
  unfold relationField
  split_ifs <;> exact ⟨rfl, rfl⟩

/-- The field of a property has its name and stands for it. -/
theorem name_of_fieldOf (h : kind.fieldOf m p = .ok f) : f.name = p.name ∧ f.property = some p := by
  unfold fieldOf at h
  split at h
  case h_2 => exact Except.ok.inj h ▸ name_relationField p _
  case h_9 => cases h
  all_goals exact Except.ok.inj h ▸ ⟨rfl, rfl⟩

theorem mem_combining : f ∈ kind.combining m →
    kind = .filter ∧ f.name ∈ FilterExpr.combinators ∧ f.property = none := by
  intro hf
  cases kind with
  | filter =>
    simp only [combining, List.mem_cons, List.not_mem_nil, or_false] at hf
    rcases hf with rfl | rfl | rfl <;> simp [FieldNode.plain, FilterExpr.combinators]
  | _ => cases hf

/-- Ways to combine filters lead to no entities. -/
theorem shape_of_combining (hf : f ∈ kind.combining m) : f.shape = .input := by
  cases kind with
  | filter =>
    simp only [combining, List.mem_cons, List.not_mem_nil, or_false] at hf
    rcases hf with rfl | rfl | rfl <;> rfl
  | _ => cases hf

/-- Every way to combine filters has a field. -/
theorem exists_combining {name : String} (h : name ∈ FilterExpr.combinators) (m : ModelId) :
    ∃ f ∈ filter.combining m, f.name = name := by
  simp only [FilterExpr.combinators, List.mem_cons, List.not_mem_nil, or_false] at h
  rcases h with rfl | rfl | rfl <;> simp [combining, FieldNode.plain]

end TypeKind

namespace Building

variable {α β : Type} {c : Catalog} {m : ModelId} {p : Property} {g : TypeGraph}

/-- A step that leaves the graph alone, whatever comes out. -/
def Answers (a : Building α) (r : Except Error α) : Prop :=
  ∀ g, a.run g = (r, g)

theorem Answers.bind {a : Building α} {f : α → Building β} {r : Except Error α}
    {s : α → Except Error β} (ha : Answers a r) (hf : ∀ v, Answers (f v) (s v)) :
    Answers (a >>= f) (r >>= s) := by
  intro g
  rw [run_bind, ha g]
  cases r with
  | error e => rfl
  | ok v => exact hf v g

/-- What comes after a step that succeeds. -/
theorem Answers.seq {a : Building α} {v : α} {f : α → Building β} {s : Except Error β}
    (ha : Answers a (.ok v)) (hf : Answers (f v) s) : Answers (a >>= f) s := by
  intro g
  rw [run_bind, ha g]
  exact hf g

theorem Answers.ofExcept (r : Except Error α) : Answers (Building.ofExcept r) r := by
  intro g
  cases r <;> rfl

theorem Answers.mapM {γ : Type} {f : γ → Building β} {s : γ → Except Error β}
    (hf : ∀ x, Answers (f x) (s x)) (l : List γ) : Answers (l.mapM f) (l.mapM s) := by
  induction l with
  | nil => exact fun g => rfl
  | cons x l ih =>
    rw [List.mapM_cons, List.mapM_cons]
    exact (hf x).bind fun y => ih.bind fun ys g => rfl

/-- The type of a key that is there. -/
def there (k : TypeKey) : Building TypeNode :=
  pure ⟨k, none⟩

theorem byKey_there : ByKey there :=
  fun _ => rfl

theorem answers_typeOf (m : ModelId) (kind : TypeKind) :
    Answers (typeOf there m kind) (.ok (.named (TypeKey.mk m kind).typeName)) :=
  fun _ => rfl

theorem answers_listArgs (target : ModelId) (o : ListOptions) :
    Answers (listArgs there target o) (.ok (o.args target)) := by
  intro g
  rw [listArgs_eq byKey_there]
  unfold there
  rw [askFor_pure]
  rfl

theorem answers_unsupported (m : ModelId) (p : Property) {kind : TypeKind}
    (h : kind.fieldOf m p = .error (.unsupportedType m p.name p.type.text)) :
    Answers (unsupported m p) (kind.fieldOf m p) := by
  rw [h]
  exact fun _ => rfl

theorem answers_objectField (m : ModelId) (p : Property) :
    Answers (objectField there m p) (TypeKind.object.fieldOf m p) := by
  unfold objectField
  cases htype : p.type with
  | scalar kind => simp only [TypeKind.fieldOf, htype]; exact fun _ => rfl
  | model target =>
    have hfield : TypeKind.object.fieldOf m p = .ok (TypeKind.relationField p target) := by
      simp only [TypeKind.fieldOf, htype]
    rw [hfield, TypeKind.relationField]
    cases p.isList with
    | false =>
      simp only [Bool.not_false, if_true]
      exact (answers_typeOf target .object).seq fun _ => rfl
    | true =>
      simp only [Bool.not_true, Bool.false_eq_true, if_false]
      refine (answers_listArgs target p.listOptions).seq ?_
      cases p.paginated with
      | true =>
        simp only [if_true]
        exact (answers_typeOf target .connection).seq fun _ => rfl
      | false =>
        simp only [Bool.false_eq_true, if_false]
        exact (answers_typeOf target .object).seq fun _ => rfl
  | untypedArray => exact answers_unsupported m p (by simp only [TypeKind.fieldOf, htype])
  | «unsupported» name => exact answers_unsupported m p (by simp only [TypeKind.fieldOf, htype])

theorem answers_inputField (m : ModelId) (p : Property) :
    Answers (inputField m p) (TypeKind.input.fieldOf m p) := by
  unfold inputField
  cases htype : p.type with
  | scalar kind => simp only [TypeKind.fieldOf, htype]; exact fun _ => rfl
  | model target => simp only [TypeKind.fieldOf, htype]; exact fun _ => rfl
  | untypedArray => exact answers_unsupported m p (by simp only [TypeKind.fieldOf, htype])
  | «unsupported» name => exact answers_unsupported m p (by simp only [TypeKind.fieldOf, htype])

theorem answers_filterField (m : ModelId) (p : Property) :
    Answers (filterField there m p) (TypeKind.filter.fieldOf m p) := by
  unfold filterField
  cases htype : p.type with
  | scalar kind => simp only [TypeKind.fieldOf, htype]; exact fun _ => rfl
  | model target => simp only [TypeKind.fieldOf, htype]; exact fun _ => rfl
  | untypedArray => exact answers_unsupported m p (by simp only [TypeKind.fieldOf, htype])
  | «unsupported» name => exact answers_unsupported m p (by simp only [TypeKind.fieldOf, htype])

theorem answers_orderField (m : ModelId) (p : Property) :
    Answers (orderField there m p) (TypeKind.order.fieldOf m p) := by
  unfold orderField
  cases htype : p.type with
  | scalar kind => simp only [TypeKind.fieldOf, htype]; exact fun _ => rfl
  | model target => simp only [TypeKind.fieldOf, htype]; exact fun _ => rfl
  | untypedArray => exact answers_unsupported m p (by simp only [TypeKind.fieldOf, htype])
  | «unsupported» name => exact answers_unsupported m p (by simp only [TypeKind.fieldOf, htype])

/-- The fields of the properties that a role shows. -/
theorem answers_propertyFields {kind : TypeKind} {field : Property → Building FieldNode}
    (hfield : ∀ p, Answers (field p) (kind.fieldOf m p)) :
    Answers (do
        let properties ← Building.ofExcept (c.describe m)
        (properties.filter kind.shows).mapM field) (do
      let properties ← c.describe m
      (properties.filter kind.shows).mapM (kind.fieldOf m)) :=
  (Answers.ofExcept _).bind fun _ => .mapM hfield _

/-- The fields that are declared for a type: those that combine filters, and those of the properties
that its role shows. -/
theorem declared_eq (c : Catalog) (m : ModelId) {kind : TypeKind} (hkind : kind.ofProperties) :
    (TypeKey.mk m kind).declared c = (do
      let properties ← c.describe m
      let own ← (properties.filter kind.shows).mapM (kind.fieldOf m)
      return kind.combining m ++ own) := by
  -- without combined filters there is nothing in front of the fields of the properties
  have hplain : ∀ {field : Property → Building FieldNode},
      (∀ p, Answers (field p) (kind.fieldOf m p)) → kind.combining m = [] →
      ((do
        let properties ← Building.ofExcept (c.describe m)
        (properties.filter kind.shows).mapM field : Building (List FieldNode)).run .empty).1 = (do
      let properties ← c.describe m
      let own ← (properties.filter kind.shows).mapM (kind.fieldOf m)
      return kind.combining m ++ own) := by
    intro field hfield hnone
    rw [answers_propertyFields hfield, hnone]
    simp only [List.nil_append, bind_pure]
  obtain ⟨hconnection, hedge⟩ := hkind
  cases kind with
  | object => exact hplain (answers_objectField m) rfl
  | input => exact hplain (answers_inputField m) rfl
  | order => exact hplain (answers_orderField m) rfl
  | filter =>
    refine congrArg Prod.fst (((Answers.ofExcept (c.describe m)).bind fun properties =>
      (Answers.mapM (answers_filterField m) (properties.filter TypeKind.filter.shows)).bind
        (s := fun own => .ok (TypeKind.filter.combining m ++ own)) fun own _ => rfl) .empty)
  | connection => exact absurd rfl hconnection
  | edge => exact absurd rfl hedge

end Building

namespace TypeNode

variable {c : Catalog} {n : TypeNode} {f : FieldNode} {p : Property}

/-- The fields of a built type are among those declared for it. -/
theorem mem_declared (hn : n.Complete c) {fields : List FieldNode}
    (hdeclared : n.key.declared c = .ok fields) (hf : f ∈ n.fields) : f ∈ fields := by
  obtain ⟨fields', hdeclared', hbuilt⟩ := hn
  obtain rfl : fields = fields' := Except.ok.inj (hdeclared.symm.trans hdeclared')
  rw [TypeNode.fields, hbuilt, Option.getD_some] at hf
  exact (mem_foldl_put hf).resolve_left List.not_mem_nil

/-- Connections have two fields, whatever their model. -/
theorem mem_connection (hn : n.Complete c) (hkind : n.key.kind = .connection)
    (hf : f ∈ n.fields) :
    f = .plain "totalCount" (TypeRef.named "Int").required .totalCount ∨
      f = .plain "edges" (TypeRef.list (TypeRef.named
        (TypeKey.mk n.key.model .edge).typeName).required).required (.edges n.key.model) := by
  obtain ⟨⟨m, kind⟩, built⟩ := n
  obtain rfl : kind = .connection := hkind
  have hdeclared : (TypeKey.mk m .connection).declared c = .ok [_, _] := rfl
  rcases List.mem_cons.1 (mem_declared hn hdeclared hf) with hmem | hmem
  · exact .inl hmem
  · exact .inr (List.mem_singleton.1 hmem)

/-- Edges have one field, whatever their model. -/
theorem mem_edge (hn : n.Complete c) (hkind : n.key.kind = .edge) (hf : f ∈ n.fields) :
    f = .plain "node" (TypeRef.named (TypeKey.mk n.key.model .object).typeName).required
      (.node n.key.model) := by
  obtain ⟨⟨m, kind⟩, built⟩ := n
  obtain rfl : kind = .edge := hkind
  have hdeclared : (TypeKey.mk m .edge).declared c = .ok [_] := rfl
  exact List.mem_singleton.1 (mem_declared hn hdeclared hf)

/-- The fields of a built type are those that combine filters and those of the properties that its
role shows. -/
theorem mem_fields (hn : n.Complete c) (hkind : n.key.kind.ofProperties) (hf : f ∈ n.fields) :
    f ∈ n.key.kind.combining n.key.model ∨ ∃ p, c.property n.key.model p.name = .ok p ∧
      n.key.kind.shows p = true ∧ n.key.kind.fieldOf n.key.model p = .ok f := by
  obtain ⟨fields, hdeclared, hbuilt⟩ := hn
  have hmem := mem_declared ⟨fields, hdeclared, hbuilt⟩ hdeclared hf
  rw [Building.declared_eq c n.key.model hkind, bind_eq_ok] at hdeclared
  obtain ⟨properties, hproperties, hdeclared⟩ := hdeclared
  obtain ⟨own, hown, hfields⟩ := bind_eq_ok.1 hdeclared
  obtain rfl := pure_eq_ok.1 hfields
  rcases List.mem_append.1 hmem with hmem | hmem
  · exact .inl hmem
  · obtain ⟨p, hp, hfield⟩ := exists_of_forall₂_right (mapM_eq_ok.1 hown) hmem
    obtain ⟨hdescribed, hshows⟩ := List.mem_filter.1 hp
    exact .inr ⟨p, Catalog.property_of_describe hproperties hdescribed, hshows, hfield⟩

theorem exists_field?_of_mem (hn : n.Complete c) {fields : List FieldNode}
    (hfields : n.key.declared c = .ok fields) {name : String} (h : ∃ f ∈ fields, f.name = name) :
    ∃ f, n.field? name = some f := by
  obtain ⟨fields', hfields', hbuilt⟩ := hn
  obtain rfl := Except.ok.inj (hfields.symm.trans hfields')
  have hput : ∃ f ∈ [] ++ fields, f.name = name := h
  obtain ⟨f, hf, hname⟩ := exists_foldl_put hput
  refine Option.isSome_iff_exists.1 (List.find?_isSome.2 ⟨f, ?_, by simpa using hname⟩)
  rwa [TypeNode.fields, hbuilt]

theorem field?_eq_some {name : String} (h : n.field? name = some f) :
    f ∈ n.fields ∧ f.name = name :=
  ⟨List.mem_of_find?_eq_some h, by simpa using List.find?_some h⟩

/-- Every way to combine filters is a field of a built filter. -/
theorem exists_field?_combinator (hn : n.Complete c) (hkind : n.key.kind = .filter) {name : String}
    (h : name ∈ FilterExpr.combinators) : ∃ f, n.field? name = some f := by
  obtain ⟨⟨m, kind⟩, built⟩ := n
  obtain rfl : kind = .filter := hkind
  obtain ⟨fields, hdeclared, hbuilt⟩ := hn
  have heq := hdeclared
  rw [Building.declared_eq c m ⟨by decide, by decide⟩, bind_eq_ok] at heq
  obtain ⟨properties, -, heq⟩ := heq
  obtain ⟨own, -, heq⟩ := bind_eq_ok.1 heq
  obtain rfl := pure_eq_ok.1 heq
  obtain ⟨f, hf, hname⟩ := TypeKind.exists_combining h m
  exact exists_field?_of_mem ⟨_, hdeclared, hbuilt⟩ hdeclared
    ⟨f, List.mem_append_left _ hf, hname⟩

/-- Every property that a role shows has a field in what a built type declares. -/
theorem exists_declared (hn : n.Complete c) (hkind : n.key.kind.ofProperties) {name : String}
    (hp : c.property n.key.model name = .ok p) (hshows : n.key.kind.shows p = true) :
    ∃ f fields, n.key.kind.fieldOf n.key.model p = .ok f ∧ n.key.declared c = .ok fields ∧
      f ∈ fields ∧ f.name = name := by
  obtain ⟨fields, hdeclared, -⟩ := hn
  have heq := hdeclared
  rw [Building.declared_eq c n.key.model hkind, bind_eq_ok] at heq
  obtain ⟨properties, hproperties, heq⟩ := heq
  obtain ⟨own, hown, heq⟩ := bind_eq_ok.1 heq
  obtain rfl := pure_eq_ok.1 heq
  simp only [Catalog.property, hproperties, bind_eq_ok, Except.ok.injEq, exists_eq_left',
    Catalog.findProperty, elim_error_eq_ok] at hp
  have hmem : p ∈ properties.filter n.key.kind.shows :=
    List.mem_filter.2 ⟨List.mem_of_find?_eq_some hp, hshows⟩
  have hname : p.name = name := by simpa using List.find?_some hp
  obtain ⟨f, hf, hfield⟩ := exists_of_forall₂_right (mapM_eq_ok.1 hown).flip hmem
  exact ⟨f, _, hfield, hdeclared, List.mem_append_right _ hf,
    (TypeKind.name_of_fieldOf hfield).1.trans hname⟩

/-- Every property that a role shows is a field of a built type. -/
theorem exists_field? (hn : n.Complete c) (hkind : n.key.kind.ofProperties) {name : String}
    (hp : c.property n.key.model name = .ok p) (hshows : n.key.kind.shows p = true) :
    ∃ f, n.field? name = some f := by
  obtain ⟨f, fields, -, hfields, hf, hname⟩ := exists_declared hn hkind hp hshows
  exact exists_field?_of_mem hn hfields ⟨f, hf, hname⟩

end TypeNode

/-- What succeeds on an empty graph leaves a whole graph. -/
theorem Building.Asks.whole {α : Type} {c : Catalog} {a : Building α} {asked : List TypeKey}
    {P : TypeGraph → α → Prop} {v : α} {g : TypeGraph} (ha : Asks c (bound c) a asked P)
    (h : a.run .empty = (.ok v, g)) : TypeRequest.Whole c asked g ∧ P g v := by
  obtain ⟨r, new, hrun, hr⟩ :=
    ha .empty TypeRequest.sound_empty (TypeGraph.room_lt_bound c .empty)
  obtain ⟨rfl, rfl⟩ := Prod.mk.inj (h.symm.trans hrun)
  obtain ⟨hbuilt, hv⟩ := hr.built v rfl
  exact ⟨TypeRequest.whole_of_built hr.sound hbuilt, hv⟩

/-- Requests that succeed on an empty graph leave a whole graph. -/
theorem TypeRequest.whole_of_runAll {c : Catalog} {requests : List TypeRequest}
    {answers : List TypeAnswer} {g : TypeGraph}
    (h : (runAll c requests).run .empty = (.ok answers, g)) :
    Whole c (requests.flatMap asked) g :=
  ((asks_runAll c requests).whole h).1

end EntityGraph
