import EntityGraph.Proofs.TypeGraph.Fields
import EntityGraph.Schema.Types

/-!
# Values of input types

Which literals are valid for the inputs of a schema, by the rules of the query language: null where
a type is not required, one item in the place of a list, and objects whose fields are known, valid
and, where required, present.

* `InputType` are the types of inputs, told apart by key and not by name, and
  `TypeGraph.inputFields` their fields;
* `TypeGraph.Admits` says that a literal is valid for a reference to such a type;
* `TypeNode.name_inputType` says that a field names the type that it leads to.
-/

namespace EntityGraph

namespace TypeRef

/-- Whether a type excludes null. -/
def isRequired : TypeRef → Bool
  | nonNull _ => true
  | _ => false

/-- The type of the items of a list. -/
def item? : TypeRef → Option TypeRef
  | named _ => none
  | nonNull t => t.item?
  | list item => some item

@[simp] theorem item?_required (t : TypeRef) : t.required.item? = t.item? := by
  cases t <;> rfl

@[simp] theorem item?_nullable (t : TypeRef) (isNullable : Bool) :
    (t.nullable isNullable).item? = t.item? := by
  unfold nullable
  split_ifs <;> simp

end TypeRef

/-- The values of a scalar kind: integers have 64 bits and a sign, a float may be written as an
integer, and a time is a string that shows one. -/
inductive ScalarKind.Admits : ScalarKind → Literal → Prop where
  | int {n : Int} {i : Int64} : (Literal.int n).int? = some i → Admits .int (.int n)
  | float (x : Binary64) : Admits .float (.float x)
  | whole (n : Int) : Admits .float (.int n)
  | boolean (b : Bool) : Admits .boolean (.bool b)
  | string (s : String) : Admits .string (.string s)
  | dateTime {s : String} {t : Timestamp} : Timestamp.parse? s = some t →
    Admits .dateTime (.string s)

/-- The kind of a datum that is a single scalar. -/
def Datum.kind? : Datum → Option ScalarKind
  | .null => none
  | .bool _ => some .boolean
  | .int _ => some .int
  | .float _ => some .float
  | .text _ => some .string
  | .timestamp _ => some .dateTime
  | .list _ => none

/-- A list stands for the data of its items. -/
theorem Datum.exists_ofLiteral_list {kind : ScalarKind} {items : List Literal}
    (h : ∀ l ∈ items, ∃ d, Datum.ofLiteral kind l = .ok d) :
    ∃ ds, Datum.ofLiteral kind (.list items) = .ok (.list ds) := by
  have hitems : ∃ ds, Datum.ofLiterals kind items = .ok ds := by
    induction items with
    | nil => exact ⟨[], rfl⟩
    | cons l items ih =>
      obtain ⟨⟨d, hd⟩, hrest⟩ := List.forall_mem_cons.1 h
      obtain ⟨ds, hds⟩ := ih hrest
      exact ⟨d :: ds, bind_eq_ok.2 ⟨d, hd, bind_eq_ok.2 ⟨ds, hds, rfl⟩⟩⟩
  obtain ⟨ds, hds⟩ := hitems
  exact ⟨ds, bind_eq_ok.2 ⟨ds, hds, rfl⟩⟩

namespace ScalarKind.Admits

variable {kind : ScalarKind} {l : Literal}

/-- A value of a scalar kind stands for a datum of that kind. -/
theorem exists_datum (h : kind.Admits l) :
    ∃ d, Datum.ofLiteral kind l = .ok d ∧ d.kind? = some kind := by
  cases h with
  | @int n i hi => exact ⟨.int i, by simp only [Datum.ofLiteral, hi], rfl⟩
  | float x => exact ⟨.float x, rfl, rfl⟩
  | whole n => exact ⟨.float (.ofInt n), rfl, rfl⟩
  | boolean b => exact ⟨.bool b, rfl, rfl⟩
  | string s => exact ⟨.text s, rfl, rfl⟩
  | @dateTime s t ht => exact ⟨.timestamp t, by simp only [Datum.ofLiteral, ht], rfl⟩

/-- Values of a scalar kind in a list stand for a list of data. -/
theorem exists_data {items : List Literal} (h : ∀ l ∈ items, kind.Admits l) :
    ∃ ds, Datum.ofLiteral kind (.list items) = .ok (.list ds) :=
  Datum.exists_ofLiteral_list fun l hl => ((h l hl).exists_datum).imp fun _ hd => hd.1

end ScalarKind.Admits

/-- A type of inputs. -/
inductive InputType where
  | scalar (kind : ScalarKind)
  /-- The operators of filters on a scalar. -/
  | operators (kind : ScalarKind)
  /-- The direction of an order. -/
  | direction
  /-- A type of the graph. -/
  | node (k : TypeKey)
  deriving DecidableEq

/-- The name of a type of inputs. -/
def InputType.name : InputType → String
  | scalar kind => kind.typeName
  | operators kind => kind.filterTypeName
  | direction => "Order"
  | node k => k.typeName

/-- A field of an input, with what its type names. -/
structure InputField where
  name : String
  type : TypeRef
  input : InputType
  deriving DecidableEq

/-- What the type of the field of a property names in a role. -/
def TypeKind.inputType (kind : TypeKind) (p : Property) : InputType :=
  match kind, p.type with
  | filter, .scalar s => .operators s
  | filter, .model target => .node ⟨target, .filter⟩
  | order, .scalar _ => .direction
  | order, .model target => .node ⟨target, .order⟩
  | _, .scalar s => .scalar s
  | _, _ => .scalar .int

/-- A field of the type of a key as an input; a field that stands for no property leads back to the
type itself. -/
def FieldNode.toInput (k : TypeKey) (f : FieldNode) : InputField :=
  ⟨f.name, f.type, f.property.elim (.node k) k.kind.inputType⟩

namespace TypeGraph

/-- The fields of a type of inputs. -/
def inputFields (g : TypeGraph) : InputType → List InputField
  | .scalar _ => []
  | .operators kind =>
    let scalar := TypeRef.named kind.typeName
    (FilterOperator.offered kind).map fun op =>
      ⟨op.name, if op.takesList then .list scalar.required else scalar, .scalar kind⟩
  | .direction => [⟨"order", (TypeRef.named "String").required, .scalar .string⟩]
  | .node k => ((g.find? k).elim [] (·.fields)).map (·.toInput k)

/-- A field of a type of inputs. -/
def inputField? (g : TypeGraph) (i : InputType) (name : String) : Option InputField :=
  (g.inputFields i).find? (·.name == name)

/-- A literal is valid for a reference to a type of inputs. -/
inductive Admits (g : TypeGraph) : InputType → TypeRef → Literal → Prop where
  | null {i : InputType} {t : TypeRef} : t.isRequired = false → Admits g i t .null
  /-- A scalar, also in the place of a list of such scalars. -/
  | scalar {kind : ScalarKind} {t : TypeRef} {l : Literal} :
    kind.Admits l → Admits g (.scalar kind) t l
  | list {i : InputType} {t item : TypeRef} {items : List Literal} :
    t.item? = some item → (∀ l ∈ items, Admits g i item l) → Admits g i t (.list items)
  /-- An object, also in the place of a list of such objects. -/
  | object {i : InputType} {t : TypeRef} {entries : List (String × Literal)} :
    (∀ kind, i ≠ .scalar kind) →
    (∀ e ∈ entries, ∃ f, g.inputField? i e.1 = some f) →
    (∀ e ∈ entries, ∀ f, g.inputField? i e.1 = some f → Admits g f.input f.type e.2) →
    (∀ f ∈ g.inputFields i, f.type.isRequired = true → ∃ e ∈ entries, e.1 = f.name) →
      Admits g i t (.object entries)

/-- A type of the graph has a field of a name. -/
def HasField (g : TypeGraph) (k : TypeKey) (name : String) : Prop :=
  ∃ n f, g.find? k = some n ∧ n.field? name = some f

variable {g : TypeGraph} {k : TypeKey} {n : TypeNode} {i : InputType} {t : TypeRef} {l : Literal}

theorem inputField?_node (hn : g.find? k = some n) (name : String) :
    g.inputField? (.node k) name = (n.field? name).map (·.toInput k) := by
  rw [inputField?, inputFields, hn, Option.elim_some, List.find?_map]
  rfl

/-- What is valid for a list is null, a list of valid items or one valid item. -/
theorem Admits.items (h : g.Admits i t l) {item : TypeRef} (hitem : t.item? = some item) :
    l = .null ∨ (∃ items, l = .list items ∧ ∀ x ∈ items, g.Admits i item x) ∨
      g.Admits i item l := by
  cases h with
  | null _ => exact .inl rfl
  | scalar hscalar => exact .inr (.inr (.scalar hscalar))
  | list hitem' hitems =>
    obtain rfl := Option.some.inj (hitem.symm.trans hitem')
    exact .inr (.inl ⟨_, rfl, hitems⟩)
  | object hnode hknown hvalid hpresent =>
    exact .inr (.inr (.object hnode hknown hvalid hpresent))

/-- What is valid for a scalar that is no list is null or a scalar. -/
theorem Admits.scalar_of_ne_null {kind : ScalarKind} (h : g.Admits (.scalar kind) t l)
    (hitem : t.item? = none) (hl : l.isNull = false) : kind.Admits l := by
  cases h with
  | null _ => cases hl
  | scalar hscalar => exact hscalar
  | list hitem' _ => cases hitem.symm.trans hitem'
  | object hnode _ _ _ => exact absurd rfl (hnode kind)

/-- What is valid for inputs that are no scalars is an object, if it is neither null nor a list. -/
theorem Admits.exists_object (h : g.Admits i t l) (hi : ∀ kind, i ≠ .scalar kind)
    (hitem : t.item? = none) (hl : l.isNull = false) : ∃ entries, l = .object entries := by
  cases h with
  | null _ => cases hl
  | scalar _ => exact absurd rfl (hi _)
  | list hitem' _ => cases hitem.symm.trans hitem'
  | object _ _ _ _ => exact ⟨_, rfl⟩

/-- Where null is excluded there is none. -/
theorem Admits.isNull_eq_false (h : g.Admits i t l) (ht : t.isRequired = true) :
    l.isNull = false := by
  cases h with
  | null hnull => cases ht.symm.trans hnull
  | scalar hscalar => cases hscalar <;> rfl
  | list _ _ => rfl
  | object _ _ _ _ => rfl

/-- An object with one field that holds a valid value. -/
theorem Admits.single {key : String} {f : InputField} (hi : ∀ kind, i ≠ .scalar kind)
    (hf : g.inputField? i key = some f) (hvalue : g.Admits f.input f.type l)
    (hrequired : (g.inputFields i).all (fun f => !f.type.isRequired || f.name == key) = true) :
    g.Admits i t (.object [(key, l)]) := by
  refine .object hi ?_ ?_ fun x hx hx' => ⟨(key, l), List.mem_singleton_self _, ?_⟩
  · exact List.forall_mem_singleton.2 ⟨f, hf⟩
  · refine List.forall_mem_singleton.2 fun f' hf' => ?_
    obtain rfl := Option.some.inj (hf.symm.trans hf')
    exact hvalue
  · have hname := List.all_eq_true.1 hrequired x hx
    rw [hx', Bool.not_true, Bool.false_or, beq_iff_eq] at hname
    exact hname.symm

end TypeGraph

/-- A field of a built input names the type that it leads to. -/
theorem TypeNode.name_inputType {c : Catalog} {n : TypeNode} {f : FieldNode} (hn : n.Complete c)
    (hkind : n.key.kind.isInput = true) (hf : f ∈ n.fields) :
    (f.toInput n.key).input.name = f.type.base := by
  obtain ⟨⟨m, kind⟩, built⟩ := n
  have hproperties : kind.ofProperties := by
    constructor <;> rintro rfl <;> cases hkind
  rcases TypeNode.mem_fields hn hproperties hf with hcombining | ⟨p, -, -, hfield⟩
  · have hname := (TypeKind.mem_combining hcombining).2.2
    cases kind with
    | filter =>
      simp only [TypeKind.combining, List.mem_cons, List.not_mem_nil, or_false] at hcombining
      rcases hcombining with rfl | rfl | rfl <;> rfl
    | _ => cases hcombining
  · rw [FieldNode.toInput, (TypeKind.name_of_fieldOf hfield).2, Option.elim_some]
    cases kind <;> cases htype : p.type <;> simp only [TypeKind.fieldOf, htype] at hfield <;>
      cases hfield <;> simp_all [TypeKind.isInput, TypeKind.inputType, TypeKind.scalarType,
        TypeKind.keysType, InputType.name, FieldNode.ofProperty, ScalarKind.typeName]
    all_goals split_ifs <;> simp

/-- A type refers to the types that the field of a property refers to. -/
theorem TypeKey.mem_refers {c : Catalog} {m : ModelId} {kind : TypeKind} {k : TypeKey}
    {name : String} {p : Property} (hkind : kind.ofProperties) (hp : c.property m name = .ok p)
    (hshows : kind.shows p = true) (hk : k ∈ kind.refers p) : k ∈ (TypeKey.mk m kind).refers c := by
  simp only [Catalog.property, bind_eq_ok, Catalog.findProperty, elim_error_eq_ok] at hp
  obtain ⟨properties, hproperties, hfind⟩ := hp
  have hmem : k ∈ (properties.filter kind.shows).flatMap kind.refers :=
    List.mem_flatMap.2 ⟨p, List.mem_filter.2 ⟨List.mem_of_find?_eq_some hfind, hshows⟩, hk⟩
  obtain ⟨hconnection, hedge⟩ := hkind
  cases kind <;> simp_all [TypeKey.refers]

namespace TypeRequest.Whole

variable {c : Catalog} {asked : List TypeKey} {g : TypeGraph} {m : ModelId} {name : String}
  {f : InputField}

theorem exists_node (hg : Whole c asked g) {k : TypeKey} (hk : k ∈ g.keys) :
    ∃ n, g.find? k = some n ∧ n.key = k ∧ n ∈ g.nodes ∧ n.Complete c := by
  obtain ⟨n, hn, rfl⟩ := List.mem_map.1 hk
  exact ⟨n, TypeGraph.find?_of_mem hg.sound.nodup hn, rfl, hn, hg.complete n hn⟩

/-- A field of an input of the graph combines filters or stands for a property. -/
theorem inputField_node (hg : Whole c asked g) {kind : TypeKind} (hk : ⟨m, kind⟩ ∈ g.keys)
    (hkind : kind.ofProperties) (h : g.inputField? (.node ⟨m, kind⟩) name = some f) :
    (∃ x ∈ kind.combining m, x.name = name ∧ f = x.toInput ⟨m, kind⟩) ∨
    ∃ p x, c.property m name = .ok p ∧ p.name = name ∧ kind.shows p = true ∧
      kind.fieldOf m p = .ok x ∧ f = ⟨name, x.type, kind.inputType p⟩ := by
  obtain ⟨n, hfind, hkey, -, hcomplete⟩ := hg.exists_node hk
  rw [TypeGraph.inputField?_node hfind, Option.map_eq_some_iff] at h
  obtain ⟨x, hx, rfl⟩ := h
  obtain ⟨hmem, rfl⟩ := TypeNode.field?_eq_some hx
  have hfields := TypeNode.mem_fields hcomplete (by rw [hkey]; exact hkind) hmem
  rw [hkey] at hfields
  rcases hfields with hcombining | ⟨p, hp, hshows, hfield⟩
  · exact .inl ⟨x, hcombining, rfl, rfl⟩
  · obtain ⟨hname, hproperty⟩ := TypeKind.name_of_fieldOf hfield
    refine .inr ⟨p, x, hname ▸ hp, hname.symm, hshows, hfield, ?_⟩
    rw [FieldNode.toInput, hproperty, Option.elim_some]

/-- A property that a role shows is a field, and what it refers to is there. -/
theorem hasField (hg : Whole c asked g) {kind : TypeKind}
    (hkind : kind.ofProperties) (hk : ⟨m, kind⟩ ∈ g.keys) {p : Property}
    (hp : c.property m name = .ok p) (hshows : kind.shows p = true) :
    g.HasField ⟨m, kind⟩ name ∧ ∀ k ∈ kind.refers p, k ∈ g.keys := by
  obtain ⟨n, hfind, hkey, hn, hcomplete⟩ := hg.exists_node hk
  constructor
  · obtain ⟨f, hf⟩ := TypeNode.exists_field? hcomplete (by rw [hkey]; exact hkind)
      (by rw [hkey]; exact hp) (by rw [hkey]; exact hshows)
    exact ⟨n, f, hfind, hf⟩
  · exact fun k hrefers => hg.refers n hn k (hkey ▸ TypeKey.mem_refers hkind hp hshows hrefers)

end TypeRequest.Whole

end EntityGraph
