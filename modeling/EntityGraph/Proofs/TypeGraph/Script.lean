import EntityGraph.Proofs.TypeGraph.Faithful

/-!
# What the fields of a type ask for

The fields of a type are built in two respects: other types are asked for by key, and what comes
out depends on the catalog alone, since fields refer to types by name.

* `Building.Scripted` says that a step is of that form: a list of keys and an outcome, whoever
  builds the types;
* `TypeKey.refers` are the keys that a type refers to through relations and the arguments of lists,
  and `TypeKey.declared` are its fields;
* `Building.scripted_fieldsOf` says that the fields of a type follow such a script, and that they
  name no types but those.
-/

namespace EntityGraph

/-- The types that the arguments of a list of entities of a model refer to. -/
def ListOptions.refers (o : ListOptions) (target : ModelId) : List TypeKey :=
  (if o.filterable then [⟨target, .filter⟩] else []) ++
    if o.orderable then [⟨target, .order⟩] else []

/-- The arguments of a list of entities of a model, as they refer to types by name. -/
def ListOptions.args (o : ListOptions) (target : ModelId) : List Argument :=
  (if o.paginate then [⟨"limit", .named "Int"⟩, ⟨"offset", .named "Int"⟩] else []) ++
    (if o.filterable then [⟨"filter", .named (TypeKey.mk target .filter).typeName⟩] else []) ++
    if o.orderable then [⟨"order", .named (TypeKey.mk target .order).typeName⟩] else []

/-- The types that the field of a relation refers to in the object of its owner. -/
def Property.objectRefers (p : Property) (target : ModelId) : List TypeKey :=
  if p.isList then
    p.listOptions.refers target ++ [⟨target, if p.paginated then .connection else .object⟩]
  else [⟨target, .object⟩]

namespace TypeKind

/-- Whether the types in a role have a field for a property. -/
def shows (kind : TypeKind) (p : Property) : Bool :=
  match kind with
  | object => p.isReadable
  | input => p.isWritable && p.name != idName
  | filter => p.isQueryable
  | order => p.isQueryable && !p.isToMany
  | connection => false
  | edge => false

/-- The types that the field of a property refers to in the types in a role. -/
def refers (kind : TypeKind) (p : Property) : List TypeKey :=
  match kind, p.target with
  | object, some target => p.objectRefers target
  | filter, some target => [⟨target, .filter⟩]
  | order, some target => [⟨target, .order⟩]
  | _, _ => []

end TypeKind

/-- The types that the type of a key refers to: those of its relations and of the arguments of its
lists, an edge for a connection, and an object for an edge. -/
def TypeKey.refers (c : Catalog) (k : TypeKey) : List TypeKey :=
  match k.kind, c.describe k.model with
  | .connection, _ => [⟨k.model, .edge⟩]
  | .edge, _ => [⟨k.model, .object⟩]
  | kind, .ok properties => (properties.filter kind.shows).flatMap kind.refers
  | _, .error _ => []

/-- A type that needs no graph: of a scalar, of the filters on a scalar, or of a direction. -/
def TypeRef.IsShared (t : TypeRef) : Prop :=
  (∃ kind : ScalarKind, t.base = kind.typeName) ∨
    (∃ kind : ScalarKind, t.base = kind.filterTypeName) ∨ t.base = "Order"

/-- A reference names a shared type or the type of one of some keys. -/
def TypeRef.Among (keys : List TypeKey) (t : TypeRef) : Prop :=
  t.IsShared ∨ ∃ k ∈ keys, t.base = k.typeName

/-- A field refers to shared types and the types of some keys, arguments included. -/
def FieldNode.Among (keys : List TypeKey) (f : FieldNode) : Prop :=
  f.type.Among keys ∧ ∀ a ∈ f.args, a.type.Among keys

namespace TypeRef

variable {keys keys' : List TypeKey} {t : TypeRef}

@[simp] theorem base_required : t.required.base = t.base := by
  cases t <;> rfl

@[simp] theorem base_nullable (isNullable : Bool) : (t.nullable isNullable).base = t.base := by
  unfold nullable
  split_ifs <;> simp

@[simp] theorem base_list : (list t).base = t.base := rfl

@[simp] theorem base_named (name : String) : (named name).base = name := rfl

theorem Among.mono (h : t.Among keys) (hsub : ∀ k ∈ keys, k ∈ keys') : t.Among keys' :=
  h.imp_right fun ⟨k, hk, hbase⟩ => ⟨k, hsub k hk, hbase⟩

theorem Among.of_base {t' : TypeRef} (h : t.Among keys) (hbase : t'.base = t.base) :
    t'.Among keys := by
  unfold Among IsShared at h ⊢
  rwa [hbase]

theorem among_scalar (kind : ScalarKind) : (named kind.typeName).Among keys :=
  .inl (.inl ⟨kind, rfl⟩)

theorem among_named {k : TypeKey} (h : k ∈ keys) : (named k.typeName).Among keys :=
  .inr ⟨k, h, rfl⟩

end TypeRef

/-- The arguments of a list name the types that it refers to. -/
theorem ListOptions.among_args (o : ListOptions) (target : ModelId) :
    ∀ a ∈ o.args target, a.type.Among (o.refers target) := by
  have hint : ∀ a ∈ [Argument.mk "limit" (.named "Int"), Argument.mk "offset" (.named "Int")],
      a.type.Among (o.refers target) := by
    have hamong : (TypeRef.named "Int").Among (o.refers target) := TypeRef.among_scalar .int
    exact List.forall_mem_cons.2 ⟨hamong, List.forall_mem_singleton.2 hamong⟩
  refine List.forall_mem_append.2 ⟨List.forall_mem_append.2 ⟨fun a ha => ?_, fun a ha => ?_⟩,
    fun a ha => ?_⟩
  · split_ifs at ha
    · exact hint a ha
    · cases ha
  · split_ifs at ha with hfilterable
    · obtain rfl := List.mem_singleton.1 ha
      exact TypeRef.among_named (by simp [refers, hfilterable])
    · cases ha
  · split_ifs at ha with horderable
    · obtain rfl := List.mem_singleton.1 ha
      exact TypeRef.among_named (by simp [refers, horderable])
    · cases ha

theorem FieldNode.Among.mono {keys keys' : List TypeKey} {f : FieldNode} (h : f.Among keys)
    (hsub : ∀ k ∈ keys, k ∈ keys') : f.Among keys' :=
  ⟨h.1.mono hsub, fun a ha => (h.2 a ha).mono hsub⟩

namespace Building

/-- The making of a value: the types that are asked for in order, and what comes out when all of
them are there. -/
structure Script (α : Type) where
  keys : List TypeKey
  outcome : Except Error α

/-- Ask for types one after the other. -/
def askFor (build : TypeKey → Building TypeNode) (keys : List TypeKey) : Building PUnit :=
  keys.forM fun k => do
    let _ ← build k
    pure ⟨⟩

/-- Follow a script. -/
def Script.run {α : Type} (build : TypeKey → Building TypeNode) (s : Script α) : Building α := do
  askFor build s.keys
  ofExcept s.outcome

/-- Whoever builds types answers a key with a node of that name. -/
def ByKey (build : TypeKey → Building TypeNode) : Prop :=
  ∀ k, (do return (← build k).name) = (do let _ ← build k; return k.typeName)

/-- An error that does not stem from the construction of a graph. -/
def IsOutside (e : Error) : Prop :=
  ∀ reason, e ≠ .badSchema reason

/-- A step that asks for types follows a script, whoever builds them. Where it succeeds it has asked
for the given keys, and its result has a property. -/
def Scripted {α : Type} (a : (TypeKey → Building TypeNode) → Building α) (keys : List TypeKey)
    (P : α → Prop) : Prop :=
  ∃ s : Script α, (∀ build, ByKey build → a build = s.run build) ∧
    (∀ v, s.outcome = .ok v → s.keys = keys ∧ P v) ∧ ∀ e, s.outcome = .error e → IsOutside e

@[simp] theorem ofExcept_ok {α : Type} (v : α) :
    ofExcept (.ok v : Except Error α) = (pure v : Building α) := rfl

@[simp] theorem ofExcept_error {α : Type} (e : Error) :
    ofExcept (.error e : Except Error α) = (throw e : Building α) := rfl

theorem askFor_nil (build : TypeKey → Building TypeNode) : askFor build [] = pure ⟨⟩ := rfl

theorem askFor_cons (build : TypeKey → Building TypeNode) (k : TypeKey) (keys : List TypeKey) :
    askFor build (k :: keys) = (do
      let _ ← build k
      askFor build keys) := by
  refine (bind_assoc _ _ _).trans (bind_congr fun _ => ?_)
  exact pure_bind _ _

theorem askFor_append (build : TypeKey → Building TypeNode) (keys keys' : List TypeKey) :
    askFor build (keys ++ keys') = (do askFor build keys; askFor build keys') := by
  exact List.forM_append

namespace Scripted

variable {α β : Type} {a : (TypeKey → Building TypeNode) → Building α}
  {f : α → (TypeKey → Building TypeNode) → Building β} {keys keys' : List TypeKey} {P : α → Prop}
  {Q : β → Prop}

theorem pure {v : α} (h : P v) : Scripted (fun _ => Pure.pure v) [] P := by
  refine ⟨⟨[], .ok v⟩, fun _ _ => rfl, fun w hw => ⟨rfl, ?_⟩, fun e he => nomatch he⟩
  exact Except.ok.inj hw ▸ h

theorem ofExcept {x : Except Error α} (hok : ∀ v, x = .ok v → P v)
    (herror : ∀ e, x = .error e → IsOutside e) :
    Scripted (fun _ => Building.ofExcept x) [] P :=
  ⟨⟨[], x⟩, fun _ _ => rfl, fun v hv => ⟨rfl, hok v hv⟩, herror⟩

/-- A step that fails has asked for whatever it asked for. -/
theorem throw {e : Error} (he : IsOutside e) :
    Scripted (fun _ => MonadExcept.throw e : _ → Building α) keys P :=
  ⟨⟨[], .error e⟩, fun _ _ => rfl, fun _ hv => (nomatch hv), fun _ he' =>
    Except.error.inj he' ▸ he⟩

theorem bind (ha : Scripted a keys P) (hf : ∀ v, P v → Scripted (f v) keys' Q) :
    Scripted (fun build => a build >>= fun v => f v build) (keys ++ keys') Q := by
  obtain ⟨⟨asked, outcome⟩, hrun, hok, herror⟩ := ha
  cases outcome with
  | error e =>
    refine ⟨⟨asked, .error e⟩, fun build hbuild => ?_, fun v hv => (nomatch hv), fun e' he' => ?_⟩
    rotate_left
    · exact herror e' (congrArg Except.error (Except.error.inj he'))
    · dsimp only
      rw [hrun build hbuild, Script.run, Script.run, bind_assoc]
      rfl
  | ok v =>
    obtain ⟨hasked, hv⟩ := hok v rfl
    obtain ⟨t, ht, hokt, herrort⟩ := hf v hv
    refine ⟨⟨asked ++ t.keys, t.outcome⟩, fun build hbuild => ?_, fun w hw => ?_, herrort⟩
    · dsimp only
      rw [hrun build hbuild, Script.run, Script.run, ofExcept_ok, bind_assoc, askFor_append,
        bind_assoc]
      refine bind_congr fun _ => ?_
      rw [pure_bind, ht build hbuild]
      rfl
    · obtain ⟨hkeys, hw⟩ := hokt w hw
      exact ⟨congrArg₂ _ hasked hkeys, hw⟩

theorem mono {P' : α → Prop} (ha : Scripted a keys P) (h : ∀ v, P v → P' v) :
    Scripted a keys P' := by
  obtain ⟨s, hrun, hok, herror⟩ := ha
  exact ⟨s, hrun, fun v hv => ⟨(hok v hv).1, h v (hok v hv).2⟩, herror⟩

/-- A last step that asks for nothing. -/
theorem map {g : α → β} (ha : Scripted a keys P) (h : ∀ v, P v → Q (g v)) :
    Scripted (fun build => do return g (← a build)) keys Q := by
  have hbind : Scripted (fun build => a build >>= fun v => Pure.pure (g v)) (keys ++ []) Q :=
    ha.bind fun v hv => .pure (h v hv)
  rwa [List.append_nil] at hbind

theorem mapM {γ : Type} {f : γ → (TypeKey → Building TypeNode) → Building β}
    {asks : γ → List TypeKey} {l : List γ} {Q : γ → β → Prop}
    (hf : ∀ x ∈ l, Scripted (f x) (asks x) (Q x)) :
    Scripted (fun build => l.mapM fun x => f x build) (l.flatMap asks)
      (fun ys => ∀ y ∈ ys, ∃ x ∈ l, Q x y) := by
  induction l with
  | nil => exact .pure fun y hy => (nomatch hy)
  | cons x l ih =>
    have hrest := ih fun z hz => hf z (List.mem_cons_of_mem x hz)
    have hcons : Scripted (fun build => f x build >>= fun y => do
          return y :: (← l.mapM fun x => f x build)) (asks x ++ l.flatMap asks)
        (fun ys => ∀ y ∈ ys, ∃ z ∈ x :: l, Q z y) :=
      (hf x List.mem_cons_self).bind fun y hy => hrest.map fun ys hys =>
        List.forall_mem_cons.2 ⟨⟨x, List.mem_cons_self, hy⟩,
          fun z hz => (hys z hz).imp fun w hw => ⟨List.mem_cons_of_mem x hw.1, hw.2⟩⟩
    simpa only [List.mapM_cons, List.flatMap_cons] using hcons

end Scripted

section Fields

variable {c : Catalog} {m : ModelId} {p : Property}

theorem isOutside_unsupported (m : ModelId) (p : Property) :
    IsOutside (.unsupportedType m p.name p.type.text) :=
  fun _ h => nomatch h

theorem scripted_unsupported {α : Type} {keys : List TypeKey} {P : α → Prop} :
    Scripted (fun _ => unsupported m p : _ → Building α) keys P :=
  .throw (isOutside_unsupported m p)

/-- The reference to a type names it, once it was asked for. -/
theorem typeOf_eq {build : TypeKey → Building TypeNode} (hbuild : ByKey build) (m : ModelId)
    (kind : TypeKind) : typeOf build m kind = (do
      askFor build [⟨m, kind⟩]
      return .named (TypeKey.mk m kind).typeName) := by
  have hname := congrArg (fun a => a >>= fun name => pure (TypeRef.named name)) (hbuild ⟨m, kind⟩)
  simp only [bind_assoc, pure_bind] at hname
  simp only [typeOf, askFor_cons, askFor_nil, hname, bind_assoc, pure_bind]

theorem scripted_typeOf (m : ModelId) (kind : TypeKind) :
    Scripted (fun build => typeOf build m kind) [⟨m, kind⟩]
      (· = .named (TypeKey.mk m kind).typeName) := by
  refine ⟨⟨[⟨m, kind⟩], .ok (.named (TypeKey.mk m kind).typeName)⟩, fun build hbuild => ?_,
    fun v hv => ⟨rfl, (Except.ok.inj hv).symm⟩, fun e he => nomatch he⟩
  exact typeOf_eq hbuild m kind

/-- A step which wraps the type of a key. -/
theorem scripted_wrap {α : Type} {kind : TypeKind} {P : α → Prop} (g : TypeRef → α)
    (h : P (g (.named (TypeKey.mk m kind).typeName))) :
    Scripted (fun build => do return g (← typeOf build m kind)) [⟨m, kind⟩] P :=
  (scripted_typeOf m kind).map fun _ ht => ht ▸ h

/-- The arguments of a list of entities are made once the types that they refer to were asked
for. -/
theorem listArgs_eq {build : TypeKey → Building TypeNode} (hbuild : ByKey build) (target : ModelId)
    (o : ListOptions) : listArgs build target o = (do
      askFor build (o.refers target)
      return o.args target) := by
  obtain ⟨paginate, filterable, orderable⟩ := o
  cases filterable <;> cases orderable <;>
    simp [listArgs, ListOptions.refers, ListOptions.args, typeOf_eq hbuild, askFor_cons,
      askFor_nil]

theorem scripted_listArgs (target : ModelId) (o : ListOptions) :
    Scripted (fun build => listArgs build target o) (o.refers target)
      (fun args => ∀ a ∈ args, a.type.Among (o.refers target)) := by
  refine ⟨⟨o.refers target, .ok (o.args target)⟩, fun build hbuild => listArgs_eq hbuild target o,
    fun args hargs => ⟨rfl, ?_⟩, fun e he => nomatch he⟩
  exact Except.ok.inj hargs ▸ ListOptions.among_args o target

/-- A field without arguments. -/
theorem among_of_type {keys : List TypeKey} {f : FieldNode} (htype : f.type.Among keys)
    (hargs : f.args = []) : f.Among keys :=
  ⟨htype, by simp [hargs]⟩

theorem scripted_objectField (m : ModelId) (p : Property) :
    Scripted (fun build => objectField build m p) (TypeKind.object.refers p)
      (FieldNode.Among (TypeKind.object.refers p)) := by
  unfold objectField TypeKind.refers Property.target
  cases htype : p.type with
  | scalar kind =>
    refine .pure (among_of_type ?_ rfl)
    refine TypeRef.Among.of_base (TypeRef.among_scalar kind) ?_
    simp only [TypeRef.base_nullable]
    split_ifs <;> simp
  | model target =>
    dsimp only [Property.objectRefers]
    cases hlist : p.isList with
    | false =>
      simp only [Bool.not_false, if_true, Bool.false_eq_true, if_false]
      exact scripted_wrap _ (among_of_type (TypeRef.Among.of_base
        (TypeRef.among_named List.mem_cons_self) (by simp)) rfl)
    | true =>
      simp only [Bool.not_true, Bool.false_eq_true, if_false, if_true]
      refine (scripted_listArgs target p.listOptions).bind fun args hargs => ?_
      have hargs' : ∀ key, ∀ a ∈ args, a.type.Among (p.listOptions.refers target ++ [key]) :=
        fun key a ha => (hargs a ha).mono fun k hk => List.mem_append_left _ hk
      have hlast : ∀ key : TypeKey, (TypeRef.named key.typeName).Among
          (p.listOptions.refers target ++ [key]) := fun key => TypeRef.among_named (by simp)
      cases p.paginated with
      | true =>
        simp only [if_true]
        exact scripted_wrap _ ⟨(hlast _).of_base (by simp), hargs' _⟩
      | false =>
        simp only [Bool.false_eq_true, if_false]
        exact scripted_wrap _ ⟨(hlast _).of_base (by simp), hargs' _⟩
  | untypedArray => exact scripted_unsupported
  | «unsupported» name => exact scripted_unsupported

theorem scripted_inputField (m : ModelId) (p : Property) :
    Scripted (fun _ => inputField m p) (TypeKind.input.refers p)
      (FieldNode.Among (TypeKind.input.refers p)) := by
  unfold inputField TypeKind.refers
  cases p.type with
  | scalar kind =>
    refine .pure (among_of_type ?_ rfl)
    refine TypeRef.Among.of_base (TypeRef.among_scalar kind) ?_
    simp only [FieldNode.ofProperty, TypeRef.base_nullable]
    split_ifs <;> simp
  | model target =>
    refine .pure (among_of_type ?_ rfl)
    refine TypeRef.Among.of_base (TypeRef.among_scalar .int) ?_
    simp only [FieldNode.ofProperty]
    split_ifs <;> simp [ScalarKind.typeName]
  | untypedArray => exact scripted_unsupported
  | «unsupported» name => exact scripted_unsupported

theorem scripted_filterField (m : ModelId) (p : Property) :
    Scripted (fun build => filterField build m p) (TypeKind.filter.refers p)
      (FieldNode.Among (TypeKind.filter.refers p)) := by
  unfold filterField TypeKind.refers Property.target
  cases p.type with
  | scalar kind => exact .pure (among_of_type (.inl (.inr (.inl ⟨kind, rfl⟩))) rfl)
  | model target =>
    exact scripted_wrap _ (among_of_type (TypeRef.among_named List.mem_cons_self) rfl)
  | untypedArray => exact scripted_unsupported
  | «unsupported» name => exact scripted_unsupported

theorem scripted_orderField (m : ModelId) (p : Property) :
    Scripted (fun build => orderField build m p) (TypeKind.order.refers p)
      (FieldNode.Among (TypeKind.order.refers p)) := by
  unfold orderField TypeKind.refers Property.target
  cases p.type with
  | scalar kind => exact .pure (among_of_type (.inl (.inr (.inr rfl))) rfl)
  | model target =>
    exact scripted_wrap _ (among_of_type (TypeRef.among_named List.mem_cons_self) rfl)
  | untypedArray => exact scripted_unsupported
  | «unsupported» name => exact scripted_unsupported

/-- What can be wrong with annotations is a fault of their model in a line or at a property. -/
theorem metadata_of_parseLines {model : ModelId} {known : ModelId → Bool} {before : List Property}
    {lines : List (List Char)} {e : Error}
    (h : Annotations.parseLines model known before lines = .error e) :
    ∃ place fault, e = .metadata model place fault := by
  induction lines generalizing before with
  | nil => cases h
  | cons line rest ih =>
    rw [Annotations.parseLines] at h
    split at h
    · exact ⟨_, _, (Except.error.inj h).symm⟩
    · split_ifs at h
      · exact ⟨_, _, (Except.error.inj h).symm⟩
      · exact ih h

theorem isOutside_describe {e : Error} (h : c.describe m = .error e) : IsOutside e := by
  unfold Catalog.describe Catalog.definition at h
  cases hfind : c.definitions.find? (·.id == m) with
  | none =>
    rw [hfind] at h
    obtain rfl : Error.unknownModel m = e := Except.error.inj h
    exact fun _ heq => nomatch heq
  | some d =>
    rw [hfind] at h
    obtain ⟨place, fault, rfl⟩ := metadata_of_parseLines h
    exact fun _ heq => nomatch heq

/-- The fields of the properties that are shown in a role. -/
theorem scripted_propertyFields {kind : TypeKind} (hconnection : kind ≠ .connection)
    (hedge : kind ≠ .edge) {field : Property → (TypeKey → Building TypeNode) → Building FieldNode}
    (hfield : ∀ p, Scripted (field p) (kind.refers p) (FieldNode.Among (kind.refers p))) :
    Scripted (fun build => do
        let properties ← ofExcept (c.describe m)
        (properties.filter kind.shows).mapM fun p => field p build)
      ((TypeKey.mk m kind).refers c)
      (fun fields => ∀ f ∈ fields, f.Among (⟨m, kind⟩ :: (TypeKey.mk m kind).refers c)) := by
  have hdescribe : Scripted (fun _ => ofExcept (c.describe m)) [] (c.describe m = .ok ·) :=
    .ofExcept (fun _ h => h) fun _ he => isOutside_describe he
  show Scripted _ ([] ++ (TypeKey.mk m kind).refers c) _
  refine hdescribe.bind fun properties hproperties => ?_
  have hrefers : (TypeKey.mk m kind).refers c
      = (properties.filter kind.shows).flatMap kind.refers := by
    cases kind <;> simp_all [TypeKey.refers]
  rw [hrefers]
  refine (Scripted.mapM fun p _ => hfield p).mono fun fields hfields => ?_
  intro f hf
  obtain ⟨p, hp, hamong⟩ := hfields f hf
  exact hamong.mono fun k hk => List.mem_cons_of_mem _ (List.mem_flatMap.2 ⟨p, hp, hk⟩)

/-- The fields of the type of a key follow a script: the types that it refers to are asked for, and
the fields name no others. -/
theorem scripted_fieldsOf (c : Catalog) (k : TypeKey) :
    Scripted (fun build => fieldsOf build c k) (k.refers c)
      (fun fields => ∀ f ∈ fields, f.Among (k :: k.refers c)) := by
  obtain ⟨m, kind⟩ := k
  cases kind with
  | object => exact scripted_propertyFields (by simp) (by simp) (scripted_objectField m)
  | input => exact scripted_propertyFields (by simp) (by simp) (scripted_inputField m)
  | order => exact scripted_propertyFields (by simp) (by simp) (scripted_orderField m)
  | filter =>
    have hown : ∀ keys, (TypeRef.named (TypeKey.mk m .filter).typeName).Among
      (⟨m, .filter⟩ :: keys) := fun keys => TypeRef.among_named List.mem_cons_self
    simp only [fieldsOf, filterFields, ← bind_assoc]
    refine (scripted_propertyFields (by simp) (by simp) (scripted_filterField m)).map
      fun fields hfields => List.forall_mem_append.2 ⟨?_, hfields⟩
    simp only [List.forall_mem_cons, List.not_mem_nil, false_imp_iff, implies_true, and_true]
    exact ⟨among_of_type ((hown _).of_base (by simp [FieldNode.plain])) rfl,
      among_of_type ((hown _).of_base (by simp [FieldNode.plain])) rfl,
      among_of_type (hown _) rfl⟩
  | connection =>
    refine scripted_wrap (fun edge => [FieldNode.plain "totalCount"
      (TypeRef.named "Int").required .totalCount, .plain "edges"
        (TypeRef.list edge.required).required (.edges m)]) (List.forall_mem_cons.2 ⟨?_, ?_⟩)
    · exact among_of_type (TypeRef.Among.of_base (TypeRef.among_scalar .int) (by
        simp [FieldNode.plain, ScalarKind.typeName])) rfl
    · exact List.forall_mem_singleton.2 (among_of_type (TypeRef.Among.of_base
        (TypeRef.among_named (k := ⟨m, .edge⟩) (by simp [TypeKey.refers]))
        (by simp [FieldNode.plain])) rfl)
  | edge =>
    exact scripted_wrap (fun object => [FieldNode.plain "node" object.required (.node m)])
      (List.forall_mem_singleton.2 (among_of_type (TypeRef.Among.of_base
        (TypeRef.among_named (k := ⟨m, .object⟩) (by simp [TypeKey.refers]))
        (by simp [FieldNode.plain])) rfl))

end Fields

end Building

end EntityGraph
