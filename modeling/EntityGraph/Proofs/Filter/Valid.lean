import EntityGraph.Proofs.Relation.Link
import EntityGraph.Proofs.TypeGraph.Admits

/-!
# Valid filters are accepted

A value that is valid for the generated type of filters on a model is read, if each object of
operators has one operator, and the filter has a condition, if it nests as few relations as are
allowed and its operands fit their operators.

* `Place.HasOperators` are the objects of operators in an argument; `Place.SingleOperators`,
  `Place.FittingOperands`, `Place.NestsWithin` and `Place.Resolves` are what is asked of an
  argument beyond validity;
* `TypeGraph.Whole.filterField` describes the fields of a filter in a whole graph;
* `FilterExpr.exists_predicateCondition` is about one operator, and
  `FilterExpr.accepted_of_admits`, by induction on the validity, about whole filters.
-/

namespace EntityGraph

namespace Place

variable {c : Catalog} {combinators : List String} {maxDepth : Nat} {p q : Place}

/-- An object stands in an argument as the entry of a scalar property. -/
def HasOperators (c : Catalog) (combinators : List String) (p : Place)
    (operators : List (String × Literal)) : Prop :=
  ∃ m n entries key property, p.Contains c combinators ⟨m, n, .object entries⟩ ∧
    (key, .object operators) ∈ entries ∧ c.property m key = .ok property ∧ property.target = none

/-- Each object of operators has exactly one. -/
def SingleOperators (c : Catalog) (p : Place) : Prop :=
  ∀ operators, p.HasOperators c FilterExpr.combinators operators → operators.length = 1

/-- A null operand is compared by `eq` or `ne`, and the operand of `in` or `nin` is a list. -/
def FittingOperands (c : Catalog) (p : Place) : Prop :=
  ∀ operators, p.HasOperators c FilterExpr.combinators operators → ∀ name operand,
    (name, operand) ∈ operators → (operand.isNull = true → name = "eq" ∨ name = "ne") ∧
      (name = "in" ∨ name = "nin" → ∃ items, operand = .list items)

/-- An argument goes through at most so many relations. -/
def NestsWithin (c : Catalog) (combinators : List String) (maxDepth : Nat) (p : Place) : Prop :=
  ∀ q, p.Contains c combinators q → q.depth ≤ maxDepth

/-- The catalog resolves the relations that an argument goes through. -/
def Resolves (c : Catalog) (combinators : List String) (p : Place) : Prop :=
  ∀ m n entries key value property target, p.Contains c combinators ⟨m, n, .object entries⟩ →
    (key, value) ∈ entries → value.isNull = false → c.property m key = .ok property →
      property.target = some target → ∃ r, c.relation m key = .ok r

theorem HasOperators.of_below {operators : List (String × Literal)} (h : p.Below c combinators q)
    (hq : q.HasOperators c combinators operators) : p.HasOperators c combinators operators := by
  obtain ⟨m, n, entries, key, property, hcontains, hrest⟩ := hq
  exact ⟨m, n, entries, key, property, .head h hcontains, hrest⟩

theorem SingleOperators.below (hp : p.SingleOperators c) (h : p.Below c FilterExpr.combinators q) :
    q.SingleOperators c :=
  fun operators hq => hp operators (hq.of_below h)

theorem FittingOperands.below (hp : p.FittingOperands c)
    (h : p.Below c FilterExpr.combinators q) : q.FittingOperands c :=
  fun operators hq => hp operators (hq.of_below h)

theorem NestsWithin.below (hp : p.NestsWithin c combinators maxDepth)
    (h : p.Below c combinators q) : q.NestsWithin c combinators maxDepth :=
  fun r hr => hp r (.head h hr)

theorem Resolves.below (hp : p.Resolves c combinators) (h : p.Below c combinators q) :
    q.Resolves c combinators :=
  fun m n entries key value property target hr => hp m n entries key value property target
    (.head h hr)

end Place

namespace TypeRequest.Whole

variable {c : Catalog} {asked : List TypeKey} {g : TypeGraph} {m : ModelId} {name : String}
  {f : InputField}

/-- The fields of a filter: ways to combine filters on the model, the operators on a scalar, and the
filter on the target of a relation, whose type is there. -/
theorem filterField (hg : Whole c asked g) (hk : ⟨m, .filter⟩ ∈ g.keys)
    (h : g.inputField? (.node ⟨m, .filter⟩) name = some f) :
    (f.input = .node ⟨m, .filter⟩ ∧ ((name = "and" ∨ name = "or") ∧
        (∃ item, f.type.item? = some item ∧ item.item? = none) ∨
      name = "not" ∧ f.type.item? = none)) ∨
    ∃ p, c.property m name = .ok p ∧ p.name = name ∧ p.isQueryable = true ∧
      f.type.item? = none ∧
      ((∃ kind, p.type = .scalar kind ∧ f.input = .operators kind) ∨
        ∃ target, p.type = .model target ∧ f.input = .node ⟨target, .filter⟩ ∧
          ⟨target, .filter⟩ ∈ g.keys) := by
  have hkind : TypeKind.filter.ofProperties := ⟨by decide, by decide⟩
  rcases hg.inputField_node hk hkind h with ⟨x, hx, rfl, rfl⟩ | ⟨p, x, hp, hname, hshows, hx, rfl⟩
  · left
    simp only [TypeKind.combining, List.mem_cons, List.not_mem_nil, or_false] at hx
    rcases hx with rfl | rfl | rfl
    · exact ⟨rfl, .inl ⟨.inl rfl, _, rfl, rfl⟩⟩
    · exact ⟨rfl, .inl ⟨.inr rfl, _, rfl, rfl⟩⟩
    · exact ⟨rfl, .inr ⟨rfl, rfl⟩⟩
  · right
    cases htype : p.type with
    | scalar kind =>
      simp only [TypeKind.fieldOf, htype] at hx
      obtain rfl := Except.ok.inj hx
      refine ⟨p, hp, hname, hshows, rfl, .inl ⟨kind, htype, ?_⟩⟩
      simp only [TypeKind.inputType, htype]
    | model target =>
      simp only [TypeKind.fieldOf, htype] at hx
      obtain rfl := Except.ok.inj hx
      have htarget : p.target = some target := by rw [Property.target, htype]
      refine ⟨p, hp, hname, hshows, rfl, .inr ⟨target, htype, ?_, ?_⟩⟩
      · simp only [TypeKind.inputType, htype]
      · exact (hg.hasField hkind hk hp hshows).2 _ (by simp [TypeKind.refers, htarget])
    | untypedArray => simp [TypeKind.fieldOf, htype] at hx
    | «unsupported» word => simp [TypeKind.fieldOf, htype] at hx

end TypeRequest.Whole

namespace FilterExpr

variable {c : Catalog} {m : ModelId} {n maxDepth : Nat} {f : FilterExpr}

theorem ofName?_name (op : FilterOperator) : FilterOperator.ofName? op.name = some op := by
  cases op <;> rfl

/-- An operator that is offered for a scalar compares with a datum of that kind. -/
theorem predicateCondition_of_kind {kind : ScalarKind} {op : FilterOperator} {d : Datum}
    (hop : op ∈ FilterOperator.offered kind) (hlist : op.takesList = false)
    (hd : d.kind? = some kind) (column : Column) :
    ∃ clause, predicateCondition column op d = .ok clause := by
  cases d <;> cases hd <;> cases op <;>
    first
    | exact ⟨_, rfl⟩
    | exact absurd hlist (by decide)
    | simp [FilterOperator.offered] at hop

theorem predicateCondition_of_list {op : FilterOperator} (hlist : op.takesList = true)
    (ds : List Datum) (column : Column) :
    ∃ clause, predicateCondition column op (.list ds) = .ok clause := by
  cases op <;> first
    | exact ⟨_, rfl⟩
    | exact absurd hlist (by decide)

/-- An operator with a valid operand has a condition: null is compared by `eq` or `ne`, and the
operand of `in` or `nin` is a list. -/
theorem exists_predicateCondition {g : TypeGraph} {kind : ScalarKind} {op : FilterOperator}
    {operand : Literal} (hop : op ∈ FilterOperator.offered kind) {t : TypeRef}
    (ht : t = if op.takesList then .list (TypeRef.named kind.typeName).required
      else .named kind.typeName)
    (h : g.Admits (.scalar kind) t operand)
    (hnull : operand.isNull = true → op.name = "eq" ∨ op.name = "ne")
    (hlist : op.name = "in" ∨ op.name = "nin" → ∃ items, operand = .list items) :
    ∃ d, Datum.ofLiteral kind operand = .ok d ∧
      ∀ column, ∃ clause, predicateCondition column op d = .ok clause := by
  -- null is valid for every operator, and a list only for those whose type is one
  by_cases hoperand : operand.isNull = true
  · cases operand with
    | null =>
      refine ⟨.null, by rw [Datum.ofLiteral], fun column => ?_⟩
      have hname := hnull rfl
      cases op <;> first
        | exact ⟨_, rfl⟩
        | simp [FilterOperator.name] at hname
    | _ => cases hoperand
  · by_cases hop' : op.takesList = true
    · have hname : op.name = "in" ∨ op.name = "nin" := by
        cases op <;> first
          | exact absurd hop' (by decide)
          | simp [FilterOperator.name]
      obtain ⟨items, rfl⟩ := hlist hname
      rw [if_pos hop'] at ht
      cases h with
      | scalar hscalar => cases hscalar
      | list hitem hitems =>
        rw [ht] at hitem
        obtain rfl := Option.some.inj hitem
        have hvalid : ∀ l ∈ items, kind.Admits l := fun l hl =>
          (hitems l hl).scalar_of_ne_null rfl ((hitems l hl).isNull_eq_false rfl)
        obtain ⟨ds, hds⟩ := ScalarKind.Admits.exists_data hvalid
        exact ⟨.list ds, hds, predicateCondition_of_list hop' ds⟩
    · rw [if_neg hop'] at ht
      have hscalar : kind.Admits operand :=
        h.scalar_of_ne_null (by rw [ht]; rfl) (Bool.eq_false_iff.2 hoperand)
      obtain ⟨d, hd, hkind⟩ := hscalar.exists_datum
      exact ⟨d, hd, predicateCondition_of_kind hop (Bool.eq_false_iff.2 hop') hkind⟩

/-- A filter on a model has a condition on whatever table, below so many relations. -/
def Compiles (c : Catalog) (maxDepth : Nat) (m : ModelId) (n : Nat) (f : FilterExpr) : Prop :=
  ∀ table, ∃ clause, f.compileAt c maxDepth m table n = .ok clause

/-- What a part gives has conditions. -/
def PartCompiles (c : Catalog) (maxDepth : Nat) (m : ModelId) (n : Nat) : FilterPart → Prop
  | .nothing => True
  | .conjuncts filters => ∀ g ∈ filters, g.Compiles c maxDepth m n
  | .alternatives filters => ∀ g ∈ filters, g.Compiles c maxDepth m n
  | .negated g => g.Compiles c maxDepth m n
  | .field x => ∀ table, ∃ clause, compileField c maxDepth m table n x = .ok clause

/-- The parts of a filter have conditions. -/
structure PartsCompile (c : Catalog) (maxDepth : Nat) (m : ModelId) (n : Nat) (f : FilterExpr) :
    Prop where
  fields : ∀ x ∈ f.fields, ∀ table, ∃ clause, compileField c maxDepth m table n x = .ok clause
  conjuncts : ∀ g ∈ f.conjuncts, g.Compiles c maxDepth m n
  alternatives : ∀ g ∈ f.alternatives, g.Compiles c maxDepth m n
  negated : ∀ g, f.negated = some g → g.Compiles c maxDepth m n

theorem partsCompile_empty : PartsCompile c maxDepth m n empty :=
  ⟨fun _ hx => (nomatch hx), fun _ hg => (nomatch hg), fun _ hg => (nomatch hg),
    fun _ hg => (nomatch hg)⟩

theorem PartsCompile.put (hf : PartsCompile c maxDepth m n f) {part : FilterPart}
    (hpart : PartCompiles c maxDepth m n part) : PartsCompile c maxDepth m n (f.put part) := by
  obtain ⟨hfields, hall, hany, hnot⟩ := hf
  cases part with
  | nothing => exact ⟨hfields, hall, hany, hnot⟩
  | conjuncts filters => exact ⟨hfields, hpart, hany, hnot⟩
  | alternatives filters => exact ⟨hfields, hall, hpart, hnot⟩
  | negated g => exact ⟨hfields, hall, hany, fun g' hg' => Option.some.inj hg' ▸ hpart⟩
  | field x =>
    exact ⟨List.forall_mem_append.2 ⟨hfields, List.forall_mem_singleton.2 hpart⟩, hall, hany, hnot⟩

/-- A filter whose parts have conditions has one. -/
theorem PartsCompile.compiles (hf : PartsCompile c maxDepth m n f) : f.Compiles c maxDepth m n := by
  intro table
  obtain ⟨fields, conjuncts, alternatives, negated⟩ := f
  obtain ⟨hfields, hall, hany, hnot⟩ := hf
  have hown : ∃ own, compileFields c maxDepth m table n fields = .ok own := by
    rw [compileFields_eq_mapM]
    exact exists_mapM_eq_ok fun x hx => hfields x hx table
  have hlist : ∀ filters : List FilterExpr, (∀ g ∈ filters, g.Compiles c maxDepth m n) →
      ∃ conditions, compileAll c maxDepth m table n [] filters = .ok conditions := by
    intro filters hfilters
    obtain ⟨conditions, hconditions, -⟩ := exists_compileAll (P := fun _ => True)
      (fun g hg => (hfilters g hg table).imp fun _ h => ⟨h, trivial⟩) []
    exact ⟨conditions, hconditions⟩
  have hneg : ∃ not, NegatedCondition c maxDepth m table n negated not := by
    cases negated with
    | none => exact ⟨[], rfl⟩
    | some g =>
      obtain ⟨clause, hclause⟩ := hnot g rfl table
      exact ⟨[.not clause], clause, hclause, rfl⟩
  obtain ⟨own, hown⟩ := hown
  obtain ⟨all, hall⟩ := hlist conjuncts hall
  obtain ⟨any, hany⟩ := hlist alternatives hany
  obtain ⟨not, hnot⟩ := hneg
  exact ⟨_, compileAt_eq_ok.2 ⟨own, all, any, not, hown, hall, hany, hnot, rfl⟩⟩

/-- What is asked of an argument for its filter to have a condition. -/
structure Compilable (c : Catalog) (maxDepth : Nat) (p : Place) : Prop where
  nests : p.NestsWithin c combinators maxDepth
  resolves : p.Resolves c combinators
  operands : p.FittingOperands c

theorem Compilable.below {p q : Place} (hp : Compilable c maxDepth p)
    (h : p.Below c combinators q) : Compilable c maxDepth q :=
  ⟨hp.nests.below h, hp.resolves.below h, hp.operands.below h⟩

/-- A value is accepted as a filter on a model, which has a condition if the value allows. -/
def Accepted (c : Catalog) (p : Place) : Prop :=
  ∃ f, parse c p.model p.value = .ok f ∧
    ∀ maxDepth, Compilable c maxDepth p → f.Compiles c maxDepth p.model p.depth

/-- A value is accepted as one filter on a model or as many. -/
def AcceptedMany (c : Catalog) (p : Place) : Prop :=
  ∃ fs, parseMany c p.model p.value = .ok fs ∧
    ∀ maxDepth, Compilable c maxDepth p → ∀ f ∈ fs, f.Compiles c maxDepth p.model p.depth

/-- An entry is read, and what it gives has conditions if the value allows. -/
def EntryAccepted (c : Catalog) (m : ModelId) (n : Nat) (entries : List (String × Literal))
    (entry : String × Literal) (part : FilterPart) : Prop :=
  readEntry c m entry = .ok part ∧
    ∀ maxDepth, Compilable c maxDepth ⟨m, n, .object entries⟩ → PartCompiles c maxDepth m n part

/-- An object is accepted where its entries are. -/
theorem accepted_of_entries {entries : List (String × Literal)}
    (h : ∀ entry ∈ entries, ∃ part, EntryAccepted c m n entries entry part) :
    Accepted c ⟨m, n, .object entries⟩ := by
  obtain ⟨parts, hparts⟩ := exists_forall₂ h
  -- a later part may replace an earlier one, so that what was there is kept as an invariant
  refine ⟨parts.foldl put empty, ?_, fun maxDepth hcompilable => PartsCompile.compiles ?_⟩
  · rw [parse]
    exact parseEntries_eq_ok.2 ⟨parts, hparts.imp fun _ _ h => h.1, rfl⟩
  · have hput : ∀ (entries' : List (String × Literal)) parts,
        List.Forall₂ (EntryAccepted c m n entries) entries' parts → ∀ f : FilterExpr,
          PartsCompile c maxDepth m n f → PartsCompile c maxDepth m n (parts.foldl put f) := by
      intro entries' parts h
      induction h with
      | nil => exact fun f hf => hf
      | cons hpart _ ih => exact fun f hf => ih _ (hf.put (hpart.2 maxDepth hcompilable))
    exact hput entries parts hparts empty partsCompile_empty

/-- An object that is accepted as a filter stands for a list of one. -/
theorem Accepted.many {entries : List (String × Literal)}
    (h : Accepted c ⟨m, n, .object entries⟩) : AcceptedMany c ⟨m, n, .object entries⟩ := by
  obtain ⟨f, hf, hcompiles⟩ := h
  refine ⟨[f], by rw [parseMany_object, hf]; rfl, fun maxDepth hcompilable f' hf' => ?_⟩
  exact List.mem_singleton.1 hf' ▸ hcompiles maxDepth hcompilable

/-- A list is accepted where its items are. -/
theorem acceptedMany_of_items {items : List Literal} (h : ∀ l ∈ items, Accepted c ⟨m, n, l⟩) :
    AcceptedMany c ⟨m, n, .list items⟩ := by
  have heach : ∀ l ∈ items, ∃ f, parse c m l = .ok f ∧
      ∀ maxDepth, Compilable c maxDepth ⟨m, n, .list items⟩ → f.Compiles c maxDepth m n := by
    intro l hl
    obtain ⟨f, hf, hcompiles⟩ := h l hl
    exact ⟨f, hf, fun maxDepth hcompilable => hcompiles maxDepth (hcompilable.below (.item hl))⟩
  obtain ⟨fs, hfs⟩ := exists_forall₂ heach
  refine ⟨fs, ?_, fun maxDepth hcompilable f hf => ?_⟩
  · rw [parseMany, parseItems_eq]
    exact mapM_eq_ok.2 (hfs.imp fun _ _ h => h.1)
  · obtain ⟨l, -, hl⟩ := exists_of_forall₂_right hfs hf
    exact hl.2 maxDepth hcompilable

/-- The entry of a scalar: one operator that its type offers, with a valid operand. -/
theorem entryAccepted_scalar {g : TypeGraph} {entries : List (String × Literal)} {key : String}
    {value : Literal} {p : Property} {kind : ScalarKind} {t : TypeRef}
    (hentry : (key, value) ∈ entries) (hkey : key ∉ combinators) (hvalue : value.isNull = false)
    (hp : c.property m key = .ok p) (hqueryable : p.isQueryable = true)
    (htype : p.type = .scalar kind) (ht : t.item? = none)
    (hvalid : g.Admits (.operators kind) t value)
    (hsingle : Place.SingleOperators c ⟨m, n, .object entries⟩) :
    ∃ part, EntryAccepted c m n entries (key, value) part := by
  obtain ⟨operators, rfl⟩ := hvalid.exists_object (fun _ h => nomatch h) ht hvalue
  have htarget : p.target = none := by rw [Property.target, htype]
  have hoperators : Place.HasOperators c combinators ⟨m, n, .object entries⟩ operators :=
    ⟨m, n, entries, key, p, .refl, hentry, hp, htarget⟩
  obtain ⟨⟨name, operand⟩, rfl⟩ := List.length_eq_one_iff.1 (hsingle operators hoperators)
  cases hvalid with
  | object _ hknown hvalid _ =>
    obtain ⟨f, hf⟩ := hknown _ List.mem_cons_self
    have hoperand := hvalid _ List.mem_cons_self f hf
    have hname : f.name = name := by simpa using List.find?_some hf
    obtain ⟨op, hop, rfl⟩ := List.mem_map.1 (List.mem_of_find?_eq_some hf)
    obtain rfl : op.name = name := hname
    refine ⟨.field (.predicate key op operand), ?_, fun maxDepth hcompilable table => ?_⟩
    · rw [readEntry_property hkey rfl]
      refine bind_eq_ok.2 ⟨p, filterable_iff.2 ⟨hp, hqueryable⟩, ?_⟩
      rw [htarget]
      refine map_eq_ok.2 ⟨_, parsePredicate_iff.2 ⟨op, operand, ⟨op.name, rfl, ?_⟩, rfl⟩, rfl⟩
      exact ofName?_name op
    · obtain ⟨hnull, hlist⟩ := hcompilable.operands _ hoperators op.name operand List.mem_cons_self
      obtain ⟨d, hd, hclause⟩ := exists_predicateCondition hop rfl hoperand hnull hlist
      obtain ⟨clause, hclause⟩ := hclause (propertyColumn table key)
      have hkind : p.scalarKind = some kind := by rw [Property.scalarKind, htype]
      exact ⟨clause, compilePredicate_eq_ok.2 ⟨p, kind, d, hp, hkind, hd, hclause⟩⟩

/-- The entry of a relation: an accepted filter on its target. -/
theorem entryAccepted_relation {entries : List (String × Literal)} {key : String}
    {value : Literal} {p : Property} {target : ModelId}
    (hentry : (key, value) ∈ entries) (hkey : key ∉ combinators) (hvalue : value.isNull = false)
    (hp : c.property m key = .ok p) (hqueryable : p.isQueryable = true)
    (htarget : p.target = some target) (h : Accepted c ⟨target, n + 1, value⟩) :
    ∃ part, EntryAccepted c m n entries (key, value) part := by
  obtain ⟨f, hf, hcompiles⟩ := h
  have hbelow : Place.Below c combinators ⟨m, n, .object entries⟩ ⟨target, n + 1, value⟩ :=
    .relation hkey hentry hvalue hp htarget
  refine ⟨.field (.relation key target f), ?_, fun maxDepth hcompilable table => ?_⟩
  · rw [readEntry_property hkey hvalue]
    refine bind_eq_ok.2 ⟨p, filterable_iff.2 ⟨hp, hqueryable⟩, ?_⟩
    rw [htarget]
    exact map_eq_ok.2 ⟨f, hf, rfl⟩
  · obtain ⟨r, hr⟩ := hcompilable.resolves m n entries key value p target .refl hentry hvalue hp
      htarget
    obtain ⟨-, -, q, hq, htarget', -⟩ := Catalog.relation_eq_ok hr
    obtain rfl := Except.ok.inj (hp.symm.trans hq)
    obtain rfl := Option.some.inj (htarget.symm.trans htarget')
    obtain ⟨clause, hclause⟩ := hcompiles maxDepth (hcompilable.below hbelow) r.targetTable
    have hdepth : n + 1 ≤ maxDepth := hcompilable.nests _ (.single hbelow)
    exact ⟨_, compileField_relation_eq_ok.2 ⟨hdepth, r, clause, hr, hclause, rfl⟩⟩

/-- The entry of `and` or `or`: accepted filters on the same model. -/
theorem entryAccepted_many {entries : List (String × Literal)} {key : String} {value : Literal}
    (hentry : (key, value) ∈ entries) (hkey : key = "and" ∨ key = "or")
    (h : AcceptedMany c ⟨m, n, value⟩) :
    ∃ part, EntryAccepted c m n entries (key, value) part := by
  obtain ⟨fs, hfs, hcompiles⟩ := h
  have hbelow : Place.Below c combinators ⟨m, n, .object entries⟩ ⟨m, n, value⟩ :=
    .combined (mem_combinators.2 (hkey.imp_right .inl)) hentry
  have hparts : ∀ maxDepth, Compilable c maxDepth ⟨m, n, .object entries⟩ →
      ∀ f ∈ fs, f.Compiles c maxDepth m n := fun maxDepth hcompilable =>
    hcompiles maxDepth (hcompilable.below hbelow)
  rcases hkey with rfl | rfl
  · refine ⟨.conjuncts fs, ?_, hparts⟩
    rw [readEntry, if_pos rfl]
    exact map_eq_ok.2 ⟨fs, hfs, rfl⟩
  · refine ⟨.alternatives fs, ?_, hparts⟩
    rw [readEntry, if_neg (show "or" ≠ "and" by decide), if_pos rfl]
    exact map_eq_ok.2 ⟨fs, hfs, rfl⟩

/-- The entry of `not`: an accepted filter on the same model. -/
theorem entryAccepted_not {entries : List (String × Literal)} {value : Literal}
    (hentry : ("not", value) ∈ entries) (hvalue : value.isNull = false)
    (h : Accepted c ⟨m, n, value⟩) :
    ∃ part, EntryAccepted c m n entries ("not", value) part := by
  obtain ⟨f, hf, hcompiles⟩ := h
  have hbelow : Place.Below c combinators ⟨m, n, .object entries⟩ ⟨m, n, value⟩ :=
    .combined (mem_combinators.2 (.inr (.inr rfl))) hentry
  refine ⟨.negated f, ?_, fun maxDepth hcompilable =>
    hcompiles maxDepth (hcompilable.below hbelow)⟩
  rw [readEntry, if_neg (show "not" ≠ "and" by decide), if_neg (show "not" ≠ "or" by decide),
    hvalue, if_neg (by decide), if_pos rfl]
  exact map_eq_ok.2 ⟨f, hf, rfl⟩

/-- Null entries mean nothing, but for those that combine filters in a list. -/
theorem entryAccepted_null {entries : List (String × Literal)} {key : String}
    (hentry : (key, .null) ∈ entries) : ∃ part, EntryAccepted c m n entries (key, .null) part := by
  by_cases hkey : key = "and" ∨ key = "or"
  · exact entryAccepted_many hentry hkey ⟨[], rfl, fun _ _ _ hf => (List.not_mem_nil hf).elim⟩
  · rw [not_or] at hkey
    refine ⟨.nothing, ?_, fun _ _ => trivial⟩
    rw [readEntry, if_neg hkey.1, if_neg hkey.2]
    exact if_pos rfl

section Valid

variable {asked : List TypeKey} {g : TypeGraph}

/-- A value that is valid for the filters on a model is accepted, and its filter has a condition if
the value allows. The induction is on the validity of the value: what its entries hold is valid for
the types of their fields, which are filters on the same model or on the target of a relation. -/
theorem accepted_of_admits (hg : TypeRequest.Whole c asked g)
    (hnames : ∀ m name p, c.property m name = .ok p → name ∉ combinators)
    {i : InputType} {t : TypeRef} {l : Literal} (h : g.Admits i t l) :
    ∀ m n, i = .node ⟨m, .filter⟩ → ⟨m, .filter⟩ ∈ g.keys →
      Place.SingleOperators c ⟨m, n, l⟩ →
      (t.item? = none → Accepted c ⟨m, n, l⟩) ∧
      ((∃ item, t.item? = some item ∧ item.item? = none) → AcceptedMany c ⟨m, n, l⟩) := by
  induction h with
  | null _ =>
    rintro m n - - -
    refine ⟨fun _ => ⟨empty, by rw [parse], fun _ _ => partsCompile_empty.compiles⟩, fun _ => ?_⟩
    exact ⟨[], rfl, fun _ _ _ hf => (List.not_mem_nil hf).elim⟩
  | scalar _ =>
    rintro m n hi - -
    cases hi
  | @list i t item items hitem _ ih =>
    rintro m n hi hk hsingle
    constructor
    · intro hnone
      cases hitem.symm.trans hnone
    rintro ⟨item', hitem', hplain⟩
    obtain rfl := Option.some.inj (hitem.symm.trans hitem')
    exact acceptedMany_of_items fun l hl => (ih l hl m n hi hk (hsingle.below (.item hl))).1 hplain
  | @object i t entries _ hknown hvalid _ ih =>
    rintro m n rfl hk hsingle
    have hentries : ∀ entry ∈ entries, ∃ part, EntryAccepted c m n entries entry part := by
      rintro ⟨key, value⟩ hentry
      by_cases hnull : value.isNull = true
      · cases value with
        | null => exact entryAccepted_null hentry
        | _ => cases hnull
      have hvalue : value.isNull = false := Bool.eq_false_iff.2 hnull
      obtain ⟨f, hf⟩ := hknown _ hentry
      have hbelow : ∀ {q : Place}, Place.Below c combinators ⟨m, n, .object entries⟩ q →
          q.SingleOperators c := fun hq => hsingle.below hq
      -- the field combines filters on the same model, or stands for a property
      rcases hg.filterField hk hf with ⟨hinput, hcombining⟩ | ⟨p, hp, hname, hqueryable, hitem, h⟩
      · rcases hcombining with ⟨hkey, hitem⟩ | ⟨rfl, hitem⟩
        · refine entryAccepted_many hentry hkey ((ih _ hentry f hf m n hinput hk ?_).2 hitem)
          exact hbelow (.combined (mem_combinators.2 (hkey.imp_right .inl)) hentry)
        · refine entryAccepted_not hentry hvalue ((ih _ hentry f hf m n hinput hk ?_).1 hitem)
          exact hbelow (.combined (mem_combinators.2 (.inr (.inr rfl))) hentry)
      · have hkey : key ∉ combinators := hnames m key p hp
        rcases h with ⟨kind, htype, hinput⟩ | ⟨target, htype, hinput, htarget⟩
        · have hoperators := hvalid _ hentry f hf
          rw [hinput] at hoperators
          exact entryAccepted_scalar hentry hkey hvalue hp hqueryable htype hitem hoperators hsingle
        · have hrelation : p.target = some target := by rw [Property.target, htype]
          refine entryAccepted_relation hentry hkey hvalue hp hqueryable hrelation ?_
          refine (ih _ hentry f hf target (n + 1) hinput htarget ?_).1 hitem
          exact hbelow (.relation hkey hentry hvalue hp hrelation)
    have haccepted : Accepted c ⟨m, n, .object entries⟩ := accepted_of_entries hentries
    exact ⟨fun _ => haccepted, fun _ => haccepted.many⟩

end Valid

end FilterExpr

end EntityGraph
