import EntityGraph.Proofs.Filter.Clauses
import EntityGraph.Proofs.Relation.Link

/-!
# The meaning of filters

What it means that a row of a model's table satisfies a filter, said without conditions of the
database: of a record of the row and of the records that its relations lead to.

* `FilterOperator.Meets` is the meaning of an operator on two data;
* `FilterExpr.Means` is the meaning of a filter, and `FilterExpr.means_mk` its reading by parts;
* `FilterExpr.Names` are the properties that a filter looks at, each with the model at its level;
* `Store.Backs` says that a database stores a property.
-/

namespace EntityGraph

namespace Literal

mutual

/-- A literal with a string in the place of each enum value. -/
def plain : Literal → Literal
  | .enum s => .string s
  | .list items => .list (plainItems items)
  | l => l

/-- The items of a list with a string in the place of each enum value. -/
def plainItems : List Literal → List Literal
  | [] => []
  | l :: rest => plain l :: plainItems rest

end

end Literal

/-- Whether a datum in a column compares with an operand as an operator says. -/
def FilterOperator.Meets : FilterOperator → Datum → Datum → Prop
  | eq, d, .null => d.isNull = true
  | eq, d, operand => d.compare? operand = some .eq
  | ne, d, .null => d.isNull = false
  | ne, d, operand => d.isNull = false ∧ d.compare? operand ≠ some .eq
  | lt, d, operand => d.compare? operand = some .lt
  | lte, d, operand => d.compare? operand = some .lt ∨ d.compare? operand = some .eq
  | gt, d, operand => d.compare? operand = some .gt
  | gte, d, operand => d.compare? operand = some .gt ∨ d.compare? operand = some .eq
  | like, d, .text pattern => ∃ t, d = .text t ∧ isLike t pattern = true
  | nlike, d, .text pattern => ∃ t, d = .text t ∧ isLike t pattern = false
  | isIn, d, .list items => ∃ x ∈ items, d.compare? x = some .eq
  | notIn, d, .list items => d.isNull = false ∧ ∀ x ∈ items, d.compare? x ≠ some .eq
  | date, d, .timestamp u => ∃ t, d = .timestamp t ∧ t.date.compare u.date = .eq
  | ndate, d, .timestamp u => ∃ t, d = .timestamp t ∧ t.date.compare u.date ≠ .eq
  | _, _, _ => False

namespace FilterExpr

mutual

/-- The row of a model's table with a given record satisfies a filter: all its fields and conjuncts,
one of its alternatives if there are any, and not the filter that it negates. -/
def Means (c : Catalog) (s : Store) (model : ModelId) (record : Record) : FilterExpr → Prop
  | mk fields conjuncts alternatives none =>
    MeansFields c s model record fields ∧ MeansAll c s model record conjuncts ∧
      (alternatives = [] ∨ MeansSome c s model record alternatives)
  | mk fields conjuncts alternatives (some negated) =>
    MeansFields c s model record fields ∧ MeansAll c s model record conjuncts ∧
      (alternatives = [] ∨ MeansSome c s model record alternatives) ∧
      ¬ Means c s model record negated

/-- The row satisfies every filter of a list. -/
def MeansAll (c : Catalog) (s : Store) (model : ModelId) (record : Record) :
    List FilterExpr → Prop
  | [] => True
  | f :: rest => Means c s model record f ∧ MeansAll c s model record rest

/-- The row satisfies some filter of a list. -/
def MeansSome (c : Catalog) (s : Store) (model : ModelId) (record : Record) :
    List FilterExpr → Prop
  | [] => False
  | f :: rest => Means c s model record f ∨ MeansSome c s model record rest

/-- The row satisfies a condition on a property: the datum in the column of the property compares
with the operand, or the query for the targets of the row's entity finds one that satisfies the
nested filter. -/
def MeansField (c : Catalog) (s : Store) (model : ModelId) (record : Record) :
    FieldFilter → Prop
  | .predicate property op operand => ∃ p kind datum d,
    c.property model property = .ok p ∧ p.scalarKind = some kind ∧
      Datum.ofLiteral kind operand.plain = .ok datum ∧
      record.get? (columnName property) = some d ∧ op.Meets d datum
  | .relation property _ filter => ∃ r q records target,
    c.relation model property = .ok r ∧ r.query (Entity.of model record) = some q ∧
      s.select q.toSelect = .ok records ∧ target ∈ records ∧ Means c s r.target target filter

/-- The row satisfies every condition of a list on a property. -/
def MeansFields (c : Catalog) (s : Store) (model : ModelId) (record : Record) :
    List FieldFilter → Prop
  | [] => True
  | f :: rest => MeansField c s model record f ∧ MeansFields c s model record rest

end

/-- The properties that a filter on a model looks at, each with the model at its level. -/
inductive Names (c : Catalog) : ModelId → FilterExpr → Reference → Prop where
  | predicate {model fields conjuncts alternatives negated property op operand} :
    FieldFilter.predicate property op operand ∈ fields →
      Names c model (mk fields conjuncts alternatives negated) ⟨model, property⟩
  | relation {model fields conjuncts alternatives negated property target filter} :
    FieldFilter.relation property target filter ∈ fields →
      Names c model (mk fields conjuncts alternatives negated) ⟨model, property⟩
  | target {model fields conjuncts alternatives negated property target filter p related ref} :
    FieldFilter.relation property target filter ∈ fields → c.property model property = .ok p →
      p.target = some related → Names c related filter ref →
      Names c model (mk fields conjuncts alternatives negated) ref
  | conjunct {model fields conjuncts alternatives negated f ref} :
    f ∈ conjuncts → Names c model f ref →
      Names c model (mk fields conjuncts alternatives negated) ref
  | alternative {model fields conjuncts alternatives negated f ref} :
    f ∈ alternatives → Names c model f ref →
      Names c model (mk fields conjuncts alternatives negated) ref
  | negated {model fields conjuncts alternatives f ref} :
    Names c model f ref → Names c model (mk fields conjuncts alternatives (some f)) ref

/-- One filter is the other with some lists of conjuncts or alternatives, at any depth, listed anew:
in another order, or with other repetitions. -/
inductive Rearranges : FilterExpr → FilterExpr → Prop where
  | refl (f) : Rearranges f f
  | trans {f g h} : Rearranges f g → Rearranges g h → Rearranges f h
  | conjuncts {fields conjuncts conjuncts' alternatives negated} :
    (∀ g, g ∈ conjuncts ↔ g ∈ conjuncts') → Rearranges
      (mk fields conjuncts alternatives negated) (mk fields conjuncts' alternatives negated)
  | alternatives {fields conjuncts alternatives alternatives' negated} :
    (∀ g, g ∈ alternatives ↔ g ∈ alternatives') → Rearranges
      (mk fields conjuncts alternatives negated) (mk fields conjuncts alternatives' negated)
  | inField {before after property target g g' conjuncts alternatives negated} :
    Rearranges g g' → Rearranges
      (mk (before ++ .relation property target g :: after) conjuncts alternatives negated)
      (mk (before ++ .relation property target g' :: after) conjuncts alternatives negated)
  | inConjunct {fields before after g g' alternatives negated} : Rearranges g g' → Rearranges
      (mk fields (before ++ g :: after) alternatives negated)
      (mk fields (before ++ g' :: after) alternatives negated)
  | inAlternative {fields conjuncts before after g g' negated} : Rearranges g g' → Rearranges
      (mk fields conjuncts (before ++ g :: after) negated)
      (mk fields conjuncts (before ++ g' :: after) negated)
  | inNegated {fields conjuncts alternatives g g'} : Rearranges g g' → Rearranges
      (mk fields conjuncts alternatives (some g)) (mk fields conjuncts alternatives (some g'))

end FilterExpr

/-- A database stores a property: a scalar in one column of its model's table, a relation in the
tables and columns of its link. -/
structure Store.Backs (s : Store) (c : Catalog) (ref : Reference) : Prop where
  scalar : ∀ p kind table, c.property ref.model ref.property = .ok p → p.scalarKind = some kind →
    c.table ref.model = .ok table → s.HasColumn table (columnName ref.property)
  relation : ∀ r, c.relation ref.model ref.property = .ok r → s.Links r

namespace FilterExpr

variable {c : Catalog} {s : Store} {model : ModelId} {record : Record}

theorem meansAll_iff {filters : List FilterExpr} :
    MeansAll c s model record filters ↔ ∀ g ∈ filters, Means c s model record g := by
  induction filters with
  | nil => simp [MeansAll]
  | cons f rest ih => rw [MeansAll, ih, List.forall_mem_cons]

theorem meansSome_iff {filters : List FilterExpr} :
    MeansSome c s model record filters ↔ ∃ g ∈ filters, Means c s model record g := by
  induction filters with
  | nil => simp [MeansSome]
  | cons f rest ih => rw [MeansSome, ih, List.exists_mem_cons_iff]

theorem meansFields_iff {fields : List FieldFilter} :
    MeansFields c s model record fields ↔ ∀ x ∈ fields, MeansField c s model record x := by
  induction fields with
  | nil => simp [MeansFields]
  | cons x rest ih => rw [MeansFields, ih, List.forall_mem_cons]

/-- The meaning of a filter by its parts. -/
theorem means_mk {fields : List FieldFilter} {conjuncts alternatives : List FilterExpr}
    {negated : Option FilterExpr} :
    Means c s model record (mk fields conjuncts alternatives negated) ↔
      (∀ x ∈ fields, MeansField c s model record x) ∧
      (∀ g ∈ conjuncts, Means c s model record g) ∧
      (alternatives = [] ∨ ∃ g ∈ alternatives, Means c s model record g) ∧
      ∀ g ∈ negated, ¬ Means c s model record g := by
  cases negated with
  | none => simp [Means, meansFields_iff, meansAll_iff, meansSome_iff]
  | some g => simp [Means, meansFields_iff, meansAll_iff, meansSome_iff]

/-- The properties that a condition on a property of a model looks at. -/
def NamesField (c : Catalog) (model : ModelId) (ref : Reference) : FieldFilter → Prop
  | .predicate property _ _ => ref = ⟨model, property⟩
  | .relation property _ filter => ref = ⟨model, property⟩ ∨ ∃ p related,
    c.property model property = .ok p ∧ p.target = some related ∧ Names c related filter ref

/-- The properties that a filter looks at, by its parts. -/
theorem names_mk {fields : List FieldFilter} {conjuncts alternatives : List FilterExpr}
    {negated : Option FilterExpr} {ref : Reference} :
    Names c model (mk fields conjuncts alternatives negated) ref ↔
      (∃ x ∈ fields, NamesField c model ref x) ∨ (∃ g ∈ conjuncts, Names c model g ref) ∨
        (∃ g ∈ alternatives, Names c model g ref) ∨ ∃ g ∈ negated, Names c model g ref := by
  constructor
  · intro h
    cases h with
    | predicate hx => exact .inl ⟨_, hx, rfl⟩
    | relation hx => exact .inl ⟨_, hx, .inl rfl⟩
    | target hx hp htarget hnames => exact .inl ⟨_, hx, .inr ⟨_, _, hp, htarget, hnames⟩⟩
    | conjunct hg hnames => exact .inr (.inl ⟨_, hg, hnames⟩)
    | alternative hg hnames => exact .inr (.inr (.inl ⟨_, hg, hnames⟩))
    | negated hnames => exact .inr (.inr (.inr ⟨_, rfl, hnames⟩))
  · rintro (⟨x, hx, hnames⟩ | ⟨g, hg, hnames⟩ | ⟨g, hg, hnames⟩ | ⟨g, hg, hnames⟩)
    · cases x with
      | predicate property op operand =>
        obtain rfl := hnames
        exact .predicate hx
      | relation property target filter =>
        rcases hnames with rfl | ⟨p, related, hp, htarget, hnames⟩
        · exact .relation hx
        · exact .target hx hp htarget hnames
    · exact .conjunct hg hnames
    · exact .alternative hg hnames
    · obtain rfl := Option.mem_def.1 hg
      exact .negated hnames

/-- Rearranged filters look at the same properties. -/
theorem names_of_rearranges {f g : FilterExpr} (h : Rearranges f g) (model : ModelId)
    (ref : Reference) : Names c model f ref ↔ Names c model g ref := by
  induction h generalizing model with
  | refl f => rfl
  | trans _ _ ih ih' => exact (ih model).trans (ih' model)
  | conjuncts h => simp only [names_mk, h]
  | alternatives h => simp only [names_mk, h]
  | inField _ ih =>
    simp only [names_mk, List.mem_append, List.mem_cons, or_and_right, exists_or, exists_eq_left,
      NamesField, ih]
  | inConjunct _ ih =>
    simp only [names_mk, List.mem_append, List.mem_cons, or_and_right, exists_or, exists_eq_left,
      ih]
  | inAlternative _ ih =>
    simp only [names_mk, List.mem_append, List.mem_cons, or_and_right, exists_or, exists_eq_left,
      ih]
  | inNegated _ ih => simp [names_mk, ih]

/-- Rearranged filters mean the same. -/
theorem means_of_rearranges {f g : FilterExpr} (h : Rearranges f g) (model : ModelId)
    (record : Record) : Means c s model record f ↔ Means c s model record g := by
  induction h generalizing model record with
  | refl f => rfl
  | trans _ _ ih ih' => exact (ih model record).trans (ih' model record)
  | conjuncts h => simp only [means_mk, h]
  | alternatives h => simp only [means_mk, h, List.eq_nil_iff_forall_not_mem]
  | inField _ ih => simp [means_mk, or_imp, forall_and, MeansField, ih]
  | inConjunct _ ih => simp [means_mk, or_imp, forall_and, ih]
  | inAlternative _ ih => simp [means_mk, or_and_right, exists_or, ih]
  | inNegated _ ih => simp [means_mk, ih]

/-- A null in a column meets only the comparison for equality with null. -/
theorem null_meets_iff {op : FilterOperator} {operand : Datum} :
    op.Meets .null operand ↔ op = .eq ∧ operand = .null := by
  cases op <;> cases operand <;> simp [FilterOperator.Meets, Datum.compare?, Datum.isNull]

end FilterExpr

end EntityGraph
