import EntityGraph.Proofs.Filter.Meaning
import EntityGraph.Proofs.Store.Reads

/-!
# What a filter looks at

Three recursions over a filter agree: the list of its references, which a guard checks, the columns
that its condition reads, and the test whether it is empty, which spares the checks.

* `FilterExpr.Agrees` says that the relations in a filter carry the targets that the catalog gives
  them; a filter that was read does so (`FilterExpr.agrees_of_parse`);
* `FilterExpr.mem_references` and `FilterExpr.nodup_references` are about the list of references;
* `FilterExpr.reads_compileAt` is about the columns of a compiled filter;
* `FilterExpr.compileAt_of_isEmpty` is about empty filters.
-/

namespace EntityGraph

/-- The columns by which a relation is stored: keys of entities, foreign keys and the columns of a
table of pairs. -/
def Relation.keyColumns (r : Relation) : List Column :=
  match r.link with
  | .belongsTo key => [Column.of r.ownerTable key, idColumn r.targetTable]
  | .hasOne key => [idColumn r.ownerTable, Column.of r.targetTable key]
  | .hasMany key => [idColumn r.ownerTable, Column.of r.targetTable key]
  | .belongsToMany pivot ownerKey relatedKey =>
    [idColumn r.ownerTable, idColumn r.targetTable, Column.of pivot ownerKey,
      Column.of pivot relatedKey]

/-- A column belongs to a property: it stores the scalar, or it is one of those by which the
relation is stored. -/
def Reference.Accounts (c : Catalog) (ref : Reference) (column : Column) : Prop :=
  (∃ p kind table, c.property ref.model ref.property = .ok p ∧ p.scalarKind = some kind ∧
    c.table ref.model = .ok table ∧ column = propertyColumn table ref.property) ∨
  ∃ r, c.relation ref.model ref.property = .ok r ∧ column ∈ r.keyColumns

namespace FilterExpr

/-- The relations in a filter on a model carry the targets that the catalog gives them. -/
inductive Agrees (c : Catalog) : ModelId → FilterExpr → Prop where
  | mk {model fields conjuncts alternatives negated} :
    (∀ property target g, FieldFilter.relation property target g ∈ fields →
      (∃ p, c.property model property = .ok p ∧ p.target = some target)) →
    (∀ property target g, FieldFilter.relation property target g ∈ fields → Agrees c target g) →
    (∀ g ∈ conjuncts, Agrees c model g) → (∀ g ∈ alternatives, Agrees c model g) →
    (∀ g, negated = some g → Agrees c model g) →
    Agrees c model (.mk fields conjuncts alternatives negated)

variable {c : Catalog} {model : ModelId}

theorem agrees_empty : Agrees c model empty :=
  .mk (by simp) (by simp) (by simp) (by simp) (by simp)

/-- The parts of a filter that agrees with the catalog, to build another from. -/
theorem Agrees.parts {f : FilterExpr} (h : Agrees c model f) :
    (∀ property target g, FieldFilter.relation property target g ∈ f.fields →
      (∃ p, c.property model property = .ok p ∧ p.target = some target) ∧ Agrees c target g) ∧
    (∀ g ∈ f.conjuncts, Agrees c model g) ∧ (∀ g ∈ f.alternatives, Agrees c model g) ∧
    (∀ g, f.negated = some g → Agrees c model g) := by
  cases h with
  | mk hfields htargets hall hany hnot =>
    exact ⟨fun property target g hg => ⟨hfields _ _ _ hg, htargets _ _ _ hg⟩, hall, hany, hnot⟩

/-- A filter on a scalar property has no target. -/
theorem parsePredicate_eq_ok {property : String} {value : Literal} {x : FieldFilter}
    (h : parsePredicate property value = .ok x) :
    ∃ op operand, x = .predicate property op operand := by
  unfold parsePredicate at h
  split at h
  · split at h
    · cases h
      exact ⟨_, _, rfl⟩
    · cases h
  · cases h
  · cases h

theorem filterable_eq_ok {property : String} {p : Property}
    (h : filterable c model property = .ok p) : c.property model property = .ok p := by
  simp only [filterable, bind_eq_ok] at h
  obtain ⟨q, hq, h⟩ := h
  split at h
  · cases h
    exact hq
  · cases h

theorem Agrees.addField {f : FilterExpr} (hf : Agrees c model f) {x : FieldFilter}
    (hx : ∀ property target g, x = .relation property target g →
      (∃ p, c.property model property = .ok p ∧ p.target = some target) ∧ Agrees c target g) :
    Agrees c model (.mk (f.fields ++ [x]) f.conjuncts f.alternatives f.negated) := by
  obtain ⟨hfields, hall, hany, hnot⟩ := hf.parts
  have heach : ∀ property target g, FieldFilter.relation property target g ∈ f.fields ++ [x] →
      (∃ p, c.property model property = .ok p ∧ p.target = some target) ∧ Agrees c target g := by
    intro property target g hg
    rcases List.mem_append.1 hg with hg | hg
    · exact hfields _ _ _ hg
    · exact hx _ _ _ (List.mem_singleton.1 hg).symm
  exact .mk (fun _ _ _ hg => (heach _ _ _ hg).1) (fun _ _ _ hg => (heach _ _ _ hg).2) hall hany hnot

mutual

/-- A filter that was read agrees with the catalog. -/
theorem agrees_of_parse : ∀ (model : ModelId) (l : Literal) (f : FilterExpr),
    parse c model l = .ok f → Agrees c model f
  | model, .null, f, h => by
    simp only [parse, Except.ok.injEq] at h
    exact h ▸ agrees_empty
  | model, .object entries, f, h => by
    rw [parse] at h
    exact agrees_of_parseEntries model entries empty f agrees_empty h
  | _, .bool _, _, h => by simp [parse] at h
  | _, .int _, _, h => by simp [parse] at h
  | _, .float _, _, h => by simp [parse] at h
  | _, .string _, _, h => by simp [parse] at h
  | _, .enum _, _, h => by simp [parse] at h
  | _, .list _, _, h => by simp [parse] at h

theorem agrees_of_parseMany : ∀ (model : ModelId) (l : Literal) (fs : List FilterExpr),
    parseMany c model l = .ok fs → ∀ f ∈ fs, Agrees c model f
  | model, .null, fs, h => by
    simp only [parseMany, Except.ok.injEq] at h
    simp [← h]
  | model, .object entries, fs, h => by
    simp only [parseMany, bind_eq_ok, pure_eq_ok] at h
    obtain ⟨f, hf, rfl⟩ := h
    simpa using agrees_of_parseEntries model entries empty f agrees_empty hf
  | model, .list items, fs, h => by
    rw [parseMany] at h
    exact agrees_of_parseItems model items fs h
  | _, .bool _, _, h => by simp [parseMany] at h
  | _, .int _, _, h => by simp [parseMany] at h
  | _, .float _, _, h => by simp [parseMany] at h
  | _, .string _, _, h => by simp [parseMany] at h
  | _, .enum _, _, h => by simp [parseMany] at h

theorem agrees_of_parseItems : ∀ (model : ModelId) (ls : List Literal) (fs : List FilterExpr),
    parseItems c model ls = .ok fs → ∀ f ∈ fs, Agrees c model f
  | model, [], fs, h => by
    simp only [parseItems, Except.ok.injEq] at h
    simp [← h]
  | model, l :: rest, fs, h => by
    simp only [parseItems, bind_eq_ok, pure_eq_ok] at h
    obtain ⟨f, hf, gs, hgs, rfl⟩ := h
    exact List.forall_mem_cons.2
      ⟨agrees_of_parse model l f hf, agrees_of_parseItems model rest gs hgs⟩

theorem agrees_of_parseEntries : ∀ (model : ModelId) (entries : List (String × Literal))
    (f g : FilterExpr), Agrees c model f → parseEntries c model f entries = .ok g →
      Agrees c model g
  | model, [], f, g, hf, h => by
    simp only [parseEntries, Except.ok.injEq] at h
    exact h ▸ hf
  | model, (key, value) :: rest, f, g, hf, h => by
    obtain ⟨hfields, hall, hany, hnot⟩ := hf.parts
    have htargets := fun property target g hg => (hfields property target g hg).2
    have hproperties := fun property target g hg => (hfields property target g hg).1
    simp only [parseEntries] at h
    split_ifs at h with hand hor hnull hneg
    · simp only [bind_eq_ok] at h
      obtain ⟨conjuncts, hconjuncts, h⟩ := h
      exact agrees_of_parseEntries model rest _ g (.mk hproperties htargets
        (agrees_of_parseMany model value conjuncts hconjuncts) hany hnot) h
    · simp only [bind_eq_ok] at h
      obtain ⟨alternatives, halternatives, h⟩ := h
      exact agrees_of_parseEntries model rest _ g (.mk hproperties htargets hall
        (agrees_of_parseMany model value alternatives halternatives) hnot) h
    · exact agrees_of_parseEntries model rest f g hf h
    · simp only [bind_eq_ok] at h
      obtain ⟨negated, hnegated, h⟩ := h
      refine agrees_of_parseEntries model rest _ g (.mk hproperties htargets hall hany ?_) h
      rintro _ ⟨⟩
      exact agrees_of_parse model value negated hnegated
    · simp only [bind_eq_ok] at h
      obtain ⟨p, hp, h⟩ := h
      have hproperty := filterable_eq_ok hp
      cases htarget : p.target with
      | none =>
        simp only [htarget, bind_eq_ok] at h
        obtain ⟨x, hx, h⟩ := h
        obtain ⟨op, operand, rfl⟩ := parsePredicate_eq_ok hx
        exact agrees_of_parseEntries model rest _ g (hf.addField (by simp)) h
      | some target =>
        simp only [htarget, bind_eq_ok, map_eq_ok] at h
        obtain ⟨x, ⟨inner, hinner, rfl⟩, h⟩ := h
        refine agrees_of_parseEntries model rest _ g (hf.addField ?_) h
        rintro _ _ _ ⟨⟩
        exact ⟨⟨p, hproperty, htarget⟩, agrees_of_parse target value inner hinner⟩

end

section References

theorem mem_addReference {refs : List Reference} {r ref : Reference} :
    ref ∈ addReference refs r ↔ ref ∈ refs ∨ ref = r := by
  unfold addReference
  split_ifs with h
  · constructor
    · exact .inl
    · rintro (href | rfl)
      · exact href
      · exact h
  · simp

theorem nodup_addReference {refs : List Reference} {r : Reference} (h : refs.Nodup) :
    (addReference refs r).Nodup := by
  unfold addReference
  split_ifs with hmem
  · exact h
  · rw [List.nodup_append]
    refine ⟨h, by simp, ?_⟩
    rintro ref href _ hr rfl
    exact hmem (List.mem_singleton.1 hr ▸ href)

/-- A step that adds to a list of references those with a property, each at most once. -/
def Collects (step : List Reference → List Reference) (P : Reference → Prop) : Prop :=
  ∀ refs, (∀ ref, ref ∈ step refs ↔ ref ∈ refs ∨ P ref) ∧ (refs.Nodup → (step refs).Nodup)

theorem Collects.comp {g h : List Reference → List Reference} {P Q : Reference → Prop}
    (hg : Collects g P) (hh : Collects h Q) :
    Collects (fun refs => h (g refs)) (fun ref => P ref ∨ Q ref) := by
  intro refs
  refine ⟨fun ref => ?_, fun hnodup => (hh (g refs)).2 ((hg refs).2 hnodup)⟩
  rw [(hh (g refs)).1, (hg refs).1, or_assoc]

theorem Collects.congr {g : List Reference → List Reference} {P Q : Reference → Prop}
    (hg : Collects g P) (hPQ : ∀ ref, P ref ↔ Q ref) : Collects g Q := by
  intro refs
  refine ⟨fun ref => ?_, (hg refs).2⟩
  rw [(hg refs).1, hPQ]

theorem collects_addReference (r : Reference) :
    Collects (addReference · r) (fun ref => ref = r) :=
  fun _ => ⟨fun _ => mem_addReference, nodup_addReference⟩

theorem collects_collectAll {P : FilterExpr → Reference → Prop} {filters : List FilterExpr}
    (h : ∀ g ∈ filters, Collects (collect model · g) (P g)) :
    Collects (collectAll model · filters) (fun ref => ∃ g ∈ filters, P g ref) := by
  induction filters with
  | nil => exact fun refs => ⟨fun ref => by simp [collectAll], fun hnodup => hnodup⟩
  | cons f rest ih =>
    have hrest := ih fun g hg => h g (List.mem_cons_of_mem f hg)
    exact ((h f List.mem_cons_self).comp hrest).congr (by simp)

theorem collects_collectFields {P : FieldFilter → Reference → Prop} {fields : List FieldFilter}
    (h : ∀ x ∈ fields, Collects (collectField model · x) (P x)) :
    Collects (collectFields model · fields) (fun ref => ∃ x ∈ fields, P x ref) := by
  induction fields with
  | nil => exact fun refs => ⟨fun ref => by simp [collectFields], fun hnodup => hnodup⟩
  | cons x rest ih =>
    have hrest := ih fun y hy => h y (List.mem_cons_of_mem x hy)
    exact ((h x List.mem_cons_self).comp hrest).congr (by simp)

/-- Collecting adds exactly the references that a filter names. -/
theorem collects_names {f : FilterExpr} (hf : Agrees c model f) :
    Collects (collect model · f) (Names c model f) := by
  induction f using nested_induction generalizing model with
  | step fields conjuncts alternatives negated ihfields ihall ihany ihnot =>
    obtain ⟨hfields, hall, hany, hnot⟩ := hf.parts
    have hown : Collects (collectFields model · fields)
        (fun ref => ∃ x ∈ fields, NamesField c model ref x) := by
      refine collects_collectFields (P := fun x ref => NamesField c model ref x) fun x hx => ?_
      cases x with
      | predicate property op operand => exact collects_addReference ⟨model, property⟩
      | relation property target g =>
        obtain ⟨⟨p, hp, htarget⟩, hg⟩ := hfields property target g hx
        refine ((collects_addReference ⟨model, property⟩).comp
          (ihfields property target g hx hg)).congr fun ref => ?_
        simp [NamesField, hp, htarget]
    have hparts := (hown.comp (collects_collectAll fun g hg => ihall g hg (hall g hg))).comp
      (collects_collectAll fun g hg => ihany g hg (hany g hg))
    cases negated with
    | none =>
      refine hparts.congr fun ref => ?_
      simp [names_mk, or_assoc]
    | some g =>
      refine (hparts.comp (ihnot g rfl (hnot g rfl))).congr fun ref => ?_
      simp [names_mk, or_assoc]

theorem mem_references {f : FilterExpr} (hf : Agrees c model f) {ref : Reference} :
    ref ∈ f.references model ↔ Names c model f ref := by
  have h := (collects_names hf []).1 ref
  simpa [references] using h

theorem nodup_references {f : FilterExpr} (hf : Agrees c model f) :
    (f.references model).Nodup :=
  (collects_names hf []).2 List.nodup_nil

end References

section Columns

variable {maxDepth depth : Nat} {T : String} {clause : Condition}

theorem reads_predicateCondition {column : Column} {op : FilterOperator} {operand : Datum}
    (h : predicateCondition column op operand = .ok clause) :
    clause.reads = [column] ∧ clause.scope = [column] := by
  unfold predicateCondition at h
  split at h
  · split at h <;> cases h <;> exact ⟨rfl, rfl⟩
  · split at h <;> cases h <;> exact ⟨rfl, rfl⟩
  · split at h
    · cases h
    · cases h
    · split at h <;> cases h
      exact ⟨rfl, rfl⟩
    · split at h <;> cases h
      exact ⟨rfl, rfl⟩
    · split at h <;> cases h
      exact ⟨rfl, rfl⟩
    · split at h <;> cases h
      exact ⟨rfl, rfl⟩
    · cases h
      exact ⟨rfl, rfl⟩

/-- The condition of a filter on a relation reads the columns of the link and what the nested
condition reads. -/
theorem mem_reads_linked {r : Relation} {inner : Condition} {column : Column}
    (h : column ∈ (linked r inner).reads) : column ∈ r.keyColumns ∨ column ∈ inner.reads := by
  obtain ⟨property, ownerTable, target, targetTable, link⟩ := r
  cases link <;>
    simp [linked, Condition.reads, Relation.keyColumns, Join.reads] at h ⊢ <;> tauto

theorem readsAll_alternativesCondition (cs : List Condition) :
    Condition.readsAll (alternativesCondition cs) = Condition.readsAll cs := by
  cases cs with
  | nil => rfl
  | cons c cs => simp [alternativesCondition, Condition.readsAll, Condition.reads_disjunction]

/-- A property of the columns that compiled filters of a list read is one of the columns that the
conditions of the list read. -/
theorem forall_readsAll_compileAll {filters : List FilterExpr} {conditions : List Condition}
    {P : Column → Prop} (h : compileAll c maxDepth model T depth [] filters = .ok conditions)
    (heach : ∀ g ∈ filters, ∀ clause, g.compileAt c maxDepth model T depth = .ok clause →
      ∀ column ∈ clause.reads, P column) :
    ∀ column ∈ Condition.readsAll conditions, P column := by
  intro column hcolumn
  obtain ⟨kept, hsub, hkept, -⟩ := exists_kept h
  obtain ⟨clause, hclause, hmem⟩ := Condition.mem_readsAll.1 hcolumn
  obtain ⟨g, hg, hcompile⟩ := exists_of_forall₂_right hkept hclause
  exact heach g (hsub hg) clause hcompile column hmem

/-- Every column that a compiled filter reads belongs to a property that the filter names. -/
theorem reads_compileAt {f : FilterExpr} (hT : c.table model = .ok T)
    (h : f.compileAt c maxDepth model T depth = .ok clause) :
    ∀ column ∈ clause.reads, ∃ ref, Names c model f ref ∧ ref.Accounts c column := by
  induction f using nested_induction generalizing model T depth clause with
  | step fields conjuncts alternatives negated ihfields ihall ihany ihnot =>
    obtain ⟨own, all, any, not, hown, hall, hany, hnot, rfl⟩ := compileAt_eq_ok.1 h
    have hfields : ∀ column ∈ Condition.readsAll own, ∃ ref,
        Names c model (mk fields conjuncts alternatives negated) ref ∧ ref.Accounts c column := by
      intro column hcolumn
      obtain ⟨condition, hcondition, hmem⟩ := Condition.mem_readsAll.1 hcolumn
      obtain ⟨x, hx, hcompile⟩ :=
        exists_of_forall₂_right (compileFields_eq_ok.1 hown) hcondition
      -- a predicate reads the column of its property, a relation its keys and what its target reads
      cases x with
      | predicate property op operand =>
        obtain ⟨p, kind, datum, hp, hkind, -, hpredicate⟩ := compilePredicate_eq_ok.1 hcompile
        rw [(reads_predicateCondition hpredicate).1, List.mem_singleton] at hmem
        exact ⟨_, .predicate hx, .inl ⟨p, kind, T, hp, hkind, hT, hmem⟩⟩
      | relation property target g =>
        obtain ⟨-, r, inner, hr, hinner, rfl⟩ := compileField_relation_eq_ok.1 hcompile
        obtain ⟨-, htarget, p, hp, hptarget, -⟩ := Catalog.relation_eq_ok hr
        rcases mem_reads_linked hmem with hkey | hmem
        · exact ⟨_, .relation hx, .inr ⟨r, hr, hkey⟩⟩
        · obtain ⟨ref, hnames, haccounts⟩ :=
            ihfields property target g hx htarget hinner column hmem
          exact ⟨ref, .target hx hp hptarget hnames, haccounts⟩
    have hconjuncts := forall_readsAll_compileAll hall fun g hg clause hclause column hmem =>
      (ihall g hg hT hclause column hmem).imp fun ref href =>
        (⟨.conjunct hg href.1, href.2⟩ :
          Names c model (mk fields conjuncts alternatives negated) ref ∧ ref.Accounts c column)
    have halternatives := forall_readsAll_compileAll hany fun g hg clause hclause column hmem =>
      (ihany g hg hT hclause column hmem).imp fun ref href =>
        (⟨.alternative hg href.1, href.2⟩ :
          Names c model (mk fields conjuncts alternatives negated) ref ∧ ref.Accounts c column)
    have hnegated : ∀ column ∈ Condition.readsAll not, ∃ ref,
        Names c model (mk fields conjuncts alternatives negated) ref ∧ ref.Accounts c column := by
      cases negated with
      | none =>
        obtain rfl := hnot
        simp [Condition.readsAll]
      | some g =>
        obtain ⟨condition, hcondition, rfl⟩ := hnot
        intro column hmem
        have hmem' : column ∈ condition.reads := by
          simpa [Condition.readsAll, Condition.reads] using hmem
        obtain ⟨ref, hnames, haccounts⟩ := ihnot g rfl hT hcondition column hmem'
        exact ⟨ref, .negated hnames, haccounts⟩
    -- the condition is the conjunction of what the four parts of the filter give
    rw [Condition.reads_conjunction, Condition.readsAll_append, Condition.readsAll_append,
      Condition.readsAll_append, readsAll_alternativesCondition]
    intro column hcolumn
    simp only [List.mem_append] at hcolumn
    rcases hcolumn with ((hmem | hmem) | hmem) | hmem
    · exact hfields column hmem
    · exact hconjuncts column hmem
    · exact halternatives column hmem
    · exact hnegated column hmem

end Columns

section Empty

variable {maxDepth depth : Nat} {T : String}

/-- A condition that every row of every database meets. -/
def AlwaysHolds (clause : Condition) : Prop :=
  ∀ (s : Store) schema row, s.test schema row clause = .ok true

theorem exists_compileAll {P : Condition → Prop} {filters : List FilterExpr}
    (h : ∀ g ∈ filters, ∃ clause, g.compileAt c maxDepth model T depth = .ok clause ∧ P clause)
    (earlier : List FilterExpr) :
    ∃ conditions, compileAll c maxDepth model T depth earlier filters = .ok conditions ∧
      ∀ clause ∈ conditions, P clause := by
  induction filters generalizing earlier with
  | nil => exact ⟨[], by simp [compileAll], by simp⟩
  | cons g rest ih =>
    have hrest := ih fun f hf => h f (List.mem_cons_of_mem g hf)
    by_cases hsame : earlier.any (·.same g) = true
    · obtain ⟨conditions, hconditions, hall⟩ := hrest earlier
      exact ⟨conditions, by simp [compileAll, hsame, hconditions], hall⟩
    · obtain ⟨clause, hclause, hP⟩ := h g List.mem_cons_self
      obtain ⟨conditions, hconditions, hall⟩ := hrest (earlier ++ [g])
      refine ⟨clause :: conditions, ?_, List.forall_mem_cons.2 ⟨hP, hall⟩⟩
      rw [compileAll, if_neg hsame]
      exact bind_eq_ok.2 ⟨clause, hclause, bind_eq_ok.2 ⟨conditions, hconditions, rfl⟩⟩

theorem testAll_of_alwaysHolds {conditions : List Condition}
    (h : ∀ clause ∈ conditions, AlwaysHolds clause) (s : Store) (schema : List Column) (row : Row) :
    s.testAll schema row conditions = .ok true := by
  induction conditions with
  | nil => exact Store.testAll_nil
  | cons c cs ih =>
    rw [Store.testAll_cons, h c List.mem_cons_self s schema row]
    exact ih fun d hd => h d (List.mem_cons_of_mem c hd)

theorem allEmpty_iff {filters : List FilterExpr} :
    allEmpty filters = true ↔ ∀ g ∈ filters, g.isEmpty = true := by
  induction filters with
  | nil => simp [allEmpty]
  | cons g rest ih => simp [allEmpty, ih]

/-- A filter that is empty by its form is compiled to a condition that always holds. -/
theorem compileAt_of_isEmpty {f : FilterExpr} (h : f.isEmpty = true) :
    ∃ clause, f.compileAt c maxDepth model T depth = .ok clause ∧ AlwaysHolds clause := by
  induction f using nested_induction with
  | step fields conjuncts alternatives negated _ ihall _ _ =>
    simp only [isEmpty, Bool.and_eq_true, allEmpty_iff, List.isEmpty_iff, Option.isNone_iff_eq_none]
      at h
    obtain ⟨⟨⟨hall, rfl⟩, rfl⟩, rfl⟩ := h
    obtain ⟨conditions, hconditions, halways⟩ :=
      exists_compileAll (fun g hg => ihall g hg (hall g hg)) []
    refine ⟨Condition.conjunction conditions, ?_, fun s schema row => ?_⟩
    · exact compileAt_eq_ok.2 ⟨[], conditions, [], [], rfl, hconditions, rfl, rfl,
        by simp [alternativesCondition]⟩
    · rw [Store.test_conjunction]
      exact testAll_of_alwaysHolds halways s schema row

end Empty

end FilterExpr

end EntityGraph
