import EntityGraph.Proofs.Order.Valid

/-!
# Types of filters and orders agree with what is read

The generated types of filters and orders, and the functions that read such arguments, decide
independently which properties, operators and relations there are.

* `TypeGraph.HasField` says that a type of a graph has a field of a name;
* `FilterExpr.hasField_of_accepted` and `OrderExpr.hasField_of_accepted` say that what is accepted
  names fields only;
* `TypeGraph.arguments_agree` puts both directions together;
* `TypeGraph.valid_arguments_refused` shows why operands of `in` have to be lists, and why relations
  have to be resolved.
-/

namespace EntityGraph

open TypeRequest (Whole)

section Accepted

variable {c : Catalog} {asked : List TypeKey} {g : TypeGraph} {p q : Place} {m : ModelId}
  {key : String} {value : Literal} {entries : List (String × Literal)}

namespace FilterExpr

/-- The entries of an accepted filter that are not null are fields of the type of filters on the
model, and the type of filters on the target of a relation is there. -/
theorem hasField_of_entry (hg : Whole c asked g) (hk : ⟨m, .filter⟩ ∈ g.keys)
    {fs : List FilterExpr} (h : parseMany c m (.object entries) = .ok fs)
    (hentry : (key, value) ∈ entries) (hvalue : value.isNull = false) :
    g.HasField ⟨m, .filter⟩ key ∧ (key ∉ combinators → ∀ property target,
      c.property m key = .ok property → property.target = some target →
        ⟨target, .filter⟩ ∈ g.keys) := by
  by_cases hkey : key ∈ combinators
  · obtain ⟨n, hfind, hkind, -, hcomplete⟩ := hg.exists_node hk
    obtain ⟨f, hf⟩ := TypeNode.exists_field?_combinator hcomplete (by rw [hkind]) hkey
    exact ⟨⟨n, f, hfind, hf⟩, fun hnot => absurd hkey hnot⟩
  · obtain ⟨f, hf⟩ := exists_parse_object h
    obtain ⟨property, hp, hqueryable⟩ := queryable_of_accepted hf hentry hkey hvalue
    obtain ⟨hfield, hrefers⟩ := hg.hasField ⟨by decide, by decide⟩ hk hp hqueryable
    refine ⟨hfield, fun _ property' target hp' htarget => hrefers _ ?_⟩
    obtain rfl := Except.ok.inj (hp.symm.trans hp')
    simp [TypeKind.refers, htarget]

/-- The type of filters is there on the model of every value within an accepted argument. -/
theorem key_of_contains (hg : Whole c asked g) (h : p.Contains c combinators q)
    (hp : ∃ f, parse c p.model p.value = .ok f) (hk : ⟨p.model, .filter⟩ ∈ g.keys) :
    ⟨q.model, .filter⟩ ∈ g.keys := by
  induction h with
  | refl => exact hk
  | tail hcontains hbelow ih =>
    obtain ⟨fs, hfs⟩ := accepted_of_contains hcontains hp
    cases hbelow with
    | item _ => exact ih
    | combined _ _ => exact ih
    | relation hkey hentry hvalue hproperty htarget =>
      exact (hasField_of_entry hg ih hfs hentry hvalue).2 hkey _ _ hproperty htarget

/-- At every level of an accepted filter, the entries that are not null are fields of the type of
filters on the model of the level. -/
theorem hasField_of_accepted (hg : Whole c asked g) (hk : ⟨p.model, .filter⟩ ∈ g.keys)
    (hp : ∃ f, parse c p.model p.value = .ok f) {n : Nat}
    (h : p.Contains c combinators ⟨m, n, .object entries⟩) (hentry : (key, value) ∈ entries)
    (hvalue : value.isNull = false) : g.HasField ⟨m, .filter⟩ key := by
  obtain ⟨fs, hfs⟩ := accepted_of_contains h hp
  exact (hasField_of_entry hg (key_of_contains hg h hp hk) hfs hentry hvalue).1

end FilterExpr

namespace OrderExpr

/-- The entry of an accepted order that is not null is a field of the type of orders on the model,
and the type of orders on the target of a relation is there. -/
theorem hasField_of_entry (hg : Whole c asked g) (hk : ⟨m, .order⟩ ∈ g.keys)
    {read : Option OrderExpr} (h : parse c m (.object entries) = .ok read)
    (hentry : (key, value) ∈ entries) (hvalue : value.isNull = false) :
    g.HasField ⟨m, .order⟩ key ∧ ∀ property target, c.property m key = .ok property →
      property.target = some target → ⟨target, .order⟩ ∈ g.keys := by
  obtain ⟨property, hp, hqueryable, hmany⟩ := orderable_of_accepted h hentry hvalue
  have hshows : TypeKind.order.shows property = true := by
    rw [TypeKind.shows, hqueryable, hmany]
    rfl
  obtain ⟨hfield, hrefers⟩ := hg.hasField ⟨by decide, by decide⟩ hk hp hshows
  refine ⟨hfield, fun property' target hp' htarget => hrefers _ ?_⟩
  obtain rfl := Except.ok.inj (hp.symm.trans hp')
  simp [TypeKind.refers, htarget]

/-- The type of orders is there on the model of every value within an accepted argument. -/
theorem key_of_contains (hg : Whole c asked g) (h : p.Contains c [] q)
    (hp : ∃ read, parse c p.model p.value = .ok read) (hk : ⟨p.model, .order⟩ ∈ g.keys) :
    ⟨q.model, .order⟩ ∈ g.keys := by
  induction h with
  | refl => exact hk
  | tail hcontains hbelow ih =>
    obtain ⟨read, hread⟩ := accepted_of_contains hcontains hp
    cases hbelow with
    | item _ => exact ih
    | combined _ _ => exact ih
    | relation _ hentry hvalue hproperty htarget =>
      exact (hasField_of_entry hg ih hread hentry hvalue).2 _ _ hproperty htarget

/-- At every level of an accepted order, the entry that is not null is a field of the type of orders
on the model of the level. -/
theorem hasField_of_accepted (hg : Whole c asked g) (hk : ⟨p.model, .order⟩ ∈ g.keys)
    (hp : ∃ read, parse c p.model p.value = .ok read) {n : Nat}
    (h : p.Contains c [] ⟨m, n, .object entries⟩) (hentry : (key, value) ∈ entries)
    (hvalue : value.isNull = false) : g.HasField ⟨m, .order⟩ key := by
  obtain ⟨read, hread⟩ := accepted_of_contains h hp
  exact (hasField_of_entry hg (key_of_contains hg h hp hk) hread hentry hvalue).1

end OrderExpr

end Accepted

/-- A known model has a table. -/
theorem Catalog.exists_table {c : Catalog} {m : ModelId} (h : c.contains m = true) :
    ∃ table, c.table m = .ok table := by
  obtain ⟨d, hd⟩ := c.exists_definition_of_contains h
  exact ⟨d.tableName, bind_eq_ok.2 ⟨d, hd, rfl⟩⟩

namespace TypeGraph

/-- What is valid for the generated type of filters on a model is accepted, and has a condition
where its operands fit, it nests few relations and these can be resolved; what is valid for the type
of orders is accepted and orders every query likewise. Conversely, what is accepted names fields of
these types only, at every level. -/
theorem arguments_agree {c : Catalog} {requests : List TypeRequest} {answers : List TypeAnswer}
    {g : TypeGraph} (hrun : (TypeRequest.runAll c requests).run .empty = (.ok answers, g))
    (hnames : ∀ m name p, c.property m name = .ok p → name ∉ FilterExpr.combinators)
    (m : ModelId) :
    (⟨m, .filter⟩ ∈ g.keys →
      (∀ l, g.Admits (.node ⟨m, .filter⟩) (.named (TypeKey.mk m .filter).typeName) l →
        Place.SingleOperators c ⟨m, 0, l⟩ →
        ∃ f, FilterExpr.parse c m l = .ok f ∧ ∀ maxDepth,
          Place.NestsWithin c FilterExpr.combinators maxDepth ⟨m, 0, l⟩ →
          Place.Resolves c FilterExpr.combinators ⟨m, 0, l⟩ →
          Place.FittingOperands c ⟨m, 0, l⟩ →
            ∃ clause, f.compile c maxDepth m = .ok clause) ∧
      ∀ l f, FilterExpr.parse c m l = .ok f → ∀ m' n entries,
        Place.Contains c FilterExpr.combinators ⟨m, 0, l⟩ ⟨m', n, .object entries⟩ →
          ∀ key value, (key, value) ∈ entries → value.isNull = false →
            g.HasField ⟨m', .filter⟩ key) ∧
    (⟨m, .order⟩ ∈ g.keys →
      (∀ l, g.Admits (.node ⟨m, .order⟩) (.named (TypeKey.mk m .order).typeName) l →
        Place.SingleEntries c ⟨m, 0, l⟩ → Place.Directed c ⟨m, 0, l⟩ →
        ∃ read, OrderExpr.parse c m l = .ok read ∧ ∀ maxDepth,
          Place.NestsWithin c [] maxDepth ⟨m, 0, l⟩ → Place.Resolves c [] ⟨m, 0, l⟩ →
            ∀ order, read = some order → ∀ q : Query, ∃ q', q.sort c maxDepth m order = .ok q') ∧
      ∀ l read, OrderExpr.parse c m l = .ok read → ∀ m' n entries,
        Place.Contains c [] ⟨m, 0, l⟩ ⟨m', n, .object entries⟩ →
          ∀ key value, (key, value) ∈ entries → value.isNull = false →
            g.HasField ⟨m', .order⟩ key) := by
  have hg := TypeRequest.whole_of_runAll hrun
  constructor
  · intro hk
    obtain ⟨table, htable⟩ := Catalog.exists_table (hg.sound.known _ hk)
    constructor
    · intro l hvalid hsingle
      obtain ⟨f, hf, hcompiles⟩ :=
        (FilterExpr.accepted_of_admits hg hnames hvalid m 0 rfl hk hsingle).1 rfl
      refine ⟨f, hf, fun maxDepth hnests hresolves hoperands => ?_⟩
      obtain ⟨clause, hclause⟩ := hcompiles maxDepth ⟨hnests, hresolves, hoperands⟩ table
      exact ⟨clause, FilterExpr.compile_eq_ok.2 ⟨table, htable, hclause⟩⟩
    · intro l f hf m' n entries hcontains key value hentry hvalue
      exact FilterExpr.hasField_of_accepted hg hk ⟨f, hf⟩ hcontains hentry hvalue
  · intro hk
    obtain ⟨table, htable⟩ := Catalog.exists_table (hg.sound.known _ hk)
    constructor
    · intro l hvalid hsingle hdirected
      -- null is accepted and orders by nothing
      by_cases hnull : l.isNull = true
      · cases l with
        | null => exact ⟨none, rfl, fun _ _ _ _ horder => nomatch horder⟩
        | _ => cases hnull
      obtain ⟨order, horder, happlies⟩ := OrderExpr.accepted_of_admits hg hvalid m 0 rfl hk rfl
        (Bool.eq_false_iff.2 hnull) hsingle hdirected
      refine ⟨some order, horder, fun maxDepth hnests hresolves order' heq q => ?_⟩
      obtain rfl := Option.some.inj heq
      obtain ⟨q', hq'⟩ := happlies maxDepth ⟨hnests, hresolves⟩ q table
      exact ⟨q', bind_eq_ok.2 ⟨table, htable, hq'⟩⟩
    · intro l read hread m' n entries hcontains key value hentry hvalue
      exact OrderExpr.hasField_of_accepted hg hk ⟨read, hread⟩ hcontains hentry hvalue

/-- The graph of the filters and orders on books. -/
def shelfArguments : List TypeRequest :=
  [.type ⟨Sample.Shelf.book, .filter⟩, .type ⟨Sample.Shelf.book, .order⟩]

/-- The graph that these requests make. -/
def shelfGraph : TypeGraph :=
  ((TypeRequest.runAll Sample.Shelf.catalog shelfArguments).run .empty).2

theorem exists_run_shelf : ∃ answers,
    (TypeRequest.runAll Sample.Shelf.catalog shelfArguments).run .empty
      = (.ok answers, shelfGraph) :=
  Building.exists_run_of_isOk (by decide +kernel)

theorem names_of_allProperties {c : Catalog}
    (hall : (c.allProperties fun p => !FilterExpr.combinators.contains p.name) = true) (m : ModelId)
    (name : String) (p : Property) (hp : c.property m name = .ok p) :
    name ∉ FilterExpr.combinators := by
  obtain ⟨hcheck, rfl⟩ := Catalog.property_of_allProperties hall hp
  simpa using hcheck

theorem names_shelf (m : ModelId) (name : String) (p : Property)
    (hp : Sample.Shelf.catalog.property m name = .ok p) : name ∉ FilterExpr.combinators :=
  names_of_allProperties (by decide +kernel) m name p hp

/-- An argument for books that goes through their author to the author's name. -/
def byAuthorName (l : Literal) : Literal :=
  .object [("author", .object [("name", l)])]

/-- The one relation among the properties that these arguments name leads from books to authors. -/
structure LikeShelf (c : Catalog) : Prop where
  author : (c.property Sample.Shelf.book "author").toOption.bind (·.target)
    = some Sample.Shelf.author
  name : (c.property Sample.Shelf.author "name").toOption.bind (·.target) = none
  title : (c.property Sample.Shelf.book "title").toOption.bind (·.target) = none

theorem likeShelf_catalog : LikeShelf Sample.Shelf.catalog := by
  constructor <;> decide +kernel

theorem likeShelf_misdeclaredCatalog : LikeShelf Sample.Shelf.misdeclaredCatalog := by
  constructor <;> decide +kernel

section Places

variable {c : Catalog} (hc : LikeShelf c) {combinators : List String} {l : Literal} {p q : Place}

/-- Below the entry of a scalar stands nothing. -/
theorem contains_scalar {m : ModelId} {n : Nat} {key : String}
    (hkey : key ∉ combinators) (hp : ((c.property m key).toOption.bind (·.target)) = none)
    (h : Place.Contains c combinators ⟨m, n, .object [(key, l)]⟩ q) :
    q = ⟨m, n, .object [(key, l)]⟩ := by
  rcases Relation.ReflTransGen.cases_head h with rfl | ⟨r, hbelow, -⟩
  · rfl
  · cases hbelow with
    | combined hkey' hentry =>
      obtain ⟨rfl, -⟩ := Prod.mk.inj (List.mem_singleton.1 hentry)
      exact absurd hkey' hkey
    | relation _ hentry _ hproperty htarget =>
      obtain ⟨rfl, -⟩ := Prod.mk.inj (List.mem_singleton.1 hentry)
      rw [hproperty] at hp
      exact absurd (htarget.symm.trans hp) (by simp)

include hc

theorem contains_byAuthorName (hcombinators : "author" ∉ combinators ∧ "name" ∉ combinators)
    (h : Place.Contains c combinators ⟨Sample.Shelf.book, 0, byAuthorName l⟩ q) :
    q = ⟨Sample.Shelf.book, 0, byAuthorName l⟩ ∨
      q = ⟨Sample.Shelf.author, 1, .object [("name", l)]⟩ := by
  obtain ⟨hauthor, hname, -⟩ := hc
  rcases Relation.ReflTransGen.cases_head h with rfl | ⟨r, hbelow, hrest⟩
  · exact .inl rfl
  · cases hbelow with
    | combined hkey hentry =>
      obtain ⟨rfl, -⟩ := Prod.mk.inj (List.mem_singleton.1 hentry)
      exact absurd hkey hcombinators.1
    | relation _ hentry _ hproperty htarget =>
      obtain ⟨rfl, rfl⟩ := Prod.mk.inj (List.mem_singleton.1 hentry)
      rw [hproperty] at hauthor
      obtain rfl := Option.some.inj (htarget.symm.trans hauthor)
      exact .inr (contains_scalar hcombinators.2 hname hrest)

/-- The one object that stands as the entry of a scalar is that of the name. -/
theorem hasOperators_byAuthorName {operators : List (String × Literal)}
    (hcombinators : "author" ∉ combinators ∧ "name" ∉ combinators)
    (h : Place.HasOperators c combinators ⟨Sample.Shelf.book, 0, byAuthorName l⟩ operators) :
    l = .object operators := by
  obtain ⟨m, n, entries, key, property, hcontains, hentry, hproperty, htarget⟩ := h
  have hauthor := hc.author
  rcases contains_byAuthorName hc hcombinators hcontains with heq | heq
  · cases heq
    obtain ⟨rfl, -⟩ := Prod.mk.inj (List.mem_singleton.1 hentry)
    rw [hproperty] at hauthor
    exact absurd (htarget.symm.trans hauthor) (by simp)
  · cases heq
    exact (Prod.mk.inj (List.mem_singleton.1 hentry)).2.symm

theorem nestsWithin_byAuthorName (hcombinators : "author" ∉ combinators ∧ "name" ∉ combinators) :
    Place.NestsWithin c combinators 1 ⟨Sample.Shelf.book, 0, byAuthorName l⟩ := by
  intro q hq
  rcases contains_byAuthorName hc hcombinators hq with rfl | rfl
  · exact Nat.zero_le 1
  · exact le_rfl

theorem singleEntries_byAuthorName (hl : l.isNull = false) :
    Place.SingleEntries c ⟨Sample.Shelf.book, 0, byAuthorName l⟩ := by
  intro m n entries hcontains
  rcases contains_byAuthorName hc ⟨by simp, by simp⟩ hcontains with heq | heq
  · cases heq
    rfl
  · cases heq
    simp [OrderExpr.presentCount, hl]

theorem directed_byAuthorName : Place.Directed c
    ⟨Sample.Shelf.book, 0, byAuthorName (.object [("order", .string "Asc")])⟩ := by
  intro fields h word hword
  cases hasOperators_byAuthorName hc ⟨by simp, by simp⟩ h
  obtain rfl := Literal.string.inj (Prod.mk.inj (List.mem_singleton.1 hword)).2
  exact .inl (by decide)

omit hc

theorem resolves_byAuthorName (hcombinators : "author" ∉ combinators ∧ "name" ∉ combinators) :
    Place.Resolves Sample.Shelf.catalog combinators
      ⟨Sample.Shelf.book, 0, byAuthorName l⟩ := by
  have hname := likeShelf_catalog.name
  have hrelation : (Sample.Shelf.catalog.relation Sample.Shelf.book "author").toOption
      = some ⟨"author", "books", Sample.Shelf.author, "authors", .belongsTo "author_id"⟩ := by
    decide +kernel
  intro m n entries key value property target hcontains hentry _ hproperty htarget
  rcases contains_byAuthorName likeShelf_catalog hcombinators hcontains with heq | heq
  · cases heq
    obtain ⟨rfl, -⟩ := Prod.mk.inj (List.mem_singleton.1 hentry)
    exact ⟨_, eq_ok_of_toOption hrelation⟩
  · cases heq
    obtain ⟨rfl, -⟩ := Prod.mk.inj (List.mem_singleton.1 hentry)
    rw [hproperty] at hname
    exact absurd (htarget.symm.trans hname) (by simp)

end Places

/-- The fields of the graph that an argument for books meets on its way to the name of an author;
only the direction of an order is required. -/
theorem inputFields_shelf :
    (shelfGraph.inputField? (.node ⟨Sample.Shelf.book, .filter⟩) "author"
        = some ⟨"author", .named "AuthorFilterInput", .node ⟨Sample.Shelf.author, .filter⟩⟩ ∧
      shelfGraph.inputField? (.node ⟨Sample.Shelf.author, .filter⟩) "name"
        = some ⟨"name", .named "FilterString", .operators .string⟩ ∧
      shelfGraph.inputField? (.node ⟨Sample.Shelf.book, .order⟩) "author"
        = some ⟨"author", .named "AuthorOrderInput", .node ⟨Sample.Shelf.author, .order⟩⟩ ∧
      shelfGraph.inputField? (.node ⟨Sample.Shelf.author, .order⟩) "name"
        = some ⟨"name", .named "Order", .direction⟩ ∧
      shelfGraph.inputField? (.node ⟨Sample.Shelf.book, .filter⟩) "title"
        = some ⟨"title", .named "FilterString", .operators .string⟩) ∧
    ([Sample.Shelf.book, Sample.Shelf.author].all fun m => [TypeKind.filter, .order].all fun kind =>
      decide (⟨m, kind⟩ ∈ shelfGraph.keys) &&
        (shelfGraph.inputFields (.node ⟨m, kind⟩)).all fun f => !f.type.isRequired) = true := by
  decide +kernel

/-- An object with one field of a type whose fields are not required. -/
theorem admits_single {k : TypeKey} {key : String} {f : InputField} {t : TypeRef} {l : Literal}
    (hf : shelfGraph.inputField? (.node k) key = some f)
    (hoptional : ((shelfGraph.inputFields (.node k)).all fun f => !f.type.isRequired) = true)
    (hl : shelfGraph.Admits f.input f.type l) :
    shelfGraph.Admits (.node k) t (.object [(key, l)]) := by
  refine .single (fun _ h => nomatch h) hf hl ?_
  rw [List.all_eq_true] at hoptional ⊢
  intro x hx
  rw [hoptional x hx, Bool.true_or]

/-- One operator with a valid operand is valid for a scalar. -/
theorem admits_operator {kind : ScalarKind} {name : String} {f : InputField} {t : TypeRef}
    {l : Literal} (hf : shelfGraph.inputField? (.operators kind) name = some f)
    (hl : shelfGraph.Admits f.input f.type l) :
    shelfGraph.Admits (.operators kind) t (.object [(name, l)]) := by
  refine .single (fun _ h => nomatch h) hf hl ?_
  cases kind <;> rfl

/-- The names of authors order books. -/
theorem admits_byAuthorName : ⟨Sample.Shelf.book, .order⟩ ∈ shelfGraph.keys ∧
    shelfGraph.Admits (.node ⟨Sample.Shelf.book, .order⟩)
      (.named (TypeKey.mk Sample.Shelf.book .order).typeName)
      (byAuthorName (.object [("order", .string "Asc")])) := by
  obtain ⟨⟨-, -, hauthor, hname, -⟩, hall⟩ := inputFields_shelf
  simp only [List.all_cons, List.all_nil, Bool.and_true, Bool.and_eq_true,
    decide_eq_true_eq] at hall
  obtain ⟨⟨-, hk, hbooks⟩, -, -, hauthors⟩ := hall
  have hdirection : shelfGraph.Admits .direction (.named "Order")
      (.object [("order", .string "Asc")]) :=
    .single (fun _ h => nomatch h) rfl (.scalar (.string "Asc")) rfl
  exact ⟨hk, admits_single hauthor hbooks (admits_single hname hauthors hdirection)⟩

/-- The books whose author is called Annie, in the order of their authors' names. -/
theorem arguments_agree_byAuthorName :
    (∃ f, FilterExpr.parse Sample.Shelf.catalog Sample.Shelf.book
        (byAuthorName (.object [("eq", .string "Annie")])) = .ok f ∧
      ∃ clause, f.compile Sample.Shelf.catalog 1 Sample.Shelf.book = .ok clause) ∧
    (∃ order, OrderExpr.parse Sample.Shelf.catalog Sample.Shelf.book
        (byAuthorName (.object [("order", .string "Asc")])) = .ok (some order) ∧
      ∃ q', Query.sort Sample.Shelf.catalog 1 Sample.Shelf.book order (.all "books") = .ok q') ∧
    shelfGraph.HasField ⟨Sample.Shelf.author, .filter⟩ "name" ∧
    shelfGraph.HasField ⟨Sample.Shelf.author, .order⟩ "name" := by
  have hcombinators : "author" ∉ FilterExpr.combinators ∧ "name" ∉ FilterExpr.combinators := by
    decide
  have hnone : "author" ∉ ([] : List String) ∧ "name" ∉ ([] : List String) := by decide
  obtain ⟨⟨hauthor, hname, -⟩, hall⟩ := inputFields_shelf
  simp only [List.all_cons, List.all_nil, Bool.and_true, Bool.and_eq_true,
    decide_eq_true_eq] at hall
  obtain ⟨⟨⟨hk, hbooks⟩, -⟩, ⟨-, hauthors⟩, -⟩ := hall
  obtain ⟨hk', hadmits'⟩ := admits_byAuthorName
  obtain ⟨answers, hrun⟩ := exists_run_shelf
  obtain ⟨hfilters, horders⟩ := arguments_agree hrun names_shelf Sample.Shelf.book
  obtain ⟨hvalid, hfields⟩ := hfilters hk
  obtain ⟨hvalid', hfields'⟩ := horders hk'
  have hlevel : ∀ {combinators l}, "author" ∉ combinators →
      Place.Contains Sample.Shelf.catalog combinators ⟨Sample.Shelf.book, 0, byAuthorName l⟩
        ⟨Sample.Shelf.author, 1, .object [("name", l)]⟩ := by
    intro combinators l hkey
    obtain ⟨p, hp, htarget⟩ := Option.bind_eq_some_iff.1 likeShelf_catalog.author
    exact .single (.relation hkey List.mem_cons_self rfl (eq_ok_of_toOption hp) htarget)
  have hfilter : ∃ f, FilterExpr.parse Sample.Shelf.catalog Sample.Shelf.book
        (byAuthorName (.object [("eq", .string "Annie")])) = .ok f ∧
      ∃ clause, f.compile Sample.Shelf.catalog 1 Sample.Shelf.book = .ok clause := by
    have heq : shelfGraph.Admits (.operators .string) (.named "FilterString")
        (.object [("eq", .string "Annie")]) :=
      admits_operator (f := ⟨"eq", .named "String", .scalar .string⟩) rfl
        (.scalar (.string "Annie"))
    obtain ⟨f, hf, hcompiles⟩ := hvalid _ (admits_single hauthor hbooks
      (admits_single hname hauthors heq)) fun operators h => by
        cases hasOperators_byAuthorName likeShelf_catalog hcombinators h
        rfl
    refine ⟨f, hf, hcompiles 1 (nestsWithin_byAuthorName likeShelf_catalog hcombinators)
      (resolves_byAuthorName hcombinators) fun operators h name operand hoperand => ?_⟩
    cases hasOperators_byAuthorName likeShelf_catalog hcombinators h
    obtain ⟨rfl, rfl⟩ := Prod.mk.inj (List.mem_singleton.1 hoperand)
    exact ⟨fun _ => .inl rfl, fun h => absurd h (by decide)⟩
  have horder : ∃ order, OrderExpr.parse Sample.Shelf.catalog Sample.Shelf.book
        (byAuthorName (.object [("order", .string "Asc")])) = .ok (some order) ∧
      ∃ q', Query.sort Sample.Shelf.catalog 1 Sample.Shelf.book order (.all "books") = .ok q' := by
    obtain ⟨read, hread, happlies⟩ := hvalid' _ hadmits'
      (singleEntries_byAuthorName likeShelf_catalog rfl) (directed_byAuthorName likeShelf_catalog)
    have hsome : (OrderExpr.parse Sample.Shelf.catalog Sample.Shelf.book
        (byAuthorName (.object [("order", .string "Asc")]))).toOption.join.isSome = true := by
      decide +kernel
    rw [hread] at hsome
    obtain ⟨order, rfl⟩ := Option.isSome_iff_exists.1 hsome
    exact ⟨order, hread, happlies 1 (nestsWithin_byAuthorName likeShelf_catalog hnone)
      (resolves_byAuthorName hnone) order rfl _⟩
  obtain ⟨f, hf, hclause⟩ := hfilter
  obtain ⟨order, hread, hsorted⟩ := horder
  exact ⟨⟨f, hf, hclause⟩, ⟨order, hread, hsorted⟩,
    hfields _ f hf _ _ _ (hlevel hcombinators.1) _ _ List.mem_cons_self rfl,
    hfields' _ _ hread _ _ _ (hlevel hnone.1) _ _ List.mem_cons_self rfl⟩

/-- The books of the title Studyology, by an operator that takes a list. -/
def inSingle : Literal :=
  .object [("title", .object [("in", .string "Studyology")])]

/-- Whether an error asks for a list of operands of `in`. -/
def asksForList : Error → Bool
  | .badFilter (.needsList .isIn) => true
  | _ => false

theorem eq_of_asksForList {e : Error} (h : asksForList e = true) :
    e = .badFilter (.needsList .isIn) := by
  unfold asksForList at h
  split at h
  · rfl
  · cases h

/-- A filter for a model of the shelf whose values and relations are in order, which is accepted and
has no condition for want of a list of operands. -/
structure WantsList (m : ModelId) (l : Literal) : Prop where
  asked : ⟨m, .filter⟩ ∈ shelfGraph.keys
  valid : shelfGraph.Admits (.node ⟨m, .filter⟩) (.named (TypeKey.mk m .filter).typeName) l
  single : Place.SingleOperators Sample.Shelf.catalog ⟨m, 0, l⟩
  within : Place.NestsWithin Sample.Shelf.catalog FilterExpr.combinators 0 ⟨m, 0, l⟩
  resolves : Place.Resolves Sample.Shelf.catalog FilterExpr.combinators ⟨m, 0, l⟩
  present : ∀ operators,
    Place.HasOperators Sample.Shelf.catalog FilterExpr.combinators ⟨m, 0, l⟩ operators →
      ∀ e ∈ operators, e.2.isNull = false
  refused : ∃ f, FilterExpr.parse Sample.Shelf.catalog m l = .ok f ∧
    f.compile Sample.Shelf.catalog 3 m = .error (.badFilter (.needsList .isIn))

/-- One value in the place of a list is valid, and a filter with such an operand is accepted; but it
has no condition, since the operand of `in` is not made a list. -/
theorem in_refuses_single : WantsList Sample.Shelf.book inSingle := by
  have htitle := likeShelf_catalog.title
  have hlevel : ∀ q, Place.Contains Sample.Shelf.catalog FilterExpr.combinators
      ⟨Sample.Shelf.book, 0, inSingle⟩ q → q = ⟨Sample.Shelf.book, 0, inSingle⟩ :=
    fun q h => contains_scalar (by decide) htitle h
  have hoperators : ∀ operators, Place.HasOperators Sample.Shelf.catalog FilterExpr.combinators
      ⟨Sample.Shelf.book, 0, inSingle⟩ operators → operators = [("in", .string "Studyology")] := by
    rintro operators ⟨m, n, entries, key, property, hcontains, hentry, -, -⟩
    cases hlevel _ hcontains
    exact Literal.object.inj (Prod.mk.inj (List.mem_singleton.1 hentry)).2
  obtain ⟨⟨-, -, -, -, hfield⟩, hall⟩ := inputFields_shelf
  simp only [List.all_cons, List.all_nil, Bool.and_true, Bool.and_eq_true,
    decide_eq_true_eq] at hall
  refine ⟨hall.1.1.1, ?_, fun operators h => by rw [hoperators operators h]; rfl, ?_, ?_, ?_, ?_⟩
  · have hin : shelfGraph.Admits (.operators .string) (.named "FilterString")
        (.object [("in", .string "Studyology")]) :=
      admits_operator (f := ⟨"in", .list (TypeRef.named "String").required, .scalar .string⟩) rfl
        (.scalar (.string "Studyology"))
    exact admits_single hfield hall.1.1.2 hin
  · exact fun q h => by rw [hlevel q h]
  · intro m n entries key value property target hcontains hentry _ hproperty htarget
    cases hlevel _ hcontains
    obtain ⟨rfl, -⟩ := Prod.mk.inj (List.mem_singleton.1 hentry)
    rw [hproperty] at htitle
    exact absurd (htarget.symm.trans htitle) (by simp)
  · intro operators h e he
    rw [hoperators operators h] at he
    rw [List.mem_singleton.1 he]
    rfl
  · have hruns : ((FilterExpr.parse Sample.Shelf.catalog Sample.Shelf.book inSingle).toOption.any
        fun f => fails (f.compile Sample.Shelf.catalog 3 Sample.Shelf.book) asksForList)
          = true := by decide +kernel
    obtain ⟨f, hf, hfails⟩ := (Option.any_eq_true _ _).1 hruns
    obtain ⟨e, he, hcompile⟩ := exists_of_fails hfails
    exact ⟨f, eq_ok_of_toOption hf, by rw [hcompile, eq_of_asksForList he]⟩

/-- Types do not show how relations are stored: the shelf has the same types where books are
declared to have many authors. -/
theorem exists_run_misdeclared : ∃ answers,
    (TypeRequest.runAll Sample.Shelf.misdeclaredCatalog shelfArguments).run .empty
      = (.ok answers, shelfGraph) := by
  generalize hrun : (TypeRequest.runAll Sample.Shelf.misdeclaredCatalog shelfArguments).run .empty
    = built
  have hruns : (built.1.isOk && built.2.nodes.map (fun n => (n.key, n.built))
      == shelfGraph.nodes.map fun n => (n.key, n.built)) = true := by
    rw [← hrun]
    decide +kernel
  obtain ⟨answers, ⟨nodes⟩⟩ := built
  obtain ⟨hok, hnodes⟩ := Bool.and_eq_true_iff.1 hruns
  obtain ⟨answers, rfl⟩ := exists_of_isOk hok
  -- types cannot be compared, but their keys and fields can
  have heq : nodes = shelfGraph.nodes := by
    refine List.map_injective_iff.2 (fun n n' h => ?_) (beq_iff_eq.1 hnodes)
    obtain ⟨hkey, hbuilt⟩ := Prod.mk.inj h
    cases n
    cases n'
    cases hkey
    cases hbuilt
    rfl
  exact ⟨answers, by rw [heq]⟩

/-- There an order through the author of a book is accepted, and orders no query. -/
theorem sort_refuses_misdeclared : ∃ order,
    OrderExpr.parse Sample.Shelf.misdeclaredCatalog Sample.Shelf.book
      (byAuthorName (.object [("order", .string "Asc")])) = .ok (some order) ∧
    (Query.sort Sample.Shelf.misdeclaredCatalog 1 Sample.Shelf.book order (.all "books")).isOk
      = false := by
  have hruns : ((OrderExpr.parse Sample.Shelf.misdeclaredCatalog Sample.Shelf.book
      (byAuthorName (.object [("order", .string "Asc")]))).toOption.join.any fun order =>
        !(Query.sort Sample.Shelf.misdeclaredCatalog 1 Sample.Shelf.book order
          (.all "books")).isOk) = true := by decide +kernel
  obtain ⟨order, horder, hrefused⟩ := (Option.any_eq_true _ _).1 hruns
  exact ⟨order, eq_ok_of_toOption (Option.join_eq_some_iff.1 horder), by simpa using hrefused⟩

/-- Valid arguments are not always of use: a filter may be refused for one value in the place of a
list though its relations can be resolved, and an order for a relation which cannot. -/
theorem valid_arguments_refused :
    (¬ ∀ (c : Catalog) (requests : List TypeRequest) (answers : List TypeAnswer) (g : TypeGraph),
      (TypeRequest.runAll c requests).run .empty = (.ok answers, g) →
      (∀ m name p, c.property m name = .ok p → name ∉ FilterExpr.combinators) →
      ∀ m, ⟨m, .filter⟩ ∈ g.keys →
      ∀ l, g.Admits (.node ⟨m, .filter⟩) (.named (TypeKey.mk m .filter).typeName) l →
        Place.SingleOperators c ⟨m, 0, l⟩ →
        ∃ f, FilterExpr.parse c m l = .ok f ∧ ∀ maxDepth,
          Place.NestsWithin c FilterExpr.combinators maxDepth ⟨m, 0, l⟩ →
          Place.Resolves c FilterExpr.combinators ⟨m, 0, l⟩ →
          (∀ operators, Place.HasOperators c FilterExpr.combinators ⟨m, 0, l⟩ operators →
            ∀ e ∈ operators, e.2.isNull = true → e.1 = "eq" ∨ e.1 = "ne") →
            ∃ clause, f.compile c maxDepth m = .ok clause) ∧
    ¬ ∀ (c : Catalog) (requests : List TypeRequest) (answers : List TypeAnswer) (g : TypeGraph),
      (TypeRequest.runAll c requests).run .empty = (.ok answers, g) →
      (∀ m name p, c.property m name = .ok p → name ∉ FilterExpr.combinators) →
      ∀ m, ⟨m, .order⟩ ∈ g.keys →
      ∀ l, g.Admits (.node ⟨m, .order⟩) (.named (TypeKey.mk m .order).typeName) l →
        Place.SingleEntries c ⟨m, 0, l⟩ → Place.Directed c ⟨m, 0, l⟩ →
        ∃ read, OrderExpr.parse c m l = .ok read ∧ ∀ maxDepth,
          Place.NestsWithin c [] maxDepth ⟨m, 0, l⟩ →
            ∀ order, read = some order → ∀ q : Query, ∃ q', q.sort c maxDepth m order = .ok q' := by
  constructor
  · intro h
    obtain ⟨answers, hrun⟩ := exists_run_shelf
    obtain ⟨hk, hvalid, hsingle, hnests, hresolves, hnulls, f, hf, hrefused⟩ := in_refuses_single
    obtain ⟨f', hf', hcompiles⟩ := h _ _ _ _ hrun names_shelf _ hk _ hvalid hsingle
    obtain rfl := Except.ok.inj (hf.symm.trans hf')
    obtain ⟨clause, hclause⟩ := hcompiles 3 (fun q hq => (hnests q hq).trans (Nat.zero_le 3))
      hresolves fun operators hoperators e he hnull => by
        rw [hnulls operators hoperators e he] at hnull
        cases hnull
    cases hclause.symm.trans hrefused
  · intro h
    obtain ⟨answers, hrun⟩ := exists_run_misdeclared
    obtain ⟨hk, hvalid⟩ := admits_byAuthorName
    obtain ⟨read, hread, hsorts⟩ := h _ _ _ _ hrun
      (names_of_allProperties (by decide +kernel)) _ hk _ hvalid
      (singleEntries_byAuthorName likeShelf_misdeclaredCatalog rfl)
      (directed_byAuthorName likeShelf_misdeclaredCatalog)
    obtain ⟨order, horder, hrefused⟩ := sort_refuses_misdeclared
    obtain rfl := Except.ok.inj (horder.symm.trans hread)
    obtain ⟨q', hq'⟩ := hsorts 1
      (nestsWithin_byAuthorName likeShelf_misdeclaredCatalog ⟨by simp, by simp⟩) order rfl
      (.all "books")
    rw [hq'] at hrefused
    cases hrefused

end TypeGraph

end EntityGraph
