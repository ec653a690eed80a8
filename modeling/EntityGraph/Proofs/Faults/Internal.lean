import EntityGraph.Proofs.Faults.Requests

/-!
# Internal errors

Entities that are at hand cannot be filtered or ordered, orders do not go through relations to many,
and plans do not meet models without objects. Requests do not come to the branches for these cases
as long as objects of different models have different names: then an entity is resolved by the
fields of its own model, so that a connection has a query, and an order is applied to the model that
it was read on.

* `Entity.Of` says that an entity belongs to a model, with all that is loaded behind it;
* `TypeGraph.ObjectsApart` is the condition on names;
* `SchemaConfig.no_internal_error` is the result, and `SchemaConfig.not_filtering_supported` shows
  what happens where names clash.
-/

namespace EntityGraph

/-- An entity belongs to a model, which is among some, and what is loaded behind a relation belongs
to the model to which the relation leads. -/
inductive Entity.Of (c : Catalog) (S : ModelId → Prop) : ModelId → Entity → Prop where
  | mk {m : ModelId} {attributes : Record} {relations : Dict Loaded}
    {restrictions : Dict ListArgs} : S m →
    (∀ property target loaded, c.LeadsTo m property target →
      relations.get? property = some loaded → ∀ e ∈ loaded.toList, Of c S target e) →
    Of c S m (.mk m attributes relations restrictions)

section

variable {c : Catalog} {S : ModelId → Prop} {known : Error → Prop}
  {stands : ModelId → Entity → Prop}

/-- Entities stand for their own model only. -/
theorem Catalog.standing_of : c.Standing S known (Entity.Of c S) where
  model he := by
    cases he with
    | mk hm _ => exact hm
  fresh hm _ := .mk hm fun _ _ _ _ h => nomatch h
  load {m property target e loaded} he hlead hloaded restrictions := by
    cases he with
    | mk hm hall =>
      refine .mk hm fun other target' x hother hx => ?_
      rw [Dict.get?_set] at hx
      split_ifs at hx with heq
      · cases hx
        obtain rfl := heq
        exact hother.eq hlead ▸ hloaded
      · exact hall other target' x hother hx
  behind he hlead hloaded := by
    cases he with
    | mk _ hall => exact hall _ _ _ hlead hloaded
  apart := .inl fun _ _ he => by
    cases he with
    | mk _ _ => rfl

/-- No two types of a graph that objects of requests have are of one name. -/
def TypeGraph.ObjectsApart (g : TypeGraph) : Prop :=
  ∀ k ∈ g.keys, k.kind.isInput = false → ∀ k' ∈ g.keys, k'.kind.isInput = false →
    k.typeName = k'.typeName → k = k'

instance (g : TypeGraph) : Decidable g.ObjectsApart :=
  inferInstanceAs (Decidable (∀ k ∈ g.keys, k.kind.isInput = false → ∀ k' ∈ g.keys,
    k'.kind.isInput = false → k.typeName = k'.typeName → k = k'))

theorem TypeGraph.ObjectsApart.agrees {g : TypeGraph} (h : g.ObjectsApart) : g.Agrees stands :=
  fun k hk hkind k' hk' hkind' hname _ he => h k hk hkind k' hk' hkind' hname ▸ he

/-- The errors that a request may answer: faults of models, and an order by a relation to many that
is found in reading the arguments of a selected field. -/
def Request.MayAnswer (c : Catalog) (r : Request) (e : Error) : Prop :=
  e.isFault = true ∨ ∃ property, e = .badInput (.orderByMany property) ∧
    ∃ s m, Selection.Inside r.selections s ∧ ListArgs.parse c m s.args = .error e

end

/-- Looking models up finds nothing but faults of models. -/
theorem Catalog.covers_all (c : Catalog) : c.Covers (fun _ => True) fun e => e.isFault = true where
  contains _ _ := .inr rfl
  describe m e _ he := by
    unfold describe definition at he
    cases hfind : c.definitions.find? (·.id == m) with
    | none =>
      rw [hfind] at he
      cases he
      rfl
    | some d =>
      rw [hfind] at he
      obtain ⟨place, fault, rfl⟩ := Building.metadata_of_parseLines he
      rfl
  fits _ _ _ _ _ _ := rfl
  closed _ _ _ _ _ _ _ := trivial

/-- An order that was read on a model comes to no relation to many when it is applied. -/
theorem OrderExpr.sort_ne_orderByMany {c : Catalog} {m : ModelId} {l : Literal} {order : OrderExpr}
    (h : parse c m l = .ok (some order)) (maxDepth : Nat) (q : Query) (property : String) :
    Query.sort c maxDepth m order q ≠ .error (.badInput (.orderByMany property)) := by
  intro herror
  have hread := read_of_parse h
  have hends : Ends (fun e => e.isFault = true) (Query.sort c maxDepth m order q) fun _ => True :=
    (Catalog.ends_table c.covers_all trivial).bind fun _ _ _ => ends_applyAt c.covers_all
      (among_of_read c.covers_all trivial hread) (.inr hread) maxDepth q trivial _ _
  cases hends.of_error herror rfl

namespace Schema

mutual

/-- Whether a selection follows the types of a schema: its field is one of an object, and what is
selected inside follows the type of the field. -/
def followsField (s : Schema) (type : String) : Selection → Bool
  | .mk _ name _ children => match s.find? type with
    | some (.object _ fields) =>
      (fields.find? (·.name == name)).any fun f => follows s f.type.base children
    | _ => false

/-- Whether selections follow the types of a schema. -/
def follows (s : Schema) (type : String) : List Selection → Bool
  | [] => true
  | t :: rest => followsField s type t && follows s type rest

end

end Schema

namespace SchemaConfig

variable {config : SchemaConfig} {c : Catalog} {custom : CustomParts} {policy : Policy}
  {i : Interface}

/-- Planning comes to no model without an object. -/
theorem ofSelections_ne_unknownModel (h : config.interface c custom policy = .ok i) {m : ModelId}
    {root : TypeNode} (hroot : i.service.graph.object m = .ok root) (selections : List Selection)
    (m' : ModelId) :
    LoadPlan.ofSelections c i.service.graph root selections ≠ .error (.unknownModel m') := by
  intro herror
  obtain ⟨hg, -⟩ := covers_reached h
  let known (e : Error) : Prop := e.isInternal = true ∨ c.Explains i.service.graph e
  have hcovers : i.service.graph.Covers c (c.Reached i.service.graph) known :=
    ⟨hg.covers_reached.catalog.mono fun _ => .inr, hg.leads_reached, hg.relates⟩
  have hread : ∀ s ∈ selections, s.Each (Selection.Readable c known) := fun s hs =>
    Selection.each_of_inside (fun _ _ => Selection.readable_of_tolerant (fun _ => .inl) _ _) s
      (.top hs)
  have hplan := LoadPlan.ends_ofSelections hcovers (TypeGraph.object_eq_ok hroot).1 hread
  rcases hplan.of_error herror rfl with hinternal | hexplained
  · cases hinternal
  · have hcode := Catalog.code_of_explains hg hexplained
    simp [Error.code] at hcode

/-- Where names are apart, requests answer no internal error but one found in reading an order. -/
theorem mayAnswer (h : config.interface c custom policy = .ok i)
    (hapart : i.service.graph.ObjectsApart) {r : Request}
    (hnames : ∀ s, Selection.Inside r.selections s → '.' ∉ s.name.toList) {w : World} {e : Error}
    (he : .resolver e ∈ ((i.execute r).run w).1.errors) (hordinary : e.isOrdinary = false) :
    r.MayAnswer c e := by
  obtain ⟨hg, hcovers⟩ := covers_reached h
  obtain ⟨-, -, hcatalog, -⟩ := interface_eq_ok h
  have hmay : i.Covers (c.Reached i.service.graph) (r.MayAnswer c) :=
    hcovers.mono fun e hexplained => .inl (Error.isFault_iff.2 (by
      simp [Catalog.code_of_explains hg hexplained]))
  have hread : ∀ s ∈ r.selections, s.Each (Selection.Readable i.service.catalog (r.MayAnswer c)) := by
    refine fun s hs => Selection.each_of_inside (fun t ht => ⟨fun m property herror => ?_,
      .inr (hnames t ht)⟩) s (.top hs)
    exact .inr ⟨property, rfl, t, m, ht, hcatalog ▸ herror⟩
  exact (hmay.answers Catalog.standing_of hapart.agrees).known_of_execute hread w _ he hordinary

/-- The branches for what should not happen are not taken. Planning comes to no model without an
object, no request fails for an unknown model, and an order that was read applies without a relation
to many. Where objects of different models have different names, no request filters or orders
entities that are at hand; and an order by a relation to many comes up only in reading the arguments
of a selected field. -/
theorem no_internal_error (h : config.interface c custom policy = .ok i) :
    (∀ m root selections, i.service.graph.object m = .ok root → ∀ m',
      LoadPlan.ofSelections c i.service.graph root selections ≠ .error (.unknownModel m')) ∧
    (∀ r w e, .resolver e ∈ ((i.execute r).run w).1.errors → e.code ≠ "UNKNOWN_MODEL") ∧
    (∀ m l order, OrderExpr.parse c m l = .ok (some order) → ∀ maxDepth q property,
      Query.sort c maxDepth m order q ≠ .error (.badInput (.orderByMany property))) ∧
    (i.service.graph.ObjectsApart → ∀ r w e,
      (∀ s, Selection.Inside r.selections s → '.' ∉ s.name.toList) →
      .resolver e ∈ ((i.execute r).run w).1.errors →
        e ≠ .filteringUnsupported ∧ e ≠ .orderingUnsupported ∧
        ∀ property, e = .badInput (.orderByMany property) →
          ∃ s m, Selection.Inside r.selections s ∧ ListArgs.parse c m s.args = .error e) := by
  refine ⟨fun m root selections hroot m' => ofSelections_ne_unknownModel h hroot selections m',
    fun r w e he hcode => ?_, fun m l order hparse maxDepth q property =>
      OrderExpr.sort_ne_orderByMany hparse maxDepth q property, fun hapart r w e hnames he => ?_⟩
  · -- whatever fault a request meets, the metadata explains it
    obtain ⟨hg, hcovers⟩ := covers_reached h
    have hfault : e.isFault = true := Error.isFault_iff.2 (by simp [hcode])
    have hmetadata := Catalog.code_of_explains hg (Interface.known_of_execute hcovers r w e he hfault)
    rw [hcode] at hmetadata
    exact absurd hmetadata (by decide)
  · have hmay := mayAnswer h hapart hnames he
    refine ⟨?_, ?_, ?_⟩
    · rintro rfl
      rcases hmay rfl with hfault | ⟨_, heq, -⟩ <;> contradiction
    · rintro rfl
      rcases hmay rfl with hfault | ⟨_, heq, -⟩ <;> contradiction
    · rintro property rfl
      rcases hmay rfl with hfault | ⟨_, -, hread⟩
      · cases hfault
      · exact hread

open Sample.Shelf

/-- The configuration of an interface that lists authors. -/
def listAuthors : SchemaConfig :=
  { SchemaConfig.default with roots := [.all author ⟨true, true, true⟩] }

/-- The order by a property of an author. -/
def orderedBy (property : String) : Literal :=
  .object [(property, .object [("order", .string "asc")])]

/-- The request for the number of authors, in the order of their books. -/
def authorsByBooks : Request :=
  ⟨false, none, [⟨"allAuthors", "allAuthors", [("order", orderedBy "books")],
    [⟨"totalCount", "totalCount", [], []⟩]⟩]⟩

theorem name_of_inside {s : Selection} (h : Selection.Inside authorsByBooks.selections s) :
    s.name = "allAuthors" ∧ s.children = [⟨"totalCount", "totalCount", [], []⟩] ∨
      s.name = "totalCount" ∧ s.children = [] := by
  induction h with
  | top hs =>
    obtain rfl := List.mem_singleton.1 hs
    exact .inl ⟨rfl, rfl⟩
  | child _ ht ih =>
    rcases ih with ⟨-, hchildren⟩ | ⟨-, hchildren⟩ <;> rw [hchildren] at ht
    · obtain rfl := List.mem_singleton.1 ht
      exact .inr ⟨rfl, rfl⟩
    · cases ht

/-- Whether an error is an order by books. -/
def ordersByBooks : FieldError → Bool
  | .resolver (.badInput (.orderByMany property)) => property == "books"
  | _ => false

theorem eq_of_ordersByBooks {e : FieldError} (h : ordersByBooks e = true) :
    e = .resolver (.badInput (.orderByMany "books")) := by
  unfold ordersByBooks at h
  split at h
  · rw [beq_iff_eq.1 h]
  · cases h

/-- The types of authors and books have names of their own. An order of authors by their books is
found in reading it; the order by their names is read, and it applies. -/
theorem no_internal_error_authors : ∃ i root order,
    listAuthors.interface filterableCatalog .none Policy.allowAll = .ok i ∧
      i.service.graph.object author = .ok root ∧
      (∀ m', LoadPlan.ofSelections filterableCatalog i.service.graph root
        authorsByBooks.selections ≠ .error (.unknownModel m')) ∧
      OrderExpr.parse filterableCatalog author (orderedBy "name") = .ok (some order) ∧
      (∀ maxDepth q property, Query.sort filterableCatalog maxDepth author order q ≠
        .error (.badInput (.orderByMany property))) ∧
      i.service.graph.ObjectsApart ∧
      .resolver (.badInput (.orderByMany "books")) ∈
        ((i.execute authorsByBooks).run ⟨store, []⟩).1.errors ∧
      ∃ s m, Selection.Inside authorsByBooks.selections s ∧
        ListArgs.parse filterableCatalog m s.args = .error (.badInput (.orderByMany "books")) := by
  have hruns : ((listAuthors.interface filterableCatalog .none Policy.allowAll).toOption.any
      fun i => (i.service.graph.object author).isOk && decide i.service.graph.ObjectsApart &&
        ((i.execute authorsByBooks).run ⟨store, []⟩).1.errors.any ordersByBooks) = true := by
    decide +kernel
  obtain ⟨i, hi, hrun⟩ := (Option.any_eq_true _ _).1 hruns
  have hi := eq_ok_of_toOption hi
  simp only [Bool.and_eq_true, decide_eq_true_eq, List.any_eq_true] at hrun
  obtain ⟨⟨hok, hapart⟩, e, he, hbooks⟩ := hrun
  obtain rfl := eq_of_ordersByBooks hbooks
  obtain ⟨root, hroot⟩ := exists_of_isOk hok
  have hread : (OrderExpr.parse filterableCatalog author (orderedBy "name")).toOption.any
      Option.isSome = true := by
    decide +kernel
  obtain ⟨parsed, hparsed, hsome⟩ := (Option.any_eq_true _ _).1 hread
  obtain ⟨order, rfl⟩ := Option.isSome_iff_exists.1 hsome
  have horder := eq_ok_of_toOption hparsed
  have hnames : ∀ s, Selection.Inside authorsByBooks.selections s → '.' ∉ s.name.toList := by
    intro s hs
    rcases name_of_inside hs with ⟨hname, -⟩ | ⟨hname, -⟩ <;> rw [hname] <;> decide
  obtain ⟨hplans, -, horders, hrequests⟩ := no_internal_error hi
  obtain ⟨-, -, hfound⟩ := hrequests hapart _ _ _ hnames he
  exact ⟨i, root, order, hi, hroot, hplans author root _ hroot, horder, horders author _ order horder,
    hapart, he, hfound "books" rfl⟩

/-- The configuration of an interface that shows the books of the library. -/
def viewLibrary : SchemaConfig :=
  { SchemaConfig.default with roots := [.view ⟨"library::Book"⟩] }

/-- A library with a book of an author and one of nobody, and a shop without books. -/
def library : Store :=
  ⟨[⟨"authors", [⟨"id", .serial, .null⟩, ⟨"name", .text, .null⟩, ⟨"copy_id", .int, .null⟩],
      [[.int 1, .text "Annie", .null]], 2⟩,
    ⟨"books", [⟨"id", .serial, .null⟩, ⟨"author_id", .int, .null⟩],
      [[.int 1, .int 1], [.int 2, .null]], 3⟩,
    ⟨"shop_books", [⟨"id", .serial, .null⟩], [], 1⟩]⟩

/-- The request for the number of authors of the book of nobody that have a name. -/
def namedAuthors : Request :=
  ⟨false, none, [⟨"book", "book", [("id", .int 2)],
    [⟨"author", "author", [("filter", .object [("name", .object [("eq", .string "Annie")])])],
      [⟨"totalCount", "totalCount", [], []⟩]⟩]⟩]⟩

/-- Whether an error is a filter of entities at hand. -/
def filtersAtHand : FieldError → Bool
  | .resolver .filteringUnsupported => true
  | _ => false

theorem eq_of_filtersAtHand {e : FieldError} (h : filtersAtHand e = true) :
    e = .resolver .filteringUnsupported := by
  unfold filtersAtHand at h
  split at h
  · rfl
  · cases h

/-- Where a book of a library is resolved as one of a shop, which has many authors, the missing
author is at hand as no entities, and these are filtered. -/
theorem not_filtering_supported :
    ¬ ∀ (config : SchemaConfig) (c : Catalog) custom policy i,
      config.interface c custom policy = .ok i → ∀ r w e,
        i.schema.follows (Interface.rootName r) r.selections = true →
        .resolver e ∈ ((i.execute r).run w).1.errors → e ≠ .filteringUnsupported := by
  intro h
  have hruns : ((viewLibrary.interface namesakeCatalog .none Policy.allowAll).toOption.any
      fun i => i.schema.follows (Interface.rootName namedAuthors) namedAuthors.selections &&
        ((i.execute namedAuthors).run ⟨library, []⟩).1.errors.any filtersAtHand) = true := by
    decide +kernel
  obtain ⟨i, hi, hrun⟩ := (Option.any_eq_true _ _).1 hruns
  obtain ⟨hfollows, herrors⟩ := Bool.and_eq_true_iff.1 hrun
  obtain ⟨e, he, hfilters⟩ := List.any_eq_true.1 herrors
  obtain rfl := eq_of_filtersAtHand hfilters
  exact h viewLibrary namesakeCatalog _ _ i (eq_ok_of_toOption hi) namedAuthors _ _ hfollows he rfl

end SchemaConfig

end EntityGraph
