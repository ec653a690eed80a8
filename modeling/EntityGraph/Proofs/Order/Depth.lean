import EntityGraph.Proofs.Filter.Depth
import EntityGraph.Proofs.Order.Levels
import EntityGraph.Proofs.Order.Valid

/-!
# The limit on the depth of orders

An order is a chain of relations, and its depth is their number. `OrderExpr.limited_sort` says that
an order that was read applies where its depth is within the limit, and fails with the first number
beyond it otherwise; `Catalog.depth_limit_exact` says so of filters and orders.
-/

namespace EntityGraph

namespace OrderExpr

/-- The number of relations that an order goes through. -/
def depth : OrderExpr → Nat
  | field _ _ => 0
  | relation _ _ order => order.depth + 1

variable {c : Catalog} {m : ModelId} {limit k : Nat}

/-- An order that was read is on a known model. -/
theorem Read.exists_table {order : OrderExpr} (h : order.Read c m) :
    ∃ table, c.table m = .ok table := by
  have hproperty : ∃ name p, c.property m name = .ok p := by
    cases order with
    | field property direction =>
      obtain ⟨p, hp, -⟩ := h
      exact ⟨property, p, hp⟩
    | relation property target order =>
      obtain ⟨⟨p, hp, -⟩, -⟩ := h
      exact ⟨property, p, hp⟩
  obtain ⟨name, p, hp⟩ := hproperty
  obtain ⟨properties, hproperties, -⟩ := bind_eq_ok.1 hp
  obtain ⟨d, hd, -⟩ := bind_eq_ok.1 hproperties
  exact ⟨d.tableName, bind_eq_ok.2 ⟨d, hd, rfl⟩⟩

/-- An order that was read applies within the limit, and fails beyond it. The order behind a
relation is one level deeper. -/
theorem limited_applyAt (hc : ∀ m, c.Resolves m) {order : OrderExpr} (hk : k ≤ limit)
    (hread : order.Read c m) (q : Query) (table : String) :
    Limited limit (.orderTooDeep (limit + 1)) (k + order.depth)
      (order.applyAt c limit q m table k) := by
  induction order generalizing m table k q with
  | field property direction => exact .ok hk _
  | relation property target order ih =>
    rw [applyAt, depth]
    by_cases hdeep : limit < k + 1
    · rw [if_pos hdeep, show k + 1 = limit + 1 by omega]
      exact .error (by omega)
    · rw [if_neg hdeep]
      obtain ⟨⟨p, hp, -, hone, htarget⟩, hbelow⟩ := hread
      obtain ⟨r, hr⟩ := hc m property p target hp (Property.type_eq_of_target htarget)
      obtain ⟨join, hjoin⟩ := exists_joinAlong (isToOne_of_relation hp htarget hone hr) table
      have hinner := ih (by omega : k + 1 ≤ limit) hbelow (q.join join) r.targetTable
      rw [hr, show k + (order.depth + 1) = k + 1 + order.depth by omega]
      simp only [bind, Except.bind, hjoin]
      exact hinner

/-- An order that was read applies to a query where its depth is within the limit. -/
theorem limited_sort (hc : ∀ m, c.Resolves m) {order : OrderExpr} {l : Literal}
    (hread : parse c m l = .ok (some order)) (q : Query) :
    Limited limit (.orderTooDeep (limit + 1)) order.depth (q.sort c limit m order) := by
  have h := read_of_parse hread
  obtain ⟨table, htable⟩ := h.exists_table
  have happly := limited_applyAt (k := 0) hc (Nat.zero_le limit) h q table
  rw [Nat.zero_add] at happly
  rw [Query.sort, htable]
  exact happly

end OrderExpr

/-- The relations of all models can be resolved if those of the defined ones can. -/
theorem Catalog.resolves_of_all {c : Catalog}
    (h : (c.definitions.all fun d => c.resolves d.id) = true) : ∀ m, c.Resolves m := by
  intro m name p target hp htype
  obtain ⟨properties, hproperties, -⟩ := bind_eq_ok.1 hp
  obtain ⟨d, hd, rfl⟩ := exists_definition_of_describe hproperties
  exact resolves_of_resolves (List.all_eq_true.1 h d hd) name p target hp htype

/-- The limit on the number of relations is exact. Where the relations of a catalog resolve, a
filter on one of its models that was read, and whose comparisons have conditions on their own, is
compiled exactly if no branch goes through more relations than the limit; otherwise it fails with
the first number beyond it. So do orders. -/
theorem Catalog.depth_limit_exact {c : Catalog} (hc : ∀ m, c.Resolves m) (limit : Nat) (m : ModelId)
    (l : Literal) :
    (∀ f, c.contains m = true → FilterExpr.parse c m l = .ok f → f.PredicatesCompile c m →
      ((∃ clause, f.compile c limit m = .ok clause) ↔ f.depth ≤ limit) ∧
      (limit < f.depth → f.compile c limit m = .error (.filterTooDeep (limit + 1)))) ∧
    ∀ order, OrderExpr.parse c m l = .ok (some order) → ∀ q : Query,
      ((∃ q', q.sort c limit m order = .ok q') ↔ order.depth ≤ limit) ∧
      (limit < order.depth → q.sort c limit m order = .error (.orderTooDeep (limit + 1))) := by
  constructor
  · intro f hm hread hpredicates
    have h : Limited limit (.filterTooDeep (limit + 1)) f.depth (f.compile c limit m) :=
      FilterExpr.limited_compile hc hm hread hpredicates
    exact ⟨h.isOk_iff, h.2⟩
  · intro order hread q
    have h : Limited limit (.orderTooDeep (limit + 1)) order.depth (q.sort c limit m order) :=
      OrderExpr.limited_sort hc hread q
    exact ⟨h.isOk_iff, h.2⟩

section Shelf

open Sample

variable {c : Catalog} {m : ModelId} {l : Literal} {n : Nat}

/-- Whether a literal is a filter of some depth whose comparisons have conditions. -/
def FilterExpr.readsDepth (c : Catalog) (m : ModelId) (l : Literal) (n : Nat) : Bool :=
  match parse c m l with
  | .ok f => f.depth == n &&
    (f.predicates m).all fun x => ((mk [x.2] [] [] none).compile c 0 x.1).isOk
  | .error _ => false

theorem FilterExpr.exists_of_readsDepth (h : readsDepth c m l n = true) :
    ∃ f, parse c m l = .ok f ∧ f.depth = n ∧ f.PredicatesCompile c m := by
  unfold readsDepth at h
  split at h
  next f hf =>
    obtain ⟨hdepth, hall⟩ := Bool.and_eq_true_iff.1 h
    exact ⟨f, hf, beq_iff_eq.1 hdepth, fun x hx => exists_of_isOk (List.all_eq_true.1 hall x hx)⟩
  · cases h

/-- Whether a literal is an order of some depth. -/
def OrderExpr.readsDepth (c : Catalog) (m : ModelId) (l : Literal) (n : Nat) : Bool :=
  match parse c m l with
  | .ok (some order) => order.depth == n
  | _ => false

theorem OrderExpr.exists_of_readsDepth (h : readsDepth c m l n = true) :
    ∃ order, parse c m l = .ok (some order) ∧ order.depth = n := by
  unfold readsDepth at h
  split at h
  next order horder => exact ⟨order, horder, beq_iff_eq.1 h⟩
  · cases h

/-- The authors who share a book with one of a name. -/
def coauthors : Literal :=
  .object [("books", .object [("author", .object [("name", .object [("eq", .string "Annie")])])])]

/-- Books by the names of their authors. -/
def byAuthorName : Literal :=
  .object [("author", .object [("name", .object [("order", .enum "asc")])])]

/-- A filter through two relations is compiled below a limit of two and no other, and an order
through one below a limit of one. -/
theorem Catalog.depth_limit_exact_shelf :
    (∃ f, FilterExpr.parse Shelf.filterableCatalog Shelf.author coauthors = .ok f ∧
      (∃ clause, f.compile Shelf.filterableCatalog 2 Shelf.author = .ok clause) ∧
      f.compile Shelf.filterableCatalog 1 Shelf.author = .error (.filterTooDeep 2)) ∧
    ∃ order, OrderExpr.parse Shelf.filterableCatalog Shelf.book byAuthorName
        = .ok (some order) ∧
      (∃ q, (Query.all "books").sort Shelf.filterableCatalog 1 Shelf.book order = .ok q) ∧
      (Query.all "books").sort Shelf.filterableCatalog 0 Shelf.book order
        = .error (.orderTooDeep 1) := by
  have hc : ∀ m, Shelf.filterableCatalog.Resolves m := Catalog.resolves_of_all (by decide +kernel)
  obtain ⟨f, hf, hdepth, hpredicates⟩ := FilterExpr.exists_of_readsDepth
    (show FilterExpr.readsDepth Shelf.filterableCatalog Shelf.author coauthors 2 = true by
      decide +kernel)
  obtain ⟨order, horder, horderDepth⟩ := OrderExpr.exists_of_readsDepth
    (show OrderExpr.readsDepth Shelf.filterableCatalog Shelf.book byAuthorName 1 = true by
      decide +kernel)
  refine ⟨⟨f, hf, ?_, ?_⟩, order, horder, ?_, ?_⟩
  · exact ((depth_limit_exact hc 2 Shelf.author coauthors).1 f rfl hf hpredicates).1.2 (by omega)
  · exact ((depth_limit_exact hc 1 Shelf.author coauthors).1 f rfl hf hpredicates).2 (by omega)
  · exact ((depth_limit_exact hc 1 Shelf.book byAuthorName).2 order horder _).1.2 (by omega)
  · exact ((depth_limit_exact hc 0 Shelf.book byAuthorName).2 order horder _).2 (by omega)

end Shelf

end EntityGraph
