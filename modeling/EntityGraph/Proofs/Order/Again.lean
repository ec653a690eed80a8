import EntityGraph.Proofs.Order.Sorted
import EntityGraph.Proofs.Store.Repeats

/-!
# Orders that apply again

An order adds the joins along its chain, those that a query has already excepted, and one term at
the end. Where it applies again it finds all its joins and adds its term once more, by which all
rows tie that the earlier terms do not tell apart.

* `OrderExpr.sort_adds` says that an order adds the same to all queries;
* `OrderExpr.sort_sorted` is the query that the second application makes;
* `OrderExpr.sort_again` says that no database tells it from the first.
-/

namespace EntityGraph

namespace Query

variable {q : Query} {js : List Join}

/-- Joins that a query has are not added. -/
theorem joinAll_of_mem (h : ∀ j ∈ js, j ∈ q.joins) : q.joinAll js = q := by
  induction js with
  | nil => rfl
  | cons j js ih =>
    have hj : q.join j = q := if_pos (h j List.mem_cons_self)
    change (q.join j).joinAll js = q
    rw [hj]
    exact ih fun k hk => h k (List.mem_cons_of_mem j hk)

end Query

namespace OrderExpr

variable {c : Catalog} {maxDepth : Nat} {model : ModelId} {order : OrderExpr} {q q' : Query}

/-- What an order adds to one query it adds to all: the joins along its chain, and its term at the
end. -/
theorem sort_adds (h : q.sort c maxDepth model order = .ok q') :
    ∃ (js : List Join) (term : OrderTerm), ∀ p : Query, p.sort c maxDepth model order
      = .ok { p.joinAll js with order := p.order ++ [term] } := by
  obtain ⟨T, hT, happly⟩ := bind_eq_ok.1 h
  obtain ⟨hadd, -⟩ := applyAt_eq_ok happly
  refine ⟨order.joins c model T, ⟨order.sortColumn c model T, order.direction⟩, fun p => ?_⟩
  refine bind_eq_ok.2 ⟨T, hT, (hadd p).trans ?_⟩
  rw [Query.joinAll_eq]
  rfl

/-- The query to which an order was applied has the order's term at its end. Applied again, also to
a query with more conditions and terms, the order adds that term and nothing else. -/
theorem sort_sorted (h : q.sort c maxDepth model order = .ok q') :
    ∃ term, q'.order = q.order ++ [term] ∧ q'.filters = q.filters ∧
      ∀ p : Query, (∀ j ∈ q'.joins, j ∈ p.joins) →
        p.sort c maxDepth model order = .ok { p with order := p.order ++ [term] } := by
  obtain ⟨js, term, hadd⟩ := sort_adds h
  obtain rfl := Except.ok.inj ((hadd q).symm.trans h)
  refine ⟨term, rfl, by rw [Query.joinAll_eq], fun p hjoins => ?_⟩
  have hjoined : p.joinAll js = p :=
    Query.joinAll_of_mem fun j hj => hjoins j (Query.mem_joins_joinAll.2 (.inr hj))
  rw [hadd p, hjoined]

/-- An order that was applied to a query applies again: it adds no join, and every database answers
the same rows in the same order, counts as many, or fails in the same way, with and without the
window of the query. -/
theorem sort_again (h : q.sort c maxDepth model order = .ok q') :
    ∃ q'', q'.sort c maxDepth model order = .ok q'' ∧ q''.joins = q'.joins ∧
      ∀ s : Store, s.select q''.toSelect = s.select q'.toSelect ∧
        s.count q''.toSelect = s.count q'.toSelect ∧
        s.count q''.withoutWindow.toSelect = s.count q'.withoutWindow.toSelect := by
  obtain ⟨term, horder, -, hagain⟩ := sort_sorted h
  have hrepeats : Repeats [] q'.order (q'.order ++ [term]) :=
    (Repeats.refl [] q'.order).append_again (.inr (by simp [horder]))
  refine ⟨_, hagain q' fun j hj => hj, rfl, fun s => ?_⟩
  obtain ⟨hselect, hcount⟩ := Store.select_repeats (s := s) (q := q'.toSelect)
    (Repeats.refl [] q'.filters) hrepeats
  obtain ⟨-, hwhole⟩ := Store.select_repeats (s := s) (q := q'.withoutWindow.toSelect)
    (Repeats.refl [] q'.filters) hrepeats
  exact ⟨hselect, hcount, hwhole⟩

section Shelf

open Sample

/-- The second of the books by descending title, of those that are numbered from one. -/
def secondBook : Query :=
  ⟨"books", [], [positiveId], [⟨Column.of "books" "title", .desc⟩], some 1, some 1⟩

/-- The same query, with books ordered by the names of their authors behind their titles. -/
def secondByAuthor : Query :=
  { secondBook with
    joins := [⟨"authors", Column.of "authors" "id", .eq, Column.of "books" "author_id"⟩]
    order := [⟨Column.of "books" "title", .desc⟩, ⟨Column.of "authors" "name", .asc⟩] }

/-- The second book is the same one when the order by authors is applied twice. -/
theorem sort_again_shelf :
    secondBook.sort Shelf.catalog 3 Shelf.book byAuthor = .ok secondByAuthor ∧
    ∃ q, secondByAuthor.sort Shelf.catalog 3 Shelf.book byAuthor = .ok q ∧
      q.joins = secondByAuthor.joins ∧
      Shelf.store.select q.toSelect
        = .ok [Shelf.books.record [.int 2, .text "Learning!", .int 2]] ∧
      Shelf.store.count q.withoutWindow.toSelect = .ok 2 := by
  have hsort : secondBook.sort Shelf.catalog 3 Shelf.book byAuthor = .ok secondByAuthor := rfl
  obtain ⟨q, hq, hjoins, hstores⟩ := sort_again hsort
  obtain ⟨hselect, -, hcount⟩ := hstores Shelf.store
  exact ⟨hsort, q, hq, hjoins, hselect.trans rfl, hcount.trans rfl⟩

end Shelf

end OrderExpr

end EntityGraph
