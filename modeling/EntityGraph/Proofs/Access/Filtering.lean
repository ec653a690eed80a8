import EntityGraph.Listing.Paginator
import EntityGraph.Proofs.Filter.References
import EntityGraph.Proofs.Run.Action
import EntityGraph.Sample.Shelf

/-!
# Filters need permission

A filter takes effect only after the policy allowed to filter the model and to filter by every
property that the filter looks at, at any depth.

* `Guard.runIn_require` is one question of the guard, and `Guard.runIn_requireAll` a list of them;
* `Paginator.restrict_authorized` is what a successful restriction of a list has checked, and which
  columns its condition can read.
-/

namespace EntityGraph

namespace Guard

variable {g : Guard} {caller : Caller} {w w' : World}

/-- The guard notes its question with the answer, and fails on a denial. -/
theorem runIn_require (c : Check) :
    (g.require caller c).runIn w =
      (if g.policy.allows caller c then .ok ()
        else .error (.denied (g.vocabulary.denied c.ability c.property)),
      w.note (.check caller c (g.policy.allows caller c))) := by
  unfold require ask
  simp only [Action.runIn_bind, Action.runIn_record, Action.runIn_pure]
  split_ifs <;> rfl

theorem runIn_require_eq_ok {c : Check} :
    (g.require caller c).runIn w = (.ok (), w') ↔
      g.policy.allows caller c = true ∧ w' = w.note (.check caller c true) := by
  rw [runIn_require]
  cases g.policy.allows caller c with
  | true => simp [eq_comm]
  | false => simp

/-- Questions that all were answered with yes, in order. -/
theorem runIn_requireAll {checks : List Reference}
    (h : (checks.forM fun r => g.require caller (propertyCheck r)).runIn w = (.ok (), w')) :
    (∀ r ∈ checks, g.policy.allows caller (propertyCheck r) = true) ∧ w'.store = w.store ∧
      w'.log = w.log ++ checks.map fun r => .check caller (propertyCheck r) true := by
  induction checks generalizing w with
  | nil =>
    cases h
    simp
  | cons r rest ih =>
    rw [List.forM, Action.runIn_bind_eq_ok] at h
    obtain ⟨_, w₁, hfirst, hrest⟩ := h
    obtain ⟨hallowed, rfl⟩ := runIn_require_eq_ok.1 hfirst
    obtain ⟨hall, hstore, hlog⟩ := ih hrest
    refine ⟨List.forall_mem_cons.2 ⟨hallowed, hall⟩, hstore, ?_⟩
    rw [hlog, World.note_log, List.append_assoc, List.map_cons]
    rfl

end Guard

namespace Paginator

open Guard

variable {p p' : Paginator} {g : Guard} {caller : Caller} {w w' : World} {f : FilterExpr}

/-- A list that was restricted by a filter that was read on its model: either the filter is empty,
nothing was asked, nothing changed and the condition of the filter always holds; or the policy
allowed to filter the model, and by each property that the filter looks at, each asked for once, and
the condition reads no column but those of these properties. -/
theorem restrict_authorized {l : Literal} (hparse : FilterExpr.parse p.catalog p.model l = .ok f)
    (h : (p.restrict g caller f).runIn w = (.ok p', w')) :
    (f.isEmpty = true ∧ p' = p ∧ w' = w ∧ ∀ maxDepth T, p.catalog.table p.model = .ok T →
      ∃ clause, f.compile p.catalog maxDepth p.model = .ok clause ∧
        ∀ (s : Store) schema row, s.test schema row clause = .ok true) ∨
    (f.isEmpty = false ∧ ∃ (refs : List Reference) (clause : Condition) (q : Query),
      refs.Nodup ∧ (∀ ref, ref ∈ refs ↔ FilterExpr.Names p.catalog p.model f ref) ∧
      g.policy.allows caller { plain .filter p.model with filter := some f } = true ∧
      (∀ ref ∈ refs, g.policy.allows caller (propertyCheck ref) = true) ∧
      w'.store = w.store ∧
      w'.log = w.log ++ .check caller { plain .filter p.model with filter := some f } true ::
        refs.map (fun ref => .check caller (propertyCheck ref) true) ∧
      p.source = .query q ∧ f.compile p.catalog p.maxDepth p.model = .ok clause ∧
      p' = { p with source := .query (q.filter clause), filter := some f } ∧
      ∀ column ∈ clause.reads, ∃ ref ∈ refs, ref.Accounts p.catalog column) := by
  unfold restrict at h
  split_ifs at h with hempty
  · cases h
    refine .inl ⟨hempty, rfl, rfl, fun maxDepth T hT => ?_⟩
    obtain ⟨clause, hclause, halways⟩ := FilterExpr.compileAt_of_isEmpty hempty
    exact ⟨clause, FilterExpr.compile_eq_ok.2 ⟨T, hT, hclause⟩, halways⟩
  · right
    -- the policy is asked about the filter first, and then about each property that it names
    rw [Action.runIn_bind_eq_ok] at h
    obtain ⟨_, w₁, hrequire, h⟩ := h
    unfold requireFilter at hrequire
    rw [Action.runIn_bind_eq_ok] at hrequire
    obtain ⟨_, w₀, hfilter, hrefs⟩ := hrequire
    obtain ⟨hallowed, rfl⟩ := runIn_require_eq_ok.1 hfilter
    obtain ⟨hall, hstore, hlog⟩ := runIn_requireAll hrefs
    simp only [Action.runIn_bind_eq_ok, Action.runIn_ofExcept, Action.runIn_pure, Prod.mk.injEq]
      at h
    obtain ⟨q, _, ⟨hq, rfl⟩, q', _, ⟨hrestrict, rfl⟩, hp', rfl⟩ := h
    have hsource : p.source = .query q := by
      unfold sourceQuery at hq
      split at hq
      · rename_i q₀ hq₀
        rw [hq₀, Except.ok.inj hq]
      · cases hq
    obtain ⟨clause, hclause, hquery⟩ := bind_eq_ok.1 hrestrict
    obtain rfl := pure_eq_ok.1 hquery
    -- the filter was read on this model, so its relations have the targets of the catalog
    have hagrees := FilterExpr.agrees_of_parse p.model l f hparse
    refine ⟨by simpa using hempty, f.references p.model, clause, q,
      FilterExpr.nodup_references hagrees, fun ref => FilterExpr.mem_references hagrees, hallowed,
      hall, hstore, ?_, hsource, hclause, (Except.ok.inj hp').symm, ?_⟩
    · rw [hlog, World.note_log, List.append_assoc]
      rfl
    · intro column hcolumn
      obtain ⟨T, hT, hat⟩ := FilterExpr.compile_eq_ok.1 hclause
      obtain ⟨ref, hnames, haccounts⟩ := FilterExpr.reads_compileAt hT hat column hcolumn
      exact ⟨ref, (FilterExpr.mem_references hagrees).2 hnames, haccounts⟩

/-- The authors of a shelf. -/
def shelf : Paginator :=
  of Sample.Shelf.catalog 3 Sample.Shelf.author (.query (Query.all "authors"))

/-- The argument for the authors of a book of some title, or of a name. -/
def shelfFilter : Literal :=
  .object [("or", .list
    [.object [("books", .object [("title", .object [("eq", .string "Studyology")])])],
      .object [("name", .object [("eq", .string "Annie")])]])]

theorem restrict_shelf_authorized :
    ∃ f p' w', FilterExpr.parse shelf.catalog shelf.model shelfFilter = .ok f ∧
      (shelf.restrict ⟨Policy.allowAll, .english⟩ none f).runIn ⟨Sample.Shelf.store, []⟩
        = (.ok p', w') ∧
      ∃ refs : List Reference, refs.Nodup ∧
        (∀ ref, ref ∈ refs ↔ FilterExpr.Names shelf.catalog shelf.model f ref) ∧
        w'.log = .check none { plain .filter shelf.model with filter := some f } true ::
          refs.map fun ref => .check none (propertyCheck ref) true := by
  have hruns : (match FilterExpr.parse shelf.catalog shelf.model shelfFilter with
      | .ok f => !f.isEmpty && ((shelf.restrict ⟨Policy.allowAll, .english⟩ none f).runIn
        ⟨Sample.Shelf.store, []⟩).1.toOption.isSome
      | .error _ => false) = true := by decide +kernel
  cases hparse : FilterExpr.parse shelf.catalog shelf.model shelfFilter with
  | error e => simp [hparse] at hruns
  | ok f =>
    simp only [hparse, Bool.and_eq_true, Bool.not_eq_true'] at hruns
    obtain ⟨hempty, hok⟩ := hruns
    rcases hrun : (shelf.restrict ⟨Policy.allowAll, .english⟩ none f).runIn
      ⟨Sample.Shelf.store, []⟩ with ⟨r, w'⟩
    cases r with
    | error e => simp [hrun, Except.toOption] at hok
    | ok p' =>
      rcases restrict_authorized hparse hrun with ⟨hempty', -⟩ | ⟨-, refs, -, -, hnodup, hnames,
        -, -, -, hlog, -⟩
      · simp [hempty] at hempty'
      · exact ⟨f, p', w', rfl, hrun, refs, hnodup, hnames, hlog⟩

end Paginator

end EntityGraph
