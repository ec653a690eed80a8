import EntityGraph.Proofs.Relation.Nested
import EntityGraph.Proofs.Relation.Shares
import EntityGraph.Proofs.Request.Plan
import EntityGraph.Sample.Shelf

/-!
# Loading ahead of time

Loading a plan gives every entity on the way what the entity's own query gives.

* `Loader.Settled` says this of one path; it is the invariant of loading one path after the other,
  since a path is loaded after its parts and never again;
* `Loader.loadPaths_transparent` is the result for the plans of selections.
-/

namespace EntityGraph

theorem Loaded.toList_bare (x : Loaded) : x.bare.toList = x.toList.map Entity.bare := by
  cases x with
  | one target => cases target <;> rfl
  | many targets => rfl

theorem Loaded.bare_eq_self {x : Loaded} (h : ∀ e ∈ x.toList, e.bare = e) : x.bare = x := by
  cases x with
  | one target =>
    cases target with
    | none => rfl
    | some e => exact congrArg (fun e => Loaded.one (some e)) (h e List.mem_cons_self)
  | many targets => exact congrArg Loaded.many ((List.map_congr_left h).trans (List.map_id targets))

/-- Whether an entity was read from a table depends on its row only. -/
theorem Entity.stored_of_bare {s : Store} {c : Catalog} {m : ModelId} {e e' : Entity}
    (hbare : e.bare = e'.bare) (h : e'.model = m ∧ e'.Stored s c) : e.model = m ∧ e.Stored s c := by
  obtain ⟨hmodel, hattributes⟩ := bare_eq_iff.1 hbare
  rwa [Stored, hmodel, hattributes]

/-- Restrictions that equal none restrict nothing. -/
theorem ListArgs.eq_none_of_same {args : ListArgs} (h : args.same ListArgs.none = true) :
    args = ListArgs.none := by
  obtain ⟨filter, order, limit, offset⟩ := args
  cases filter with
  | none => simpa [same, ListArgs.none, and_assoc] using h
  | some f => simp [same, ListArgs.none] at h

/-- Without restrictions no table is joined, and nothing is sorted. -/
theorem Store.orders_none {s : Store} {l : Loader} {r : Relation} :
    s.Orders l r ListArgs.none := by
  intro q hq
  cases hq
  exact ⟨by simp [Query.all], by simp [Query.all]⟩

namespace Loader

/-- The loaded targets of an entity are the rows that the entity's own query gives, in their order,
whenever it succeeds. -/
def Transparent (l : Loader) (s : Store) (owner : Entity) (property : String) (args : ListArgs) :
    Prop :=
  ∀ w w' loaded, w.store = s → (l.alone owner property args).runIn w = (.ok loaded, w') →
    (owner.relation property).map Loaded.bare = some loaded

/-- The loaded targets of an entity were read from their table, and are those of its own query. -/
def Fits (l : Loader) (s : Store) (r : Relation) (property : String) (args : ListArgs)
    (owner : Entity) : Prop :=
  (∃ loaded, owner.relation property = some loaded ∧
    ∀ e ∈ loaded.toList, e.model = r.target ∧ e.Stored s l.catalog) ∧
    l.Transparent s owner property args

/-- A path is loaded for all entities that it leads through. -/
def Settled (l : Loader) (s : Store) (m : ModelId) (owners : List Entity) (x : String × ListArgs) :
    Prop :=
  ∃ above last model r, segments x.1 = above ++ [last] ∧ l.catalog.follow m above = .ok model ∧
    l.catalog.relation model last = .ok r ∧ ∀ o ∈ reach above owners, l.Fits s r last x.2 o

/-- What lets the targets of a batch be shared out as each owner's own query gives them. -/
structure Sharable (l : Loader) (s : Store) (r : Relation) (args : ListArgs) : Prop where
  keyed : s.Keyed r
  apart : r.PairsApart
  orders : s.Orders l r args

variable {l : Loader} {s : Store} {m : ModelId} {owners owners' : List Entity} {w w' : World}
  {x : String × ListArgs}

/-- Whether targets fit depends on the rows only. -/
theorem Fits.congr {r : Relation} {property : String} {args : ListArgs} {o o' : Entity}
    (h : l.Fits s r property args o) (hbare : o'.bare = o.bare)
    (hslot : (o'.relation property).map Loaded.bare = (o.relation property).map Loaded.bare) :
    l.Fits s r property args o' := by
  obtain ⟨⟨loaded, hloaded, hstored⟩, htransparent⟩ := h
  rw [hloaded, Option.map_some] at hslot
  obtain ⟨loaded', hloaded', heq⟩ := Option.map_eq_some_iff.1 hslot
  refine ⟨⟨loaded', hloaded', fun e he => ?_⟩, fun w w' alone hw halone => ?_⟩
  · have hmem : e.bare ∈ loaded.bare.toList := by
      rw [← heq, Loaded.toList_bare]
      exact List.mem_map.2 ⟨e, he, rfl⟩
    rw [Loaded.toList_bare] at hmem
    obtain ⟨e', he', hbare⟩ := List.mem_map.1 hmem
    exact Entity.stored_of_bare hbare.symm (hstored e' he')
  · have hown : (l.alone o property args).runIn w = (.ok alone, w') := by
      change (l.alone o.bare property args).runIn w = _
      rw [← hbare]
      exact halone
    rw [hslot, ← htransparent w w' alone hw hown, hloaded, Option.map_some]

/-- Loading a path leaves what is settled on paths that do not go through it. -/
theorem Settled.keeps {above : List String} {last : String} (h : l.Settled s m owners x)
    (hdiffer : List.Forall₂ (Entity.Differ last above) owners owners')
    (hne : ¬ above ++ [last] <+: segments x.1) : l.Settled s m owners' x := by
  obtain ⟨above', last', model, r, hx, hmodel, hr, hfits⟩ := h
  rw [hx] at hne
  refine ⟨above', last', model, r, hx, hmodel, hr, fun o' ho' => ?_⟩
  obtain ⟨o, ho, hbare, hslot⟩ := exists_of_forall₂_right (reach_differ hne hdiffer) ho'
  exact (hfits o ho).congr hbare hslot

/-- The entities that settled paths reach are rows of the model at the end of the path. -/
theorem stored_of_reach {above : List String} {model : ModelId}
    (howners : ∀ o ∈ owners, o.model = m ∧ o.Stored s l.catalog)
    (hway : ∀ path last, path ++ [last] <+: above →
      ∃ y, segments y.1 = path ++ [last] ∧ l.Settled s m owners y)
    (hmodel : l.catalog.follow m above = .ok model) :
    ∀ o ∈ reach above owners, o.model = model ∧ o.Stored s l.catalog := by
  rcases List.eq_nil_or_concat above with rfl | ⟨path, last, rfl⟩
  · cases hmodel
    exact howners
  · rw [List.concat_eq_append] at hmodel hway ⊢
    obtain ⟨y, hy, path', last', parent, r, hy', hparent, hr, hfits⟩ :=
      hway path last (List.prefix_refl _)
    obtain ⟨rfl, rfl⟩ := List.append_inj' (hy.symm.trans hy') rfl |>.imp_right List.singleton_inj.1
    obtain ⟨parent', r', hparent', hr', rfl⟩ := Catalog.follow_append_eq_ok.1 hmodel
    obtain rfl : parent = parent' := Except.ok.inj (hparent.symm.trans hparent')
    obtain rfl : r = r' := Except.ok.inj (hr.symm.trans hr')
    intro e he
    rw [reach_append] at he
    obtain ⟨o, ho, he⟩ := List.mem_flatMap.1 he
    obtain ⟨⟨loaded, hloaded, hstored⟩, -⟩ := hfits o ho
    rw [hloaded] at he
    exact hstored e he

/-- A path whose parts are settled is settled by loading it. -/
theorem settled_of_loadPath {above : List String} {last : String}
    (hx : segments x.1 = above ++ [last]) (hs : s.Full) (hw : w.store = s)
    (howners : ∀ o ∈ owners, o.model = m ∧ o.Stored s l.catalog)
    (hway : ∀ path last, path ++ [last] <+: above →
      ∃ y, segments y.1 = path ++ [last] ∧ l.Settled s m owners y)
    (hfit : ∀ model r, l.catalog.follow m above = .ok model →
      l.catalog.relation model last = .ok r →
        l.Sharable s r x.2 ∧ (r.link.isToOne = true → x.2 = ListArgs.none))
    (h : l.loadPath m x.2 owners (segments x.1) w = ((owners', .ok ()), w')) :
    l.Settled s m owners' x ∧ List.Forall₂ (Entity.Differ last above) owners owners' ∧
      w'.store = s := by
  subst hw
  rw [hx] at h
  -- every relation on the way is there, so nothing is loaded but the last one
  have hsome : ∀ path last, path ++ [last] <+: above → ∀ o ∈ reach path owners,
      (o.relation last).isSome := by
    intro path last hpart o ho
    obtain ⟨y, hy, path', last', model, r, hy', -, -, hfits⟩ := hway path last hpart
    obtain ⟨rfl, rfl⟩ := List.append_inj' (hy.symm.trans hy') rfl |>.imp_right List.singleton_inj.1
    obtain ⟨⟨loaded, hloaded, -⟩, -⟩ := hfits o ho
    rw [hloaded]
    rfl
  obtain ⟨model, r, share, hmodel, hr, hshares, hreach, hdiffer⟩ := loadPath_eq_ok hsome h
  obtain ⟨⟨hkeyed, hapart, horders⟩, hplain⟩ := hfit model r hmodel hr
  have hstored := stored_of_reach howners hway hmodel
  refine ⟨⟨above, last, model, r, hx, hmodel, hr, fun o' ho' => ?_⟩, hdiffer, ?_⟩
  · rw [hreach] at ho'
    obtain ⟨o, ho, rfl⟩ := List.mem_map.1 ho'
    have hslot : (o.setRestricted last (share o) x.2).relation last = some (share o) :=
      (Dict.get?_set _ _ _ _).trans (if_pos rfl)
    have htargets := shares_stored hs hr hkeyed horders hshares o
    refine ⟨⟨share o, hslot, fun e he => ?_⟩, fun w₁ w₂ alone hw₁ halone => ?_⟩
    · obtain ⟨record, rfl, he⟩ := htargets e he
      exact ⟨rfl, he⟩
    · have hbare : (share o).bare = share o := Loaded.bare_eq_self fun e he => by
        obtain ⟨record, rfl, -⟩ := htargets e he
        rfl
      have heq := shares_eq_alone hs hr hkeyed hapart horders hplain hshares ho
        (hstored o ho).1 (hstored o ho).2 hw₁ halone
      rw [hslot, Option.map_some, hbare, heq]
  · exact (Action.keeps_of_runIn (AcrossReads.quiet.shares l r x.2 _) hshares).1

theorem loadEach_cons_eq_ok {rest : List (String × ListArgs)}
    (h : l.loadEach m owners (x :: rest) w = ((owners', .ok ()), w')) :
    ∃ between w₁, l.loadPath m x.2 owners (segments x.1) w = ((between, .ok ()), w₁) ∧
      l.loadEach m between rest w₁ = ((owners', .ok ()), w') := by
  rcases hload : l.loadPath m x.2 owners (segments x.1) w with ⟨⟨between, result⟩, w₁⟩
  rw [loadEach, World.bind_apply, hload] at h
  cases result with
  | error e => cases h
  | ok u => exact ⟨between, w₁, rfl, h⟩

/-- Loading what remains of a plan settles all of it. -/
theorem settled_of_loadEach {plan done rest : LoadPlan} (hplan : plan.Sound l.catalog m)
    (hfit : ∀ r args, plan.Loads l.catalog m r args → l.Sharable s r args)
    (hs : s.Full) (hrest : rest ⊆ plan) (hordered : done.Ordered rest)
    (hw : w.store = s) (howners : ∀ o ∈ owners, o.model = m ∧ o.Stored s l.catalog)
    (hdone : ∀ y ∈ done, l.Settled s m owners y)
    (h : l.loadEach m owners rest w = ((owners', .ok ()), w')) :
    owners'.map Entity.bare = owners.map Entity.bare ∧
      ∀ y ∈ done ++ rest, l.Settled s m owners' y := by
  -- what is settled stays so, since no path replaces what the paths before it led through
  induction rest generalizing done owners w with
  | nil =>
    cases h
    exact ⟨rfl, by simpa using hdone⟩
  | cons x rest ih =>
    obtain ⟨hparts, hfresh, hlater⟩ := hordered
    obtain ⟨hx, hrest⟩ := List.cons_subset.1 hrest
    obtain ⟨between, w₁, hload, h⟩ := loadEach_cons_eq_ok h
    obtain ⟨above, last, hsegments, -⟩ := hplan.continues x hx
    obtain ⟨hsettled, hdiffer, hw₁⟩ := settled_of_loadPath hsegments hs hw howners
      (fun path last' hpart => by
        obtain ⟨y, hy, heq⟩ := hparts path last' (hsegments ▸ hpart.trans (List.prefix_append _ _))
          fun heq => by
            have hlength := hpart.length_le
            rw [heq, hsegments, List.length_append, List.length_singleton] at hlength
            omega
        exact ⟨y, heq, hdone y hy⟩)
      (fun model r hmodel hr => by
        have hloads : plan.Loads l.catalog m r x.2 :=
          ⟨x.1, above, last, model, hx, hsegments, hmodel, hr⟩
        exact ⟨hfit r x.2 hloads, hplan.plain r x.2 hloads⟩) hload
    have hbare : between.map Entity.bare = owners.map Entity.bare :=
      Entity.map_bare_eq hdiffer fun _ _ => Entity.Differ.bare_eq
    have hbetween : ∀ o ∈ between, o.model = m ∧ o.Stored s l.catalog := by
      intro o ho
      have hmem : o.bare ∈ owners.map Entity.bare := hbare ▸ List.mem_map.2 ⟨o, ho, rfl⟩
      obtain ⟨o', ho', heq⟩ := List.mem_map.1 hmem
      exact Entity.stored_of_bare heq.symm (howners o' ho')
    have hsettledAll : ∀ y ∈ done ++ [x], l.Settled s m between y := by
      intro y hy
      rcases List.mem_append.1 hy with hy | hy
      · exact (hdone y hy).keeps hdiffer (hsegments ▸ hfresh y hy)
      · exact List.mem_singleton.1 hy ▸ hsettled
    obtain ⟨hbare', hall⟩ := ih hrest hlater hw₁ hbetween hsettledAll h
    rw [List.append_assoc, List.singleton_append] at hall
    exact ⟨hbare'.trans hbare, hall⟩

/-- The relations that a plan for selections loads are, for every entity that a path leads through,
what the entity's own query gives; the entities themselves stay as they were. -/
theorem loadPaths_transparent {g : TypeGraph} {root : TypeNode} {selections : List Selection}
    {plan : LoadPlan} (hgraph : g.BuiltFrom l.catalog) (hdots : l.catalog.Dotless)
    (hroot : g.object m = .ok root)
    (hones : Selection.PlainOnes g root (selections.flatMap (·.children)))
    (hplan : LoadPlan.ofSelections l.catalog g root selections = .ok plan)
    (hs : w.store.Full) (hkeyed : ∀ r args, plan.Loads l.catalog m r args → w.store.Keyed r)
    (hapart : ∀ r args, plan.Loads l.catalog m r args → r.PairsApart)
    (horders : ∀ r args, plan.Loads l.catalog m r args → w.store.Orders l r args)
    (howners : ∀ o ∈ owners, o.model = m ∧ o.Stored w.store l.catalog)
    (h : l.loadPaths m owners plan w = ((owners', .ok ()), w')) :
    owners'.map Entity.bare = owners.map Entity.bare ∧
      ∀ x ∈ plan, ∀ above last, segments x.1 = above ++ [last] →
        ∀ o ∈ reach above owners', l.Transparent w.store o last x.2 := by
  have hsound := LoadPlan.sound_of_ofSelections hroot ⟨hgraph.faithful, hdots⟩ hones hplan
  have hperm : plan.byDepth.Perm plan := plan.perm_byDepth
  obtain ⟨hbare, hall⟩ := settled_of_loadEach hsound
    (fun r args hr => ⟨hkeyed r args hr, hapart r args hr, horders r args hr⟩) hs hperm.subset
    hsound.ordered_byDepth rfl howners (by simp) h
  refine ⟨hbare, fun x hx above last hsegments o ho => ?_⟩
  obtain ⟨above', last', model, r, hsegments', -, -, hfits⟩ := hall x (hperm.symm.subset hx)
  obtain ⟨rfl, rfl⟩ := List.append_inj' (hsegments.symm.trans hsegments') rfl |>.imp_right
    List.singleton_inj.1
  exact (hfits o ho).2

section Shelf

open Sample

variable {c : Catalog}

/-- The types of authors and what they lead to. -/
def shelfTypes (c : Catalog) : TypeGraph :=
  ((Building.node c ⟨Shelf.author, .object⟩).run .empty).2

/-- The authors of the shelf. -/
def shelfAuthors : List Entity :=
  Entity.ofRecords Shelf.author (Shelf.authors.rows.map Shelf.authors.record)

/-- A selection of authors with their books. -/
def shelfSelection : Selection :=
  .mk "authors" "authors" [] [.mk "books" "books" [] []]

/-- The plan for authors with their books. -/
def shelfPlan : LoadPlan := [("books", ListArgs.none)]

/-- Whether authors are planned to be loaded with all their books. -/
def plansShelf (c : Catalog) : Bool :=
  match (shelfTypes c).object Shelf.author with
  | .ok root => match LoadPlan.ofSelections c (shelfTypes c) root [shelfSelection] with
    | .ok [(path, args)] => path == "books" && args.same ListArgs.none
    | _ => false
  | .error _ => false

theorem exists_plan_shelf (h : plansShelf c = true) :
    ∃ root, (shelfTypes c).object Shelf.author = .ok root ∧
      LoadPlan.ofSelections c (shelfTypes c) root [shelfSelection] = .ok shelfPlan := by
  unfold plansShelf at h
  split at h
  next root hroot =>
    split at h
    next path args hplan =>
      obtain ⟨hpath, hargs⟩ := Bool.and_eq_true_iff.1 h
      refine ⟨root, hroot, hplan.trans ?_⟩
      rw [beq_iff_eq.1 hpath, ListArgs.eq_none_of_same hargs, shelfPlan]
    · cases h
  · cases h

theorem plainOnes_shelf {root : TypeNode} {g : TypeGraph} :
    Selection.PlainOnes g root ([shelfSelection].flatMap (·.children)) := by
  refine Selection.plainOnes_of_family (List.Subset.refl _) ?_ ?_
  · rintro s (_ | ⟨_, ⟨⟩⟩)
    rfl
  · rintro s (_ | ⟨_, ⟨⟩⟩)
    simp [Selection.children]

theorem segments_books : segments "books" = ([] : List String) ++ ["books"] := by decide +kernel

/-- The plan for authors with their books loads one relation. -/
theorem loads_shelf {books r : Relation} {args : ListArgs}
    (hbooks : (c.relation Shelf.author "books").toOption = some books)
    (h : shelfPlan.Loads c Shelf.author r args) : args = ListArgs.none ∧ r = books := by
  obtain ⟨path, above, last, model, hx, hsegments, hmodel, hr⟩ := h
  obtain ⟨rfl, rfl⟩ := Prod.mk.inj (List.mem_singleton.1 hx)
  obtain ⟨rfl, hlast⟩ := List.append_inj' (segments_books.symm.trans hsegments) rfl
  cases hlast
  cases hmodel
  rw [hr] at hbooks
  exact ⟨rfl, Option.some.inj hbooks⟩

theorem stored_shelf {s : Store} (hc : c.table Shelf.author = .ok "authors")
    (hs : s.table "authors" = .ok Shelf.authors) :
    ∀ o ∈ shelfAuthors, o.model = Shelf.author ∧ o.Stored s c := by
  intro o ho
  obtain ⟨record, hrecord, rfl⟩ := List.mem_map.1 ho
  obtain ⟨row, hrow, rfl⟩ := List.mem_map.1 hrecord
  exact ⟨rfl, "authors", Shelf.authors, row, hc, hs, hrow, rfl⟩

/-- A plan of one path is loaded as it stands. -/
theorem loadPaths_shelf (hok : (l.loadEach m owners shelfPlan w).1.2.isOk = true) :
    ∃ loaded w', l.loadPaths m owners shelfPlan w = ((loaded, .ok ()), w') ∧
      (l.loadEach m owners shelfPlan w).1.1 = loaded := by
  have heq : l.loadPaths m owners shelfPlan w = l.loadEach m owners shelfPlan w :=
    congrFun (congrArg (l.loadEach m owners) (List.mergeSort_singleton _)) w
  rcases hrun : l.loadEach m owners shelfPlan w with ⟨⟨loaded, result⟩, w'⟩
  rw [hrun] at hok
  cases result with
  | error e => cases hok
  | ok u => exact ⟨loaded, w', heq.trans hrun, rfl⟩

theorem keyed_shelf :
    Shelf.store.Keyed ⟨"books", "authors", Shelf.book, "books", .hasMany "author_id"⟩ := by
  refine ⟨fun t ht => ?_, fun t ht => ?_, fun t ht => ?_⟩
  · obtain rfl : Shelf.authors = t := Except.ok.inj ht
    exact ⟨by decide, [1, 2], by decide, rfl⟩
  · obtain rfl : Shelf.books = t := Except.ok.inj ht
    exact ⟨by decide, [1, 2, 3], by decide, rfl⟩
  · obtain rfl : Shelf.books = t := Except.ok.inj ht
    refine ⟨by decide, ?_⟩
    rintro row (_ | ⟨_, _ | ⟨_, _ | ⟨_, ⟨⟩⟩⟩⟩)
    · exact ⟨some 1, rfl⟩
    · exact ⟨some 2, rfl⟩
    · exact ⟨none, rfl⟩

/-- The batch loader of the shelf. -/
def shelf : Loader := ⟨Shelf.catalog, 3⟩

/-- The authors of the shelf have the books that their own queries give. -/
theorem loadPaths_shelf_transparent :
    ∃ owners w, shelf.loadPaths Shelf.author shelfAuthors shelfPlan ⟨Shelf.store, []⟩
        = ((owners, .ok ()), w) ∧ owners.map Entity.bare = shelfAuthors ∧
      ∀ o ∈ owners, shelf.Transparent Shelf.store o "books" ListArgs.none := by
  have hdots : Shelf.catalog.Dotless := Catalog.dotless_of_all (by decide +kernel)
  have hbooks : (Shelf.catalog.relation Shelf.author "books").toOption
      = some ⟨"books", "authors", Shelf.book, "books", .hasMany "author_id"⟩ := by decide +kernel
  have hok : (shelf.loadEach Shelf.author shelfAuthors shelfPlan ⟨Shelf.store, []⟩).1.2.isOk
      = true := by decide +kernel
  have hbuilt : (shelfTypes Shelf.catalog).BuiltFrom shelf.catalog :=
    .node ⟨Shelf.author, .object⟩ .empty
  have htable : Shelf.catalog.table Shelf.author = .ok "authors" := rfl
  have hstored : ∀ o ∈ shelfAuthors, o.model = Shelf.author ∧ o.Stored Shelf.store shelf.catalog :=
    stored_shelf htable rfl
  have hfull : Shelf.store.Full := by decide
  have hfit : ∀ r args, shelfPlan.Loads shelf.catalog Shelf.author r args →
      Shelf.store.Keyed r ∧ r.PairsApart ∧ Shelf.store.Orders shelf r args := by
    intro r args h
    obtain ⟨rfl, rfl⟩ := loads_shelf hbooks h
    exact ⟨keyed_shelf, by simp [Relation.PairsApart, Relation.linkJoins], Store.orders_none⟩
  obtain ⟨root, hroot, hplan⟩ := exists_plan_shelf (show plansShelf Shelf.catalog = true by
    decide +kernel)
  obtain ⟨owners, w, hrun, -⟩ := loadPaths_shelf hok
  obtain ⟨hbare, hall⟩ := loadPaths_transparent hbuilt hdots hroot plainOnes_shelf hplan hfull
    (fun r args h => (hfit r args h).1) (fun r args h => (hfit r args h).2.1)
    (fun r args h => (hfit r args h).2.2) hstored hrun
  have hslots := hall ("books", ListArgs.none) (List.mem_singleton.2 rfl) [] "books" segments_books
  exact ⟨owners, w, hrun, hbare, hslots⟩

/-- The batch loader of the shelf whose books are the pairs as well. -/
def pairedShelf : Loader := ⟨Shelf.pairedCatalog, 3⟩

theorem keyed_pairedShelf : Shelf.pairedStore.Keyed
    ⟨"books", "authors", Shelf.book, "books", .belongsToMany "books" "author_id" "id"⟩ := by
  refine ⟨fun t ht => ?_, fun t ht => ?_, fun t ht => ?_⟩
  · obtain rfl : Shelf.authors = t := Except.ok.inj ht
    exact ⟨by decide, [1, 2], by decide, rfl⟩
  · obtain rfl : Shelf.pairedBooks = t := Except.ok.inj ht
    exact ⟨by decide, [1, 2], by decide, rfl⟩
  · obtain rfl : Shelf.pairedBooks = t := Except.ok.inj ht
    exact ⟨by decide, by decide, [(1, 1), (2, 2)], by decide, rfl⟩

/-- The keys of loaded targets. -/
def ids (x : Loaded) : List (Option Int64) :=
  x.toList.map (·.id?)

theorem ids_bare (x : Loaded) : ids x.bare = ids x := by
  rw [ids, Loaded.toList_bare, List.map_map]
  rfl

/-- Loading ahead of time is not transparent where the rows of the targets are the pairs as well: a
query that joins a table with itself repeats its rows. -/
theorem loadPaths_pairedShelf_not_transparent :
    ¬ ∀ (l : Loader) (g : TypeGraph) (m : ModelId) (root : TypeNode) (selections : List Selection)
      (plan : LoadPlan) (owners owners' : List Entity) (w w' : World), g.BuiltFrom l.catalog →
      l.catalog.Dotless → g.object m = .ok root →
      Selection.PlainOnes g root (selections.flatMap (·.children)) →
      LoadPlan.ofSelections l.catalog g root selections = .ok plan → w.store.Full →
      (∀ r args, plan.Loads l.catalog m r args → w.store.Keyed r) →
      (∀ r args, plan.Loads l.catalog m r args → w.store.Orders l r args) →
      (∀ o ∈ owners, o.model = m ∧ o.Stored w.store l.catalog) →
      l.loadPaths m owners plan w = ((owners', .ok ()), w') →
      owners'.map Entity.bare = owners.map Entity.bare ∧
        ∀ x ∈ plan, ∀ above last, segments x.1 = above ++ [last] →
          ∀ o ∈ reach above owners', l.Transparent w.store o last x.2 := by
  intro h
  have hdots : Shelf.pairedCatalog.Dotless := Catalog.dotless_of_all (by decide +kernel)
  have hbooks : (Shelf.pairedCatalog.relation Shelf.author "books").toOption = some
      ⟨"books", "authors", Shelf.book, "books", .belongsToMany "books" "author_id" "id"⟩ := by
    decide +kernel
  have hok : (pairedShelf.loadEach Shelf.author shelfAuthors shelfPlan
      ⟨Shelf.pairedStore, []⟩).1.2.isOk = true := by decide +kernel
  have hbuilt : (shelfTypes Shelf.pairedCatalog).BuiltFrom pairedShelf.catalog :=
    .node ⟨Shelf.author, .object⟩ .empty
  have htable : Shelf.pairedCatalog.table Shelf.author = .ok "authors" := rfl
  have hstored : ∀ o ∈ shelfAuthors, o.model = Shelf.author ∧
      o.Stored Shelf.pairedStore pairedShelf.catalog := stored_shelf htable rfl
  have hfull : Shelf.pairedStore.Full := by decide
  have hfit : ∀ r args, shelfPlan.Loads pairedShelf.catalog Shelf.author r args →
      Shelf.pairedStore.Keyed r ∧ Shelf.pairedStore.Orders pairedShelf r args := by
    intro r args h
    obtain ⟨rfl, rfl⟩ := loads_shelf hbooks h
    exact ⟨keyed_pairedShelf, Store.orders_none⟩
  obtain ⟨root, hroot, hplan⟩ := exists_plan_shelf (show plansShelf Shelf.pairedCatalog = true by
    decide +kernel)
  obtain ⟨owners, w, hrun, howners⟩ := loadPaths_shelf hok
  obtain ⟨hbare, hall⟩ := h pairedShelf _ _ root [shelfSelection] _ _ owners _ w hbuilt hdots hroot
    plainOnes_shelf hplan hfull (fun r args h => (hfit r args h).1)
    (fun r args h => (hfit r args h).2) hstored hrun
  have hslots := hall ("books", ListArgs.none) (List.mem_singleton.2 rfl) [] "books" segments_books
  -- the first author gets one book in the batch, and two from a query of its own
  have hids : (pairedShelf.loadEach Shelf.author shelfAuthors shelfPlan
      ⟨Shelf.pairedStore, []⟩).1.1.map (fun o => (o.relation "books").map ids)
        = [some [some 1], some [some 2]] := by decide +kernel
  have halone : ((pairedShelf.alone (Entity.of Shelf.author
      (Shelf.authors.record [.int 1, .text "Annie"])) "books" ListArgs.none).runIn
        ⟨Shelf.pairedStore, []⟩).1.toOption.map ids = some [some 1, some 2] := by decide +kernel
  rw [howners] at hids
  obtain ⟨annie, rest, rfl, hannie, -⟩ := List.map_eq_cons_iff.1 hids
  have hrow : annie.bare = Entity.of Shelf.author (Shelf.authors.record [.int 1, .text "Annie"]) :=
    List.head_eq_of_cons_eq hbare
  rcases hown : (pairedShelf.alone (Entity.of Shelf.author
    (Shelf.authors.record [.int 1, .text "Annie"])) "books" ListArgs.none).runIn
      ⟨Shelf.pairedStore, []⟩ with ⟨result, w₁⟩
  rw [hown] at halone
  cases result with
  | error e => cases halone
  | ok own =>
    rw [← hrow] at hown
    have hslot := hslots annie List.mem_cons_self _ w₁ own rfl hown
    have hloaded : ((annie.relation "books").map Loaded.bare).map ids = some [some 1] := by
      rw [Option.map_map, ← hannie]
      exact congrArg (Option.map · (annie.relation "books")) (funext ids_bare)
    have hown' : ids own = [some 1, some 2] := Option.some.inj halone
    rw [hslot, Option.map_some, hown'] at hloaded
    cases hloaded

end Shelf

end Loader

end EntityGraph
