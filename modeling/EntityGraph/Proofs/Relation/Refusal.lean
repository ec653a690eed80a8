import EntityGraph.Proofs.Relation.Inverse

/-!
# Refused arguments of a relation

The filter and the order of a list are compiled when the targets of a relation are selected. A batch
without keys selects nothing, and then nobody looks at the arguments.

* `ListArgs.Refused` says that a compiler refuses a filter or an order, and
  `ListArgs.refine_eq_error` that this does not depend on the query;
* `Loader.Seeks` says that a batch comes to select targets;
* `Loader.load_refused` is the result: arguments that are refused make a batch fail exactly if it
  comes so far, and arguments that are accepted leave nothing but the database to fail.
-/

namespace EntityGraph

/-- What an order is refused for does not depend on the query. -/
theorem OrderExpr.applyAt_eq_error {c : Catalog} {maxDepth depth : Nat} {model : ModelId}
    {T : String} {order : OrderExpr} {q : Query} {e : Error}
    (h : order.applyAt c maxDepth q model T depth = .error e) (q' : Query) :
    order.applyAt c maxDepth q' model T depth = .error e := by
  induction order generalizing q q' model T depth with
  | field property direction => cases h
  | relation property target order ih =>
    rw [applyAt] at h ⊢
    split_ifs at h ⊢ with hdepth
    · exact h
    · rcases bind_eq_error.1 h with hr | ⟨r, hr, h⟩
      · exact bind_eq_error.2 (.inl hr)
      · refine bind_eq_error.2 (.inr ⟨r, hr, ?_⟩)
        cases hjoin : joinAlong T r with
        | none => simpa [hjoin] using h
        | some join =>
          simp only [hjoin] at h ⊢
          exact ih h _

theorem Query.sort_eq_error {c : Catalog} {maxDepth : Nat} {model : ModelId} {order : OrderExpr}
    {q : Query} {e : Error} (h : q.sort c maxDepth model order = .error e) (q' : Query) :
    q'.sort c maxDepth model order = .error e := by
  rcases bind_eq_error.1 h with hT | ⟨T, hT, h⟩
  · exact bind_eq_error.2 (.inl hT)
  · exact bind_eq_error.2 (.inr ⟨T, hT, OrderExpr.applyAt_eq_error h q'⟩)

namespace ListArgs

theorem paginate_nil {α : Type} (args : ListArgs) : args.paginate ([] : List α) = [] := by
  unfold paginate
  cases positive args.limit <;> simp

/-- A compiler refuses the filter of a list, or accepts it and another refuses the order. -/
inductive Refused (args : ListArgs) (c : Catalog) (maxDepth : Nat) (target : ModelId)
    (e : Error) : Prop where
  | filter (f : FilterExpr) (hf : args.filter = some f)
    (hrefused : f.compile c maxDepth target = .error e)
  | order (o : OrderExpr) (ho : args.order = some o)
    (haccepted : ∀ f, args.filter = some f → ∃ clause, f.compile c maxDepth target = .ok clause)
    (hrefused : ∃ q : Query, q.sort c maxDepth target o = .error e)

variable {args : ListArgs} {c : Catalog} {maxDepth : Nat} {target : ModelId} {e : Error}

/-- Arguments that are refused are so with every query. -/
theorem refine_eq_error (q : Query) :
    args.refine c maxDepth target q = .error e ↔ args.Refused c maxDepth target e := by
  rw [refine_eq_bind]
  constructor
  · intro h
    rcases bind_eq_error.1 h with hfilter | ⟨q₁, hfilter, horder⟩
    · cases hf : args.filter with
      | none => simp [hf, pure, Except.pure] at hfilter
      | some f =>
        simp only [hf] at hfilter
        rcases bind_eq_error.1 hfilter with hrefused | ⟨clause, -, hpure⟩
        · exact .filter f hf hrefused
        · cases hpure
    · cases ho : args.order with
      | none => simp [ho, pure, Except.pure] at horder
      | some o =>
        simp only [ho] at horder
        refine .order o ho (fun f hf => ?_) ⟨q₁, horder⟩
        simp only [hf] at hfilter
        obtain ⟨clause, hclause, -⟩ := bind_eq_ok.1 hfilter
        exact ⟨clause, hclause⟩
  · rintro (⟨f, hf, hrefused⟩ | ⟨o, ho, haccepted, q₀, hrefused⟩)
    · refine bind_eq_error.2 (.inl ?_)
      simp only [hf]
      exact bind_eq_error.2 (.inl hrefused)
    · cases hf : args.filter with
      | none =>
        refine bind_eq_error.2 (.inr ⟨q, rfl, ?_⟩)
        simp only [ho]
        exact Query.sort_eq_error hrefused q
      | some f =>
        obtain ⟨clause, hclause⟩ := haccepted f hf
        refine bind_eq_error.2 (.inr ⟨_, bind_eq_ok.2 ⟨clause, hclause, rfl⟩, ?_⟩)
        simp only [ho]
        exact Query.sort_eq_error hrefused _

end ListArgs

namespace Datum

theorem mem_of_mem_distinctKeys {data : List Datum} {d : Datum} (h : d ∈ distinctKeys data) :
    d ∈ data := by
  suffices hfold : ∀ kept : List Datum, d ∈ data.foldl
      (fun kept d => if d.isNull || kept.any (·.same d) then kept else kept ++ [d]) kept →
      d ∈ kept ∨ d ∈ data from (hfold [] h).resolve_left List.not_mem_nil
  clear h
  induction data with
  | nil => exact fun kept h => .inl h
  | cons x data ih =>
    intro kept h
    rcases ih _ h with hkept | hdata
    · dsimp only at hkept
      split_ifs at hkept
      · exact .inl hkept
      · rcases List.mem_append.1 hkept with hold | hnew
        · exact .inl hold
        · exact .inr (List.mem_singleton.1 hnew ▸ List.mem_cons_self)
    · exact .inr (List.mem_cons_of_mem x hdata)

end Datum

namespace Loader

variable {l : Loader} {r : Relation} {args : ListArgs} {w : World} {owners : List Entity}
  {model : ModelId} {property key pivot ownerKey relatedKey : String} {keys : List Datum}
  {e : Error}

/-- A batch comes to select targets: where a table of pairs lies between, one of its rows pairs an
owner with a key of a target. -/
def Seeks (s : Store) (r : Relation) (owners : List Entity) : Prop :=
  match r.link with
  | .belongsToMany pivot ownerKey relatedKey => ∃ p, s.table pivot = .ok p ∧ ∃ row ∈ p.rows,
      (∃ owner ∈ owners, (p.datum ownerKey row).equals (owner.get idName) = true) ∧
        (pair ownerKey relatedKey (p.record row)).isSome
  | _ => True

/-- Refused arguments are found out when targets are selected. -/
theorem targets_refused (h : args.Refused l.catalog l.maxDepth r.target e) (hkeys : keys ≠ []) :
    (l.targets r args key keys).runIn w = (.error e, w) := by
  unfold targets
  rw [if_neg (by simpa using hkeys)]
  dsimp only
  rw [(ListArgs.refine_eq_error _).2 h]
  rfl

/-- Without keys nothing is selected. -/
theorem targets_nil : (l.targets r args key []).runIn w = (.ok [], w) := rfl

theorem targets_failsBySql (h : ∀ e, ¬ args.Refused l.catalog l.maxDepth r.target e) :
    (l.targets r args key keys).FailsBySql := by
  unfold targets
  split_ifs
  · exact .pure []
  · dsimp only
    cases hrefine : args.refine l.catalog l.maxDepth r.target
      ((Query.all r.targetTable).filter (.oneOf (Column.of r.targetTable key) keys)) with
    | error e => exact absurd ((ListArgs.refine_eq_error _).1 hrefine) (h e)
    | ok q => exact .bind (.pure q) fun q => .bind (.query q) fun _ => .pure _

theorem links_failsBySql : (links pivot ownerKey relatedKey keys).FailsBySql := by
  unfold links
  split_ifs
  · exact .pure []
  · exact .bind (.query _) fun _ => .pure _

/-- Accepted arguments leave nothing but the database to fail. -/
theorem shares_failsBySql (h : ∀ e, ¬ args.Refused l.catalog l.maxDepth r.target e) :
    (l.shares r args owners).FailsBySql := by
  unfold shares
  cases r.link with
  | belongsTo key => exact .bind (targets_failsBySql h) fun _ => .pure _
  | hasOne key => exact .bind (targets_failsBySql h) fun _ => .pure _
  | hasMany key => exact .bind (targets_failsBySql h) fun _ => .pure _
  | belongsToMany pivot ownerKey relatedKey =>
    exact .bind links_failsBySql fun _ => .bind (targets_failsBySql h) fun _ => .pure _

section Owners

variable (hids : ∀ owner ∈ owners, ∃ i, owner.get idName = .int i)

include hids

theorem distinctKeys_ne_nil (howners : owners ≠ []) :
    Datum.distinctKeys (owners.map (·.get idName)) ≠ [] := by
  obtain ⟨owner, howner⟩ := List.exists_mem_of_ne_nil _ howners
  obtain ⟨i, hi⟩ := hids owner howner
  exact List.ne_nil_of_mem (mem_distinctKeys_of_owner howner hi)

/-- A row holds one of the ids of some owners if it holds the id of one of them. -/
theorem keyTest_owners (p : Table) (row : Row) :
    keyTest p (Column.of p.name ownerKey) (Datum.distinctKeys (owners.map (·.get idName))) row
      = true ↔ ∃ owner ∈ owners, (p.datum ownerKey row).equals (owner.get idName) = true := by
  rw [keyTest, Table.datum_of, List.any_eq_true]
  constructor
  · rintro ⟨d, hd, hequals⟩
    obtain ⟨owner, howner, rfl⟩ := List.mem_map.1 (Datum.mem_of_mem_distinctKeys hd)
    exact ⟨owner, howner, hequals⟩
  · rintro ⟨owner, howner, hequals⟩
    obtain ⟨i, hi⟩ := hids owner howner
    exact ⟨.int i, mem_distinctKeys_of_owner howner hi, hi ▸ hequals⟩

/-- The keys of targets that a table of pairs gives for some owners. There are none if no row pairs
one of the owners. -/
theorem exists_links (hs : w.store.Full) (hpivot : w.store.HasColumn pivot ownerKey)
    (howners : owners ≠ []) (hlink : r.link = .belongsToMany pivot ownerKey relatedKey) :
    ∃ pairs w', (links pivot ownerKey relatedKey
        (Datum.distinctKeys (owners.map (·.get idName)))).runIn w = (.ok pairs, w') ∧
      (pairs ≠ [] ↔ Seeks w.store r owners) := by
  obtain ⟨p, hp, hhas⟩ := hpivot
  obtain ⟨place, hplace⟩ := Table.exists_place?_of_has hhas
  obtain ⟨rfl⟩ : p.name = pivot := (Store.mem_of_table hp).2
  have hkeys := distinctKeys_ne_nil hids howners
  obtain ⟨records, hselect⟩ : ∃ records, w.store.select (Query.toSelect ⟨p.name, [],
      [.oneOf (Column.of p.name ownerKey) (Datum.distinctKeys (owners.map (·.get idName)))],
      [], none, none⟩) = .ok records := by
    refine ⟨_, Store.select_rows_eq_ok.2 ⟨p, hp, fun row hrow => ?_, rfl⟩⟩
    rw [Store.testAll_singleton, Store.test, Table.get_of (hs.table hp row hrow), hplace]
    exact ⟨_, rfl⟩
  obtain ⟨pairs, w', hrun⟩ : ∃ pairs w', (links p.name ownerKey relatedKey
      (Datum.distinctKeys (owners.map (·.get idName)))).runIn w = (.ok pairs, w') := by
    unfold links
    rw [if_neg (by simpa using hkeys)]
    exact ⟨_, _, Action.runIn_query_bind_eq_ok.2 ⟨records, hselect, rfl⟩⟩
  refine ⟨pairs, w', hrun, ?_⟩
  obtain ⟨q, hq, hmem⟩ := links_eq_ok hkeys hrun
  obtain rfl : p = q := Except.ok.inj (hp.symm.trans hq)
  simp only [Seeks, hlink]
  constructor
  · intro hpairs
    obtain ⟨⟨x, y⟩, hxy⟩ := List.exists_mem_of_ne_nil _ hpairs
    obtain ⟨row, hrow, hkey, hpair⟩ := (hmem x y).1 hxy
    exact ⟨p, hp, row, hrow, (keyTest_owners hids p row).1 hkey, Option.isSome_of_eq_some hpair⟩
  · rintro ⟨q, hq, row, hrow, howner, hpair⟩
    obtain rfl : p = q := Except.ok.inj (hp.symm.trans hq)
    obtain ⟨⟨x, y⟩, hxy⟩ := Option.isSome_iff_exists.1 hpair
    exact List.ne_nil_of_mem ((hmem x y).2 ⟨row, hrow, (keyTest_owners hids p row).2 howner, hxy⟩)

/-- Refused arguments make a batch fail if it comes to select targets, and are not noticed
otherwise. -/
theorem shares_refused (hs : w.store.Full) (hmany : r.link.isToOne = false)
    (hpivot : ∀ pivot ownerKey relatedKey, r.link = .belongsToMany pivot ownerKey relatedKey →
      w.store.HasColumn pivot ownerKey) (howners : owners ≠ [])
    (h : args.Refused l.catalog l.maxDepth r.target e) :
    (Seeks w.store r owners → ∃ w', (l.shares r args owners).runIn w = (.error e, w')) ∧
    (¬ Seeks w.store r owners → ∃ share w', (l.shares r args owners).runIn w = (.ok share, w') ∧
      ∀ owner, share owner = .many []) := by
  unfold shares
  cases hlink : r.link with
  | belongsTo key => simp [hlink, Link.isToOne] at hmany
  | hasOne key => simp [hlink, Link.isToOne] at hmany
  | hasMany key =>
    have hkeys := distinctKeys_ne_nil hids howners
    refine ⟨fun _ => ⟨w, Action.runIn_bind_error (targets_refused h hkeys)⟩, fun hseeks => ?_⟩
    simp [Seeks, hlink] at hseeks
  | belongsToMany pivot ownerKey relatedKey =>
    obtain ⟨pairs, w', hlinks, hseeks⟩ := exists_links hids hs (hpivot _ _ _ hlink) howners hlink
    rw [← hseeks]
    refine ⟨fun hpairs => ⟨w', ?_⟩, fun hpairs => ?_⟩
    · obtain ⟨⟨x, y⟩, hxy⟩ := List.exists_mem_of_ne_nil _ hpairs
      have hkeys : Datum.distinctKeys (pairs.map fun p => .int p.2) ≠ [] :=
        List.ne_nil_of_mem (Datum.int_mem_distinctKeys (List.mem_map.2 ⟨(x, y), hxy, rfl⟩))
      exact (Action.runIn_bind_ok hlinks).trans
        (Action.runIn_bind_error (targets_refused h hkeys))
    · obtain rfl := not_not.1 hpairs
      refine ⟨_, w', (Action.runIn_bind_ok hlinks).trans (Action.runIn_bind_ok targets_nil),
        fun owner => ?_⟩
      exact congrArg Loaded.many (ListArgs.paginate_nil args)

end Owners

/-- Arguments of a relation to many that a compiler refuses make the batch of some owners fail with
what they are refused for, if the batch comes to select targets; otherwise they go unnoticed, and
every owner has no targets. If both compilers accept the arguments, only the database fails. -/
theorem load_refused (hr : l.catalog.relation model property = .ok r)
    (hmany : r.link.isToOne = false) (hs : w.store.Full)
    (hpivot : ∀ pivot ownerKey relatedKey, r.link = .belongsToMany pivot ownerKey relatedKey →
      w.store.HasColumn pivot ownerKey)
    (howners : owners ≠ []) (hids : ∀ owner ∈ owners, ∃ i, owner.get idName = .int i) :
    (∀ e, args.Refused l.catalog l.maxDepth r.target e →
      (Seeks w.store r owners →
        ∃ w', (l.load model owners property args).runIn w = (.error e, w')) ∧
      (¬ Seeks w.store r owners → ∃ w', (l.load model owners property args).runIn w
        = (.ok (owners.map fun owner => owner.setRestricted property (.many []) args), w'))) ∧
    ((∀ e, ¬ args.Refused l.catalog l.maxDepth r.target e) →
      (l.load model owners property args).FailsBySql) := by
  have hload : l.load model owners property args = do
      let share ← l.shares r args owners
      return owners.map fun owner => owner.setRestricted property (share owner) args := by
    unfold load
    rw [hr]
    rfl
  rw [hload]
  refine ⟨fun e h => ?_, fun h => .bind (shares_failsBySql h) fun _ => .pure _⟩
  obtain ⟨hseeks, hnot⟩ := shares_refused hids hs hmany hpivot howners h
  refine ⟨fun hs => ?_, fun hs => ?_⟩
  · obtain ⟨w', hshares⟩ := hseeks hs
    exact ⟨w', Action.runIn_bind_error hshares⟩
  · obtain ⟨share, w', hshares, hempty⟩ := hnot hs
    refine ⟨w', (Action.runIn_bind_ok hshares).trans ?_⟩
    simp only [hempty]
    rfl

section Clubs

open Persist (memberDefinition clubs clubMembers clubStore)
open Catalog (mutualCatalog clubWithMembers membersOfClub)

/-- The loader of members and clubs. -/
def clubLoader : Loader := ⟨mutualCatalog, 3⟩

/-- The members whose name equals a number. -/
def namedFive : ListArgs :=
  ⟨some (.mk [.predicate "name" .eq (.int 5)] [] [] none), none, none, none⟩

/-- A club with members. -/
def chess : Entity := Entity.of clubWithMembers.id (clubs.record [.int 1, .text "Chess"])

/-- A club without members. -/
def film : Entity := Entity.of clubWithMembers.id (clubs.record [.int 3, .text "Film"])

/-- Whether an error tells of a value of the wrong kind. -/
def isWrongKind : Error → Bool
  | .badInput (.wrongKind _ _) => true
  | _ => false

theorem refused_namedFive : ∃ e, isWrongKind e = true ∧
    namedFive.Refused clubLoader.catalog clubLoader.maxDepth membersOfClub.target e := by
  obtain ⟨e, he, hcompile⟩ : ∃ e, isWrongKind e = true ∧
      FilterExpr.compile clubLoader.catalog clubLoader.maxDepth membersOfClub.target
        (.mk [.predicate "name" .eq (.int 5)] [] [] none) = .error e :=
    exists_of_fails (by decide +kernel)
  exact ⟨e, he, .filter _ rfl hcompile⟩

theorem relation_members :
    clubLoader.catalog.relation clubWithMembers.id "members" = .ok membersOfClub :=
  Catalog.inverse_clubs.back

theorem hasColumn_clubMembers (pivot ownerKey relatedKey : String)
    (h : membersOfClub.link = .belongsToMany pivot ownerKey relatedKey) :
    clubStore.HasColumn pivot ownerKey := by
  cases h
  exact ⟨clubMembers, rfl, by decide⟩

/-- The members of a club that has some. -/
theorem load_refused_chess : ∃ e w', isWrongKind e = true ∧
    (clubLoader.load clubWithMembers.id [chess] "members" namedFive).runIn ⟨clubStore, []⟩
      = (.error e, w') := by
  obtain ⟨e, he, hrefused⟩ := refused_namedFive
  have hseeks : Seeks clubStore membersOfClub [chess] :=
    ⟨clubMembers, rfl, _, .head _, ⟨chess, .head _, rfl⟩, rfl⟩
  obtain ⟨w', hload⟩ := ((load_refused (w := ⟨clubStore, []⟩)
    relation_members rfl (by decide) hasColumn_clubMembers (List.cons_ne_nil chess [])
    (by simpa using ⟨1, rfl⟩)).1 e hrefused).1 hseeks
  exact ⟨e, w', he, hload⟩

/-- The arguments that are refused for a club with members go unnoticed for a club without. -/
theorem load_film_unnoticed :
    clubLoader.catalog.relation clubWithMembers.id "members" = .ok membersOfClub ∧
    membersOfClub.link.isToOne = false ∧ clubStore.HasColumn "club_member" "club_id" ∧
    film.get idName = .int 3 ∧ ∃ e, isWrongKind e = true ∧
      namedFive.Refused clubLoader.catalog clubLoader.maxDepth membersOfClub.target e ∧
      ∃ owners w', (clubLoader.load clubWithMembers.id [film] "members" namedFive).runIn
        ⟨clubStore, []⟩ = (.ok owners, w') := by
  obtain ⟨e, he, hrefused⟩ := refused_namedFive
  obtain ⟨owners, howners⟩ := exists_of_isOk (x := ((clubLoader.load clubWithMembers.id [film]
    "members" namedFive).runIn ⟨clubStore, []⟩).1) (by decide +kernel)
  exact ⟨relation_members, rfl, hasColumn_clubMembers _ _ _ rfl, rfl, e, he, hrefused, owners, _,
    Prod.ext howners rfl⟩

end Clubs

end Loader

end EntityGraph
