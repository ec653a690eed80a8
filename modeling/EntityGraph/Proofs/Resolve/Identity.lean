import EntityGraph.Proofs.Resolve.Effect
import EntityGraph.Proofs.Store.Serial

/-!
# Who numbers the rows

An input cannot set the property of the id. The column of the ids is another matter: a property may
be stored there under another name, and so may the keys of a relation. Where nothing that an input
may set is stored there, the database alone numbers the rows.

* `Catalog.columnsOf` are the columns that store a property, and `Catalog.Spares` says that no
  property which an input may set is stored in a certain one;
* `Changes.mem_columns_of_parse` says that an input writes nothing but what it names;
* `AcrossWrites.call` is the step: a root field keeps what holds across writing the columns of its
  input; `AcrossWrites.callAll` is the run;
* `World.Spares` are the worlds before and after statements that leave a column alone, and
  `Service.ids_counted` is the result.
-/

namespace EntityGraph

namespace Catalog

/-- The columns that store a property, each with its table. -/
def columnsOf (c : Catalog) (m : ModelId) (p : Property) : List (String × String) :=
  match p.type with
  | .scalar _ => match c.table m with
    | .ok T => [(T, columnName p.name)]
    | .error _ => []
  | .model _ => match c.relation m p.name with
    | .ok r => r.columns
    | .error _ => []
  | _ => []

/-- No property that an input may set is stored in a column of a table. -/
def Spares (c : Catalog) (T column : String) : Prop :=
  ∀ m name p, Changes.writable c m name = .ok p → (T, column) ∉ c.columnsOf m p

/-- Whether no property that is declared, but for the ids, is stored in a column of a table. -/
def spares (c : Catalog) (T column : String) : Bool :=
  c.definitions.all fun d => match c.describe d.id with
    | .ok properties => properties.all fun p =>
        p.name = idName || !(c.columnsOf d.id p).contains (T, column)
    | .error _ => true

variable {c : Catalog} {m : ModelId} {p : Property} {T column : String}

theorem spares_of_spares (h : c.spares T column = true) : c.Spares T column := by
  intro m name p hp
  obtain ⟨properties, hdescribe, hmem, hname⟩ := Changes.exists_describe hp
  obtain ⟨d, hd, rfl⟩ := exists_definition_of_describe hdescribe
  have hchecked := List.all_eq_true.1 h d hd
  rw [hdescribe] at hchecked
  simpa [hname] using List.all_eq_true.1 hchecked p hmem

/-- What a model stores in its own row is stored in its table. -/
theorem mem_columnsOf_of_storedIn (hT : c.table m = .ok T) (h : c.storedIn m p = some column) :
    (T, column) ∈ c.columnsOf m p := by
  unfold storedIn at h
  cases htype : p.type with
  | scalar kind =>
    simp only [htype, Option.some.injEq] at h
    simp [columnsOf, htype, hT, h]
  | model target =>
    cases hr : c.relation m p.name with
    | error e => simp [htype, hr] at h
    | ok r =>
      obtain rfl := Except.ok.inj ((relation_eq_ok hr).1.symm.trans hT)
      cases hlink : r.link with
      | belongsTo key =>
        simp only [htype, hr, hlink, Option.some.injEq] at h
        simp [columnsOf, htype, hr, Relation.columns, hlink, h]
      | _ => simp [htype, hr, hlink] at h
  | _ => simp [htype] at h

end Catalog

namespace Changes

variable {c : Catalog} {m : ModelId} {skipNulls : Bool} {input : Literal} {changes : Changes}
  {T column : String} {p : Property}

/-- Changes write only the columns of properties that the input may set. -/
theorem mem_columns_of_parse (hT : c.table m = .ok T)
    (h : parse c m skipNulls input = .ok changes) {place : String × String}
    (hplace : place ∈ changes.columns T) :
    ∃ name p, writable c m name = .ok p ∧ place ∈ c.columnsOf m p := by
  rcases List.mem_append.1 hplace with hrow | hlinks
  · obtain ⟨column, hcolumn, rfl⟩ := List.mem_map.1 hrow
    cases input with
    | object entries =>
      obtain ⟨entry, d, -, p, hp, hstored, -⟩ : ∃ entry d, Sets c m skipNulls entry column d := by
        by_contra hnone
        refine Dict.mem_keys.1 hcolumn ((get?_of_parse_eq_none h).2 fun entry _ d hsets => ?_)
        exact hnone ⟨entry, d, hsets⟩
      exact ⟨entry.1, p, hp, Catalog.mem_columnsOf_of_storedIn hT hstored⟩
    | _ => cases h
  · obtain ⟨link, hlink, hcolumn⟩ := List.mem_flatMap.1 hlinks
    obtain ⟨entry, -, p, target, hp, htype, hr, -⟩ := parse_links h link hlink
    refine ⟨entry.1, p, hp, ?_⟩
    simpa [Catalog.columnsOf, htype, hr] using hcolumn

/-- A property of the row is set to null by an input that names it alone. -/
theorem parse_null {name : String} (hp : writable c m name = .ok p)
    (hstored : c.storedIn m p = some column) : ∃ changes,
      parse c m false (.object [(name, .null)]) = .ok changes ∧
        changes.attributes.get? column = some .null := by
  have hput : none.put c m p .null = .ok ⟨Dict.empty.set column .null, []⟩ := by
    unfold Catalog.storedIn at hstored
    unfold put
    cases htype : p.type with
    | scalar kind =>
      obtain rfl : columnName p.name = column := by simpa [htype] using hstored
      rfl
    | model target =>
      cases hr : c.relation m p.name with
      | error e => simp [htype, hr] at hstored
      | ok r =>
        cases hlink : r.link with
        | belongsTo key =>
          obtain rfl : key = column := by simpa [htype, hr, hlink] using hstored
          simp only [keys, bind, Except.bind, hlink]
          rfl
        | _ => simp [htype, hr, hlink] at hstored
    | _ => simp [htype] at hstored
  have hstep : step c m false none (name, .null) = .ok ⟨Dict.empty.set column .null, []⟩ :=
    bind_eq_ok.2 ⟨p, hp, hput⟩
  refine ⟨⟨Dict.empty.set column .null, []⟩, bind_eq_ok.2 ⟨_, hstep, rfl⟩, ?_⟩
  simp

end Changes

namespace AcrossWrites

variable {R : World → World → Prop} {may : String × String → Prop} (hR : AcrossWrites R may)
  {sv : Service} {m : ModelId} {input : Literal}

include hR

theorem createEntity (caller : Caller) (selection : Selection) (hmay : ∀ changes T,
    Changes.parse sv.catalog m true input = .ok changes → sv.catalog.table m = .ok T →
      ∀ column ∈ changes.columns T, may column) :
    Keeps R (sv.create caller m input selection).run :=
  hR.bind (hR.require sv.guard caller _) fun _ => hR.ofExcept_bind fun changes hchanges =>
    hR.ofExcept_bind fun T hT => hR.bind (hR.store (hmay changes T hchanges hT) m) fun e =>
      hR.withRelations sv m e selection

theorem updateEntity (caller : Caller) (id : Int64) (hmay : ∀ changes T,
    Changes.parse sv.catalog m false input = .ok changes → sv.catalog.table m = .ok T →
      ∀ column ∈ changes.columns T, may column) :
    Keeps R (sv.update caller m id input).run := by
  refine hR.ofExcept_bind fun T hT => hR.bind (hR.find m T id) fun found => ?_
  cases found with
  | none => exact hR.pure _
  | some e =>
    exact hR.bind (hR.require sv.guard caller _) fun _ => hR.ofExcept_bind fun changes hchanges =>
      hR.changeRow (hmay changes T hchanges hT) m id e

theorem deleteEntity (caller : Caller) (id : Int64) : Keeps R (sv.delete caller m id).run := by
  refine hR.bind (hR.ofExcept _) fun T => hR.bind (hR.find m T id) fun found => ?_
  cases found with
  | none => exact hR.pure _
  | some e => exact hR.bind (hR.require sv.guard caller _) fun _ => hR.deleteRow T id e

section Calls

variable (hmay : ∀ m name p, Changes.writable sv.catalog m name = .ok p →
  ∀ column ∈ sv.catalog.columnsOf m p, may column)

include hmay

/-- A root field writes only the columns of properties that its input may set. -/
theorem call (c : RootCall) : Keeps R (sv.call c).run := by
  have hinput : ∀ m skipNulls input changes T,
      Changes.parse sv.catalog m skipNulls input = .ok changes → sv.catalog.table m = .ok T →
        ∀ column ∈ changes.columns T, may column := by
    intro m skipNulls input changes T hchanges hT column hcolumn
    obtain ⟨name, p, hp, hmem⟩ := Changes.mem_columns_of_parse hT hchanges hcolumn
    exact hmay m name p hp column hmem
  obtain ⟨caller, field, input, selection⟩ := c
  cases field with
  | all m options =>
    unfold Service.call Service.resolveRoot
    dsimp only
    split_ifs
    · exact hR.listPaged sv caller m selection
    · exact hR.list sv caller m selection
  | view m => exact hR.view sv caller m selection
  | create m =>
    exact hR.bind (hR.ofExcept _) fun l => hR.createEntity caller selection (hinput m true l)
  | update m =>
    exact hR.bind (hR.ofExcept _) fun id => hR.bind (hR.ofExcept _) fun l =>
      hR.bind (hR.updateEntity caller id (hinput m false l)) fun _ => hR.pure _
  | delete m =>
    exact hR.bind (hR.ofExcept _) fun id => hR.bind (hR.deleteEntity caller id) fun _ => hR.pure _

theorem callAll (calls : List RootCall) (w : World) : R w (sv.callAll calls w) := by
  induction calls generalizing w with
  | nil => exact hR.refl w
  | cons c rest ih => exact hR.trans _ _ _ (hR.call hmay c w) (ih _)

end Calls

end AcrossWrites

/-- The statement that an entry tells of. -/
def LogEntry.statement? : LogEntry → Option Statement
  | .statement st => some st
  | _ => none

namespace World

/-- Some statements were run between two worlds, as the log tells, and nothing else changed the
database. -/
def Ran (statements : List Statement) (w w' : World) : Prop :=
  w'.store = w.store.executeAll statements ∧
    ∃ entries, w'.log = w.log ++ entries ∧ entries.filterMap LogEntry.statement? = statements

/-- Every statement that was run between two worlds leaves the numbers in a column of a table to
the table. -/
def Spares (T column : String) (w w' : World) : Prop :=
  ∃ statements, Ran statements w w' ∧ ∀ st ∈ statements, st.Spares T column

theorem Ran.append {u v w : World} {xs ys : List Statement} (h : Ran xs u v) (h' : Ran ys v w) :
    Ran (xs ++ ys) u w := by
  obtain ⟨hstore, entries, hlog, rfl⟩ := h
  obtain ⟨hstore', entries', hlog', rfl⟩ := h'
  refine ⟨?_, entries ++ entries', by rw [hlog', hlog, List.append_assoc], List.filterMap_append⟩
  rw [hstore', hstore]
  exact List.foldl_append.symm

namespace Spares

variable {T column : String} {u v w : World}

theorem refl (w : World) : Spares T column w w :=
  ⟨[], ⟨rfl, [], (List.append_nil _).symm, rfl⟩, by simp⟩

theorem trans (h : Spares T column u v) (h' : Spares T column v w) : Spares T column u w := by
  obtain ⟨xs, hran, hspares⟩ := h
  obtain ⟨ys, hran', hspares'⟩ := h'
  exact ⟨xs ++ ys, hran.append hran', List.forall_mem_append.2 ⟨hspares, hspares'⟩⟩

theorem note {e : LogEntry} (he : e.statement? = none) (w : World) :
    Spares T column w (w.note e) :=
  ⟨[], ⟨rfl, [e], rfl, by simp [he]⟩, by simp⟩

theorem of_statement {st : Statement} (h : st.Spares T column) (w : World) :
    Spares T column w ⟨w.store.execute st, w.log ++ [.statement st]⟩ :=
  ⟨[st], ⟨rfl, [.statement st], rfl, rfl⟩, List.forall_mem_singleton.2 h⟩

end Spares

end World

namespace Action

variable {α : Type} (w : World)

theorem world_insert (i : Insertion) : ((insert i).run w).2
    = ⟨w.store.execute (.insert i), w.log ++ [.statement (.insert i)]⟩ := by
  show ((insert i).runIn w).2 = _
  rw [runIn_insert]
  rfl

theorem world_update (u : Update) : ((update u).run w).2
    = ⟨w.store.execute (.update u), w.log ++ [.statement (.update u)]⟩ := by
  show ((update u).runIn w).2 = _
  rw [runIn_update, Store.execute]
  cases w.store.update u <;> rfl

theorem world_delete (d : Deletion) : ((delete d).run w).2
    = ⟨w.store.execute (.delete d), w.log ++ [.statement (.delete d)]⟩ := by
  show ((delete d).runIn w).2 = _
  rw [runIn_delete, Store.execute]
  cases w.store.delete d <;> rfl

end Action

/-- What is written elsewhere leaves the numbers in a column to its table. -/
theorem AcrossWrites.spares (T column : String) :
    AcrossWrites (World.Spares T column) (· ≠ (T, column)) where
  refl := World.Spares.refl
  trans _ _ _ := World.Spares.trans
  select w q := by
    have hspares : (Statement.select q).Spares T column := trivial
    exact World.Spares.of_statement hspares w
  check w _ _ _ := World.Spares.note rfl w
  event w _ := World.Spares.note rfl w
  insert i h w := by
    have hspares : (Statement.insert i).Spares T column := fun hT hcolumn =>
      h column hcolumn (by rw [hT])
    rw [Action.world_insert]
    exact World.Spares.of_statement hspares w
  update u h w := by
    have hspares : (Statement.update u).Spares T column := fun hT a ha hcolumn =>
      h a ha (by rw [hT, hcolumn])
    rw [Action.world_update]
    exact World.Spares.of_statement hspares w
  delete d w := by
    have hspares : (Statement.delete d).Spares T column := trivial
    rw [Action.world_delete]
    exact World.Spares.of_statement hspares w

namespace Service

/-- An input reaches the ids of its own model exactly where some property that it may set is stored
there. Where no such property of any model is stored in the ids of a table, no root field that runs,
whatever it asks for and whether it succeeds or fails, gives or sets one of them: rows keep the ids
that they have, and new rows get the ones that the table counts. -/
theorem ids_counted (sv : Service) :
    (∀ m, (∀ skipNulls input changes, Changes.parse sv.catalog m skipNulls input = .ok changes →
        changes.attributes.get? idName = none) ↔
      ∀ name p, Changes.writable sv.catalog m name = .ok p →
        sv.catalog.storedIn m p ≠ some idName) ∧
    ∀ T, sv.catalog.Spares T idName → ∀ calls w, ∃ statements,
      World.Ran statements w (sv.callAll calls w) ∧ (∀ st ∈ statements, st.Spares T idName) ∧
      ∀ t i, w.store.table T = .ok t → t.NumbersAt i idName → ∃ t' added,
        (sv.callAll calls w).store.table T = .ok t' ∧ t'.NumbersAt i idName ∧
          t.Advances i t' added (statements.map (·.rowsInto T)).sum := by
  refine ⟨fun m => ⟨fun hnone name p hp hstored => ?_, fun hstored skipNulls input changes h => ?_⟩,
    fun T hspares calls w => ?_⟩
  · obtain ⟨changes, hparse, hnull⟩ := Changes.parse_null hp hstored
    rw [hnone false _ changes hparse] at hnull
    cases hnull
  · cases input with
    | object entries =>
      refine (Changes.get?_of_parse_eq_none h).2 fun entry _ d hsets => ?_
      obtain ⟨-, p, hp, hcolumn, -⟩ := hsets
      exact hstored entry.1 p hp hcolumn
    | _ => cases h
  · have hmay : ∀ m name p, Changes.writable sv.catalog m name = .ok p →
        ∀ column ∈ sv.catalog.columnsOf m p, column ≠ (T, idName) :=
      fun m name p hp column hcolumn heq => hspares m name p hp (heq ▸ hcolumn)
    -- a root field runs statements that spare the ids, and these let the numbers advance only
    obtain ⟨statements, hran, hstatements⟩ :=
      (AcrossWrites.spares T idName).callAll hmay calls w
    refine ⟨statements, hran, hstatements, fun t i ht h => ?_⟩
    obtain ⟨t', added, ht', hnumbers, hadvances, -⟩ :=
      Store.advances_executeAll ht h hstatements
    exact ⟨t', added, by rw [hran.1, ht'], hnumbers, hadvances⟩

section Shelf

open Sample.Shelf (author)

/-- A service that may change everything about the authors of a catalog. -/
def authorService (c : Catalog) : Service :=
  Sample.Shelf.service c author Policy.allowAll

/-- The creation of an author from an input. -/
def createAuthor (entries : List (String × Literal)) : RootCall :=
  ⟨none, .create author, "author",
    ⟨"createAuthor", "createAuthor", [("author", .object entries)], []⟩⟩

/-- The update of an author by an input. -/
def updateAuthor (id : Int) (entries : List (String × Literal)) : RootCall :=
  ⟨none, .update author, "author",
    ⟨"updateAuthor", "updateAuthor", [("id", .int id), ("author", .object entries)], []⟩⟩

/-- The keys of the authors in a database. -/
def authorKeys (s : Store) : Option (List Int64) :=
  (s.table "authors").toOption.map (·.keysAt 0)

/-- A third author is created with the books of the first, the first cannot be given an id, and a
fourth is created. -/
def arrivals : List RootCall :=
  [createAuthor [("name", .string "Britta"), ("books", .list [.int 1])],
    updateAuthor 1 [("name", .null), ("id", .int 7)], createAuthor [("name", .string "Troy")]]

theorem ids_counted_arrivals :
    authorKeys
        ((authorService Sample.Shelf.catalog).callAll arrivals ⟨Sample.Shelf.store, []⟩).store
      = some [1, 2, 3, 4] ∧
    ∃ statements, World.Ran statements ⟨Sample.Shelf.store, []⟩
        ((authorService Sample.Shelf.catalog).callAll arrivals ⟨Sample.Shelf.store, []⟩) ∧
      (∀ st ∈ statements, st.Spares "authors" idName) ∧ ∃ t' added,
        ((authorService Sample.Shelf.catalog).callAll arrivals
          ⟨Sample.Shelf.store, []⟩).store.table "authors" = .ok t' ∧ t'.NumbersAt 0 idName ∧
        Sample.Shelf.authors.Advances 0 t' added (statements.map (·.rowsInto "authors")).sum := by
  have hspares : Sample.Shelf.catalog.Spares "authors" idName :=
    Catalog.spares_of_spares (by decide +kernel)
  have hnumbers : Sample.Shelf.authors.NumbersAt 0 idName :=
    ⟨by decide, ⟨_, rfl, rfl, rfl⟩, by simp [Sample.Shelf.authors]⟩
  obtain ⟨statements, hran, hstatements, hadvance⟩ :=
    (ids_counted (authorService Sample.Shelf.catalog)).2 "authors" hspares arrivals
      ⟨Sample.Shelf.store, []⟩
  exact ⟨by decide +kernel, statements, hran, hstatements,
    hadvance Sample.Shelf.authors 0 rfl hnumbers⟩

/-- Authors with a property that is stored in the column of their ids, since its name differs from
that of the id in case only. -/
def aliasCatalog : Catalog :=
  ⟨[⟨"Author", "", some "authors",
    "@property int $id\n@property string $name\n@property int $ID", [], none⟩]⟩

/-- An author is given another id, and a new author gets one that the table did not count. -/
theorem ids_chosen_by_inputs :
    ((Changes.parse aliasCatalog author false
        (.object [("name", .string "Annie"), ("ID", .int 7)])).toOption.bind
      fun changes => changes.attributes.get? idName).bind Datum.int? = some 7 ∧
    authorKeys ((authorService aliasCatalog).callAll
      [updateAuthor 1 [("name", .string "Annie"), ("ID", .int 7)],
        createAuthor [("name", .string "Britta"), ("ID", .int 9)]]
      ⟨Sample.Shelf.store, []⟩).store = some [7, 2, 9] := by
  decide +kernel

end Shelf

end Service

end EntityGraph
