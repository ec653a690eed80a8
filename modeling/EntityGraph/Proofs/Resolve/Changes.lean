import EntityGraph.Proofs.Dict
import EntityGraph.Proofs.Outcome
import EntityGraph.Resolve.Changes

/-!
# What an input changes

Every entry of an input names a property: a scalar or a key that stands in a column of the entity's
own row, or a relation that is stored elsewhere.

* `Catalog.storedIn` is the column in which a property stands, and `Changes.Sets` what an entry
  writes there;
* `Changes.Links` is what an entry makes of a relation that is stored elsewhere, and
  `Changes.linkOf` finds it;
* `Changes.relations_of_step` and `Changes.get?_of_step` are what one entry does,
  `Changes.relations_of_foldlM` and `Changes.get?_of_foldlM` what all of them do;
* `Changes.parse_spec` is the result: the changes of an input are what its entries set and link.
-/

namespace EntityGraph

/-- The column of its own row in which a model stores a property: the column of a scalar, or of the
key of a target. -/
def Catalog.storedIn (c : Catalog) (m : ModelId) (p : Property) : Option String :=
  match p.type with
  | .scalar _ => some (columnName p.name)
  | .model _ => match c.relation m p.name with
    | .ok r => match r.link with
      | .belongsTo key => some key
      | _ => none
    | .error _ => none
  | _ => none

/-- The properties that an input may set stand in different columns, none of them in that of the
ids. -/
def Catalog.Separate (c : Catalog) (m : ModelId) : Prop :=
  ∀ p q column, Changes.writable c m p.name = .ok p → Changes.writable c m q.name = .ok q →
    c.storedIn m p = some column →
      column ≠ idName ∧ (c.storedIn m q = some column → p.name = q.name)

/-- The properties that an input may set stand in different columns. -/
def Catalog.Distinct (c : Catalog) (m : ModelId) : Prop :=
  ∀ p q column, Changes.writable c m p.name = .ok p → Changes.writable c m q.name = .ok q →
    c.storedIn m p = some column → c.storedIn m q = some column → p.name = q.name

theorem Catalog.Separate.distinct {c : Catalog} {m : ModelId} (h : c.Separate m) : c.Distinct m :=
  fun p q column hp hq hcolumn => (h p q column hp hq hcolumn).2

/-- Whether the properties that a model declares, but for its id, stand in different columns. -/
def Catalog.separates (c : Catalog) (m : ModelId) : Bool :=
  match c.describe m with
  | .ok properties =>
    let own := properties.filter (·.name ≠ idName)
    own.all fun p => own.all fun q => (c.storedIn m p).all fun column =>
      column ≠ idName && (c.storedIn m q != some column || p.name = q.name)
  | .error _ => false

/-- A described model has a definition. -/
theorem Catalog.exists_definition_of_describe {c : Catalog} {m : ModelId}
    {properties : List Property} (h : c.describe m = .ok properties) :
    ∃ d ∈ c.definitions, d.id = m := by
  simp only [describe, definition, bind_eq_ok] at h
  obtain ⟨d, hd, -⟩ := h
  have hfind := elim_error_eq_ok.1 hd
  exact ⟨d, List.mem_of_find?_eq_some hfind, by simpa using List.find?_some hfind⟩

/-- A property that an input may set is declared, and is not the id. -/
theorem Changes.exists_describe {c : Catalog} {m : ModelId} {name : String} {p : Property}
    (h : writable c m name = .ok p) :
    ∃ properties, c.describe m = .ok properties ∧ p ∈ properties ∧ p.name ≠ idName := by
  simp only [writable, Catalog.property, bind_eq_ok] at h
  obtain ⟨q, ⟨properties, hproperties, hq⟩, h⟩ := h
  split_ifs at h with hrefused
  obtain rfl := pure_eq_ok.1 h
  refine ⟨properties, hproperties, List.mem_of_find?_eq_some (elim_error_eq_ok.1 hq), ?_⟩
  rintro hname
  simp [hname] at hrefused

theorem Catalog.separate_of_separates {c : Catalog} {m : ModelId} (h : c.separates m = true) :
    c.Separate m := by
  unfold Catalog.separates at h
  cases hdescribe : c.describe m with
  | error e => simp [hdescribe] at h
  | ok properties =>
    have hdeclared : ∀ p, Changes.writable c m p.name = .ok p →
        p ∈ properties.filter (·.name ≠ idName) := by
      intro p hp
      obtain ⟨declared, hdeclared, hmem, hname⟩ := Changes.exists_describe hp
      obtain rfl := Except.ok.inj (hdescribe.symm.trans hdeclared)
      exact List.mem_filter.2 ⟨hmem, by simpa using hname⟩
    intro p q column hp hq hcolumn
    simp only [hdescribe, List.all_eq_true] at h
    have hpq := h p (hdeclared p hp) q (hdeclared q hq)
    rw [hcolumn, Option.all_some] at hpq
    simp only [Bool.and_eq_true, decide_eq_true_eq, Bool.or_eq_true, bne_iff_ne] at hpq
    exact ⟨hpq.1, fun hcolumn' => hpq.2.resolve_left fun hne => hne hcolumn'⟩

namespace Changes

variable {c : Catalog} {m : ModelId} {skipNulls : Bool} {entry : String × Literal}
  {changes changes' : Changes} {column : String} {d : Datum}

/-- The datum that a literal stands for: a scalar, or the key of the first target, null for none. -/
def datumOf (p : Property) (l : Literal) : Except Error Datum :=
  match p.type with
  | .scalar kind => Datum.ofLiteral kind l
  | _ => (keys p.name l).map fun targets => .ofInt? targets.head?

/-- An entry of an input counts, unless it is null and nulls are passed over. -/
def counts (skipNulls : Bool) (l : Literal) : Bool :=
  !(skipNulls && l.isNull)

/-- An entry of an input writes a datum into a column of the row of its entity. -/
def Sets (c : Catalog) (m : ModelId) (skipNulls : Bool) (entry : String × Literal) (column : String)
    (d : Datum) : Prop :=
  counts skipNulls entry.2 = true ∧ ∃ p, writable c m entry.1 = .ok p ∧
    c.storedIn m p = some column ∧ datumOf p entry.2 = .ok d

/-- An entry of an input names the targets of a relation that is not stored in the row. -/
def Links (c : Catalog) (m : ModelId) (skipNulls : Bool) (entry : String × Literal) (r : Relation)
    (targets : List Int64) : Prop :=
  counts skipNulls entry.2 = true ∧ ∃ p target, writable c m entry.1 = .ok p ∧
    p.type = .model target ∧ c.relation m p.name = .ok r ∧ keys p.name entry.2 = .ok targets ∧
    ∀ key, r.link ≠ .belongsTo key

/-- The targets that an entry of an input names in a relation that is not stored in the row. -/
def linkOf (c : Catalog) (m : ModelId) (skipNulls : Bool) (entry : String × Literal) :
    Option (Relation × List Int64) :=
  match writable c m entry.1 with
  | .error _ => Option.none
  | .ok p => match p.type, c.relation m p.name, keys p.name entry.2 with
    | .model _, .ok r, .ok targets => match r.link with
      | .belongsTo _ => Option.none
      | _ => if counts skipNulls entry.2 then some (r, targets) else Option.none
    | _, _, _ => Option.none

theorem linkOf_eq_some {r : Relation} {targets : List Int64} :
    linkOf c m skipNulls entry = some (r, targets) ↔ Links c m skipNulls entry r targets := by
  constructor
  · intro h
    unfold linkOf at h
    split at h
    · cases h
    next p hp =>
      split at h
      next target r' targets' htype hr htargets =>
        split at h
        · cases h
        next hlink =>
          split_ifs at h with hcounts
          obtain ⟨rfl, rfl⟩ := Prod.mk.inj (Option.some.inj h)
          exact ⟨hcounts, p, target, hp, htype, hr, htargets, hlink⟩
      · cases h
  · rintro ⟨hcounts, p, target, hp, htype, hr, htargets, hlink⟩
    simp only [linkOf, hp, htype, hr, htargets, hcounts, if_true]

theorem name_of_writable {name : String} {p : Property} (h : writable c m name = .ok p) :
    p.name = name := by
  simp only [writable, bind_eq_ok] at h
  obtain ⟨q, hq, h⟩ := h
  split_ifs at h
  obtain rfl := pure_eq_ok.1 h
  simp only [Catalog.property, Catalog.findProperty, bind_eq_ok] at hq
  obtain ⟨properties, -, hfind⟩ := hq
  have hname := List.find?_some (elim_error_eq_ok.1 hfind)
  exact beq_iff_eq.1 hname

/-- An entry sets at most one column. -/
theorem Sets.unique {column' : String} {d' : Datum} (h : Sets c m skipNulls entry column d)
    (h' : Sets c m skipNulls entry column' d') : column = column' ∧ d = d' := by
  obtain ⟨-, p, hp, hcolumn, hd⟩ := h
  obtain ⟨-, p', hp', hcolumn', hd'⟩ := h'
  obtain rfl : p = p' := Except.ok.inj (hp.symm.trans hp')
  exact ⟨Option.some.inj (hcolumn.symm.trans hcolumn'), Except.ok.inj (hd.symm.trans hd')⟩

/-- An entry that sets a column names no targets of a relation that is stored elsewhere. -/
theorem Sets.not_links {r : Relation} {targets : List Int64}
    (h : Sets c m skipNulls entry column d) : ¬ Links c m skipNulls entry r targets := by
  rintro ⟨-, q, target, hq, htype, hr, -, hlink⟩
  obtain ⟨-, p, hp, hcolumn, -⟩ := h
  obtain rfl : p = q := Except.ok.inj (hp.symm.trans hq)
  cases hkind : r.link with
  | belongsTo key => exact hlink key hkind
  | _ => simp [Catalog.storedIn, htype, hr, hkind] at hcolumn

/-- In different columns stand different properties. -/
theorem Sets.name_eq {entry' : String × Literal} {d' : Datum} (hc : c.Distinct m)
    (h : Sets c m skipNulls entry column d) (h' : Sets c m skipNulls entry' column d') :
    entry.1 = entry'.1 := by
  obtain ⟨-, p, hp, hcolumn, -⟩ := h
  obtain ⟨-, q, hq, hcolumn', -⟩ := h'
  rw [← name_of_writable hp, ← name_of_writable hq]
  have hp' := hp
  have hq' := hq
  rw [← name_of_writable hp] at hp'
  rw [← name_of_writable hq] at hq'
  exact hc p q column hp' hq' hcolumn hcolumn'

theorem Sets.ne_id (hc : c.Separate m) (h : Sets c m skipNulls entry column d) :
    column ≠ idName := by
  obtain ⟨-, p, hp, hcolumn, -⟩ := h
  rw [← name_of_writable hp] at hp
  exact (hc p p column hp hp hcolumn).1

/-- An entry that counts sets a column or names the targets of a relation. -/
theorem step_eq_ok (h : step c m skipNulls changes entry = .ok changes') :
    (counts skipNulls entry.2 = false ∧ changes' = changes) ∨
    (∃ column d, Sets c m skipNulls entry column d ∧
      changes' = { changes with attributes := changes.attributes.set column d }) ∨
    ∃ r targets, Links c m skipNulls entry r targets ∧
      changes' = { changes with relations := changes.relations ++ [(r, targets)] } := by
  simp only [step, bind_eq_ok] at h
  obtain ⟨p, hp, h⟩ := h
  split_ifs at h with hskip
  · exact .inl ⟨by simp [counts, hskip], (pure_eq_ok.1 h).symm⟩
  have hcounts : counts skipNulls entry.2 = true := by
    rw [counts, Bool.eq_false_iff.2 hskip]
    rfl
  right
  unfold put at h
  cases htype : p.type with
  | scalar kind =>
    simp only [htype, bind_eq_ok, pure_eq_ok] at h
    obtain ⟨d, hd, rfl⟩ := h
    refine .inl ⟨columnName p.name, d, ⟨hcounts, p, hp, ?_, ?_⟩, rfl⟩
    · simp [Catalog.storedIn, htype]
    · simpa [datumOf, htype] using hd
  | model target =>
    simp only [htype, bind_eq_ok] at h
    obtain ⟨r, hr, targets, htargets, h⟩ := h
    -- only a relation whose key the entity itself holds is stored in a column
    cases hlink : r.link with
    | belongsTo key =>
      simp only [hlink, pure_eq_ok] at h
      refine .inl ⟨key, .ofInt? targets.head?, ⟨hcounts, p, hp, ?_, ?_⟩, h.symm⟩
      · simp [Catalog.storedIn, htype, hr, hlink]
      · simp [datumOf, htype, htargets, Except.map]
    | _ =>
      simp only [hlink, pure_eq_ok] at h
      have hkind : ∀ key, r.link ≠ .belongsTo key := by simp [hlink]
      exact .inr ⟨r, targets, ⟨hcounts, p, target, hp, htype, hr, htargets, hkind⟩, h.symm⟩
  | _ => simp [htype] at h

/-- An entry appends the link that it names, if it names one. -/
theorem relations_of_step (h : step c m skipNulls changes entry = .ok changes') :
    changes'.relations = changes.relations ++ (linkOf c m skipNulls entry).toList := by
  have hnone : (∀ r targets, ¬ Links c m skipNulls entry r targets) →
      linkOf c m skipNulls entry = Option.none := fun hnot =>
    Option.eq_none_iff_forall_not_mem.2 fun link hlink =>
      hnot link.1 link.2 (linkOf_eq_some.1 hlink)
  rcases step_eq_ok h with ⟨hskip, rfl⟩ | ⟨column, d, hsets, rfl⟩ | ⟨r, targets, hlinks, rfl⟩
  · rw [hnone fun r targets hl => Bool.false_ne_true (hskip.symm.trans hl.1)]
    exact (List.append_nil _).symm
  · rw [hnone fun r targets => hsets.not_links]
    exact (List.append_nil _).symm
  · rw [linkOf_eq_some.2 hlinks]
    rfl

/-- An entry sets its column and leaves the others. -/
theorem get?_of_step (h : step c m skipNulls changes entry = .ok changes') :
    changes'.attributes.get? column = some d ↔ Sets c m skipNulls entry column d ∨
      (∀ d', ¬ Sets c m skipNulls entry column d') ∧ changes.attributes.get? column = some d := by
  rcases step_eq_ok h with ⟨hskip, rfl⟩ | ⟨column', e, hsets, rfl⟩ | ⟨r, targets, hlinks, rfl⟩
  · have hnone : ∀ d, ¬ Sets c m skipNulls entry column d := fun _ hs =>
      Bool.false_ne_true (hskip.symm.trans hs.1)
    simp [hnone]
  · rw [Dict.get?_set]
    by_cases hcolumn : column = column'
    · subst hcolumn
      rw [if_pos rfl]
      constructor
      · rintro heq
        obtain rfl := Option.some.inj heq
        exact .inl hsets
      · rintro (hs | ⟨hnone, -⟩)
        · rw [(hs.unique hsets).2]
        · exact absurd hsets (hnone e)
    · have hnone : ∀ d, ¬ Sets c m skipNulls entry column d := fun _ hs =>
        hcolumn (hs.unique hsets).1
      rw [if_neg hcolumn]
      simp [hnone]
  · have hnone : ∀ d, ¬ Sets c m skipNulls entry column d := fun _ hs => hs.not_links hlinks
    simp [hnone]

theorem get?_of_step_eq_none (h : step c m skipNulls changes entry = .ok changes') :
    changes'.attributes.get? column = Option.none ↔
      (∀ d, ¬ Sets c m skipNulls entry column d) ∧
        changes.attributes.get? column = Option.none := by
  simp only [Option.eq_none_iff_forall_ne_some, ne_eq, get?_of_step h]
  constructor
  · intro hnone
    have hsets : ∀ d, ¬ Sets c m skipNulls entry column d := fun d hs => hnone d (.inl hs)
    exact ⟨hsets, fun d hd => hnone d (.inr ⟨hsets, hd⟩)⟩
  · rintro ⟨hsets, hold⟩ d (hs | ⟨-, hd⟩)
    · exact hsets d hs
    · exact hold d hd

theorem sorted_of_step (h : step c m skipNulls changes entry = .ok changes')
    (hsorted : changes.attributes.Sorted) : changes'.attributes.Sorted := by
  rcases step_eq_ok h with ⟨-, rfl⟩ | ⟨column, d, -, rfl⟩ | ⟨r, targets, -, rfl⟩
  · exact hsorted
  · exact hsorted.set _ _
  · exact hsorted

section Run

variable {entries : List (String × Literal)}

/-- Entries append the links that they name, in their order. -/
theorem relations_of_foldlM (h : entries.foldlM (step c m skipNulls) changes = .ok changes') :
    changes'.relations = changes.relations ++ entries.filterMap (linkOf c m skipNulls) := by
  induction entries generalizing changes with
  | nil =>
    obtain rfl := pure_eq_ok.1 h
    simp
  | cons e rest ih =>
    rw [List.foldlM_cons, bind_eq_ok] at h
    obtain ⟨changes₁, hstep, hrest⟩ := h
    rw [ih hrest, relations_of_step hstep, List.append_assoc, List.filterMap_cons]
    cases linkOf c m skipNulls e <;> rfl

theorem mem_filterMap_linkOf {r : Relation} {targets : List Int64} :
    (r, targets) ∈ entries.filterMap (linkOf c m skipNulls) ↔
      ∃ entry ∈ entries, Links c m skipNulls entry r targets := by
  simp only [List.mem_filterMap, linkOf_eq_some]

/-- Entries of different names set their columns and leave the others. -/
theorem get?_of_foldlM (hc : c.Distinct m) (hnames : (entries.map (·.1)).Nodup)
    (h : entries.foldlM (step c m skipNulls) changes = .ok changes') :
    changes'.attributes.get? column = some d ↔
      (∃ entry ∈ entries, Sets c m skipNulls entry column d) ∨
      (∀ entry ∈ entries, ∀ d', ¬ Sets c m skipNulls entry column d') ∧
        changes.attributes.get? column = some d := by
  induction entries generalizing changes with
  | nil =>
    obtain rfl := pure_eq_ok.1 h
    simp
  | cons e rest ih =>
    obtain ⟨hfresh, hnames'⟩ := List.nodup_cons.1 hnames
    rw [List.foldlM_cons, bind_eq_ok] at h
    obtain ⟨changes₁, hstep, hrest⟩ := h
    -- a later entry has another name, so it sets another column
    have hother : ∀ d, Sets c m skipNulls e column d →
        ∀ entry ∈ rest, ∀ d', ¬ Sets c m skipNulls entry column d' := by
      intro d hsets entry hentry d' hsets'
      apply hfresh
      show e.1 ∈ rest.map (·.1)
      rw [hsets.name_eq hc hsets']
      exact List.mem_map_of_mem hentry
    rw [ih hnames' hrest, get?_of_step hstep, List.exists_mem_cons_iff, List.forall_mem_cons]
    constructor
    · rintro (hlater | ⟨hnone, hsets | ⟨hnot, hget⟩⟩)
      · exact .inl (.inr hlater)
      · exact .inl (.inl hsets)
      · exact .inr ⟨⟨hnot, hnone⟩, hget⟩
    · rintro ((hsets | hlater) | ⟨⟨hnot, hnone⟩, hget⟩)
      · exact .inr ⟨hother d hsets, .inl hsets⟩
      · exact .inl hlater
      · exact .inr ⟨hnone, .inr ⟨hnot, hget⟩⟩

theorem get?_of_foldlM_eq_none (h : entries.foldlM (step c m skipNulls) changes = .ok changes') :
    changes'.attributes.get? column = Option.none ↔
      (∀ entry ∈ entries, ∀ d, ¬ Sets c m skipNulls entry column d) ∧
        changes.attributes.get? column = Option.none := by
  induction entries generalizing changes with
  | nil =>
    obtain rfl := pure_eq_ok.1 h
    simp
  | cons e rest ih =>
    rw [List.foldlM_cons, bind_eq_ok] at h
    obtain ⟨changes₁, hstep, hrest⟩ := h
    rw [ih hrest, get?_of_step_eq_none hstep, List.forall_mem_cons]
    tauto

theorem sorted_of_foldlM (h : entries.foldlM (step c m skipNulls) changes = .ok changes')
    (hsorted : changes.attributes.Sorted) : changes'.attributes.Sorted := by
  induction entries generalizing changes with
  | nil =>
    obtain rfl := pure_eq_ok.1 h
    exact hsorted
  | cons e rest ih =>
    rw [List.foldlM_cons, bind_eq_ok] at h
    obtain ⟨changes₁, hstep, hrest⟩ := h
    exact ih hrest (sorted_of_step hstep hsorted)

end Run

/-- The links of changes are those that some entries name. -/
theorem parse_links {input : Literal} (h : parse c m skipNulls input = .ok changes) :
    ∀ link ∈ changes.relations, ∃ entry, Links c m skipNulls entry link.1 link.2 := by
  cases input with
  | object entries =>
    intro link hlink
    rw [relations_of_foldlM h] at hlink
    obtain ⟨entry, -, hlinks⟩ := mem_filterMap_linkOf.1 hlink
    exact ⟨entry, hlinks⟩
  | _ => cases h

/-- The changes of an input are what its entries set and link. -/
theorem parse_spec {entries : List (String × Literal)} (hc : c.Distinct m)
    (hnames : (entries.map (·.1)).Nodup)
    (h : parse c m skipNulls (.object entries) = .ok changes) :
    (∀ column d, (column, d) ∈ changes.attributes.entries ↔
      ∃ entry ∈ entries, Sets c m skipNulls entry column d) ∧
    (∀ r targets, (r, targets) ∈ changes.relations ↔
      ∃ entry ∈ entries, Links c m skipNulls entry r targets) ∧
    changes.attributes.Sorted := by
  have hsorted : changes.attributes.Sorted := sorted_of_foldlM h Dict.sorted_empty
  refine ⟨fun column d => ?_, fun r targets => ?_, hsorted⟩
  · rw [hsorted.mem_entries, get?_of_foldlM hc hnames h]
    simp [none]
  · rw [relations_of_foldlM h]
    exact mem_filterMap_linkOf

/-- A column is among the changes exactly where some entry sets it. -/
theorem get?_of_parse_eq_none {entries : List (String × Literal)}
    (h : parse c m skipNulls (.object entries) = .ok changes) :
    changes.attributes.get? column = Option.none ↔
      ∀ entry ∈ entries, ∀ d, ¬ Sets c m skipNulls entry column d := by
  rw [get?_of_foldlM_eq_none h]
  exact and_iff_left rfl

end Changes

end EntityGraph
