import Mathlib.Logic.Relation
import EntityGraph.Proofs.Filter.References

/-!
# The levels of a filter argument

A filter argument nests: combinations hold filters on the same model, and the entry of a relation
holds a filter on its target. Each entry is read on its own, and what it gives is put into the
filter of its level.

* `Place` is a value within an argument, and `Place.Contains` leads from an argument to all values
  within it that are read in their turn;
* `FilterExpr.readEntry` reads one entry, and `FilterExpr.parseEntries_eq_ok` says that an object is
  read entry by entry;
* `FilterExpr.accepted_of_contains` and `FilterExpr.queryable_of_accepted` say that whatever stands
  in an accepted argument is accepted, and that its entries name queryable properties;
* `FilterExpr.queryable_of_names` says the same of the properties that a filter looks at.
-/

namespace EntityGraph

/-- A value in an argument, with the model that it is about and the number of relations that lead
to it. -/
structure Place where
  model : ModelId
  depth : Nat
  value : Literal

namespace Place

/-- A value stands directly below another: in a list, or as the entry of a combination or of a
relation. -/
inductive Below (c : Catalog) (combinators : List String) : Place → Place → Prop where
  | item {m n items l} : l ∈ items → Below c combinators ⟨m, n, .list items⟩ ⟨m, n, l⟩
  | combined {m n entries key value} : key ∈ combinators → (key, value) ∈ entries →
    Below c combinators ⟨m, n, .object entries⟩ ⟨m, n, value⟩
  | relation {m n entries key value p target} : key ∉ combinators → (key, value) ∈ entries →
    value.isNull = false → c.property m key = .ok p → p.target = some target →
      Below c combinators ⟨m, n, .object entries⟩ ⟨target, n + 1, value⟩

/-- A value stands somewhere within another. -/
def Contains (c : Catalog) (combinators : List String) : Place → Place → Prop :=
  Relation.ReflTransGen (Below c combinators)

end Place

/-- What an entry gives to the filter of its level. -/
inductive FilterPart where
  | nothing
  | conjuncts (filters : List FilterExpr)
  | alternatives (filters : List FilterExpr)
  | negated (filter : FilterExpr)
  | field (x : FieldFilter)

namespace FilterExpr

/-- The keys that combine filters. -/
def combinators : List String := ["and", "or", "not"]

/-- A filter with a part; conjuncts, alternatives and what is negated replace earlier ones. -/
def put (f : FilterExpr) : FilterPart → FilterExpr
  | .nothing => f
  | .conjuncts filters => mk f.fields filters f.alternatives f.negated
  | .alternatives filters => mk f.fields f.conjuncts filters f.negated
  | .negated filter => mk f.fields f.conjuncts f.alternatives (some filter)
  | .field x => mk (f.fields ++ [x]) f.conjuncts f.alternatives f.negated

/-- Read one entry of a filter on a model. -/
def readEntry (c : Catalog) (model : ModelId) (entry : String × Literal) :
    Except Error FilterPart :=
  if entry.1 = "and" then (parseMany c model entry.2).map .conjuncts
  else if entry.1 = "or" then (parseMany c model entry.2).map .alternatives
  else if entry.2.isNull then .ok .nothing
  else if entry.1 = "not" then (parse c model entry.2).map .negated
  else do
    let p ← filterable c model entry.1
    match p.target with
    | some target => (parse c target entry.2).map fun f => .field (.relation entry.1 target f)
    | none => (parsePredicate entry.1 entry.2).map .field

variable {c : Catalog} {m : ModelId} {f g : FilterExpr} {entries : List (String × Literal)}

/-- One entry is read, and the others after it. -/
theorem parseEntries_cons (entry : String × Literal) :
    parseEntries c m f (entry :: entries) = (do
      let part ← readEntry c m entry
      parseEntries c m (f.put part) entries) := by
  obtain ⟨key, value⟩ := entry
  rw [parseEntries, readEntry]
  -- `and` and `or` are read even if they are null, all other entries are not
  split_ifs with hand hor hnull hnot
  · cases parseMany c m value <;> rfl
  · cases parseMany c m value <;> rfl
  · rfl
  · cases parse c m value <;> rfl
  · cases filterable c m key with
    | error e => rfl
    | ok p =>
      simp only [bind, Except.bind]
      cases p.target with
      | none => cases parsePredicate key value <;> rfl
      | some target => cases hparse : parse c target value <;> simp [hparse, Except.map, put]

/-- An object is read where each entry is, and the filter has the parts that they give. -/
theorem parseEntries_eq_ok : parseEntries c m f entries = .ok g ↔
    ∃ parts, List.Forall₂ (fun entry part => readEntry c m entry = .ok part) entries parts ∧
      g = parts.foldl put f := by
  induction entries generalizing f with
  | nil =>
    rw [parseEntries, Except.ok.injEq]
    simp [eq_comm]
  | cons entry entries ih =>
    rw [parseEntries_cons, bind_eq_ok]
    simp only [ih, List.forall₂_cons_left_iff]
    constructor
    · rintro ⟨part, hpart, parts, hparts, rfl⟩
      exact ⟨part :: parts, ⟨part, parts, hpart, hparts, rfl⟩, rfl⟩
    · rintro ⟨_, ⟨part, parts, hpart, hparts, rfl⟩, rfl⟩
      exact ⟨part, hpart, parts, hparts, rfl⟩

/-- Each entry of an accepted object is read. -/
theorem exists_readEntry (h : parse c m (.object entries) = .ok f) {entry : String × Literal}
    (hentry : entry ∈ entries) : ∃ part, readEntry c m entry = .ok part := by
  obtain ⟨parts, hparts, -⟩ := parseEntries_eq_ok.1 (by simpa only [parse] using h)
  obtain ⟨part, -, hpart⟩ := exists_of_forall₂_right hparts.flip hentry
  exact ⟨part, hpart⟩

theorem parseItems_eq (items : List Literal) : parseItems c m items = items.mapM (parse c m) := by
  induction items with
  | nil => rfl
  | cons l items ih => rw [parseItems, List.mapM_cons, ih]

theorem parseMany_object : parseMany c m (.object entries)
    = (parse c m (.object entries)).map fun f => [f] := by
  rw [parseMany, parse]
  cases parseEntries c m empty entries <;> rfl

/-- A property that a filter may name is queryable. -/
theorem filterable_iff {property : String} {p : Property} :
    filterable c m property = .ok p ↔ c.property m property = .ok p ∧ p.isQueryable = true := by
  simp only [filterable, bind_eq_ok]
  constructor
  · rintro ⟨q, hq, h⟩
    split_ifs at h with hqueryable
    obtain rfl := pure_eq_ok.1 h
    exact ⟨hq, hqueryable⟩
  · rintro ⟨hp, hqueryable⟩
    exact ⟨p, hp, if_pos hqueryable⟩

/-- A condition on a scalar is read from an object with one operator that exists. -/
theorem parsePredicate_iff {property : String} {value : Literal} {x : FieldFilter} :
    parsePredicate property value = .ok x ↔ ∃ op operand,
      (∃ name, value = .object [(name, operand)] ∧ FilterOperator.ofName? name = some op) ∧
        x = .predicate property op operand := by
  constructor
  · intro h
    unfold parsePredicate at h
    split at h
    next name operand =>
      split at h
      next op hop =>
        obtain rfl := Except.ok.inj h
        exact ⟨op, operand, ⟨name, rfl, hop⟩, rfl⟩
      · cases h
    · cases h
    · cases h
  · rintro ⟨op, operand, ⟨name, rfl, hop⟩, rfl⟩
    rw [parsePredicate, hop]

theorem mem_combinators {key : String} :
    key ∈ combinators ↔ key = "and" ∨ key = "or" ∨ key = "not" := by
  simp [combinators]

/-- One filter is read where filters are. -/
theorem exists_parseMany {l : Literal} (h : parse c m l = .ok f) :
    ∃ fs, parseMany c m l = .ok fs := by
  cases l with
  | null => exact ⟨[], rfl⟩
  | object entries => exact ⟨[f], by rw [parseMany_object, h]; rfl⟩
  | _ => cases h

/-- An object that is read among filters is one filter. -/
theorem exists_parse_object {fs : List FilterExpr}
    (h : parseMany c m (.object entries) = .ok fs) : ∃ f, parse c m (.object entries) = .ok f := by
  rw [parseMany_object, map_eq_ok] at h
  obtain ⟨f, hf, -⟩ := h
  exact ⟨f, hf⟩

/-- The entry of a combination is read as filters. -/
theorem readEntry_combinator {key : String} {value : Literal} (hkey : key ∈ combinators)
    {part : FilterPart} (h : readEntry c m (key, value) = .ok part) :
    ∃ fs, parseMany c m value = .ok fs := by
  unfold readEntry at h
  split_ifs at h with hand hor hnull hnot
  · obtain ⟨fs, hfs, -⟩ := map_eq_ok.1 h
    exact ⟨fs, hfs⟩
  · obtain ⟨fs, hfs, -⟩ := map_eq_ok.1 h
    exact ⟨fs, hfs⟩
  · cases value with
    | null => exact ⟨[], rfl⟩
    | _ => cases hnull
  · obtain ⟨f, hf, -⟩ := map_eq_ok.1 h
    exact exists_parseMany hf
  · rcases mem_combinators.1 hkey with hkey | hkey | hkey
    · exact absurd hkey hand
    · exact absurd hkey hor
    · exact absurd hkey hnot

/-- An entry that names a property is read unless it is null: its property is queryable, and a
relation holds a filter on its target. -/
theorem readEntry_property {key : String} {value : Literal} (hkey : key ∉ combinators)
    (hvalue : value.isNull = false) : readEntry c m (key, value) = (do
      let p ← filterable c m key
      match p.target with
      | some target => (parse c target value).map fun f => .field (.relation key target f)
      | none => (parsePredicate key value).map .field) := by
  rw [mem_combinators, not_or, not_or] at hkey
  obtain ⟨hand, hor, hnot⟩ := hkey
  rw [readEntry, if_neg hand, if_neg hor, hvalue, if_neg (by decide), if_neg hnot]

/-- What stands directly below an accepted value is accepted. -/
theorem accepted_of_below {p q : Place} (h : p.Below c combinators q)
    (hp : ∃ fs, parseMany c p.model p.value = .ok fs) :
    ∃ fs, parseMany c q.model q.value = .ok fs := by
  obtain ⟨fs, hfs⟩ := hp
  cases h with
  | item hl =>
    rw [parseMany, parseItems_eq] at hfs
    obtain ⟨f, -, hf⟩ := exists_of_forall₂_right (mapM_eq_ok.1 hfs).flip hl
    exact exists_parseMany hf
  | combined hkey hentry =>
    obtain ⟨f, hf⟩ := exists_parse_object hfs
    obtain ⟨part, hpart⟩ := exists_readEntry hf hentry
    exact readEntry_combinator hkey hpart
  | relation hkey hentry hvalue hp htarget =>
    obtain ⟨f, hf⟩ := exists_parse_object hfs
    obtain ⟨part, hpart⟩ := exists_readEntry hf hentry
    rw [readEntry_property hkey hvalue, bind_eq_ok] at hpart
    obtain ⟨q, hq, hpart⟩ := hpart
    obtain rfl := Except.ok.inj (hp.symm.trans (filterable_iff.1 hq).1)
    rw [htarget] at hpart
    obtain ⟨g, hg, -⟩ := map_eq_ok.1 hpart
    exact exists_parseMany hg

/-- Whatever stands within an accepted argument is accepted. -/
theorem accepted_of_contains {p q : Place} (h : p.Contains c combinators q)
    (hp : ∃ f, parse c p.model p.value = .ok f) :
    ∃ fs, parseMany c q.model q.value = .ok fs := by
  obtain ⟨f, hf⟩ := hp
  induction h with
  | refl => exact exists_parseMany hf
  | tail _ hbelow ih => exact accepted_of_below hbelow ih

/-- The entries of an accepted object that are not null name queryable properties, but for those
that combine filters. -/
theorem queryable_of_accepted (h : parse c m (.object entries) = .ok f) {key : String}
    {value : Literal} (hentry : (key, value) ∈ entries) (hkey : key ∉ combinators)
    (hvalue : value.isNull = false) :
    ∃ p, c.property m key = .ok p ∧ p.isQueryable = true := by
  obtain ⟨part, hpart⟩ := exists_readEntry h hentry
  rw [readEntry_property hkey hvalue, bind_eq_ok] at hpart
  obtain ⟨p, hp, -⟩ := hpart
  exact ⟨p, filterable_iff.1 hp⟩

theorem exists_parse_of_parseMany {l : Literal} {filters : List FilterExpr}
    (h : parseMany c m l = .ok filters) : ∀ g ∈ filters, ∃ l, parse c m l = .ok g := by
  intro g hg
  cases l with
  | null => simp_all [parseMany]
  | list items =>
    rw [parseMany, parseItems_eq] at h
    obtain ⟨l, -, hl⟩ := exists_of_forall₂_right (mapM_eq_ok.1 h) hg
    exact ⟨l, hl⟩
  | object entries =>
    rw [parseMany_object, map_eq_ok] at h
    obtain ⟨f, hf, rfl⟩ := h
    exact ⟨_, List.mem_singleton.1 hg ▸ hf⟩
  | _ => cases h

/-- A condition names a queryable property, and behind a relation stands a filter on its target that
was read. -/
def FieldRead (c : Catalog) (m : ModelId) : FieldFilter → Prop
  | .predicate property _ _ => ∃ p, c.property m property = .ok p ∧ p.isQueryable = true
  | .relation property target g => ∃ p, c.property m property = .ok p ∧ p.isQueryable = true ∧
    p.target = some target ∧ ∃ l, parse c target l = .ok g

/-- The filters in a part were read, and so was the condition on a property. -/
def PartRead (c : Catalog) (m : ModelId) : FilterPart → Prop
  | .nothing => True
  | .conjuncts filters => ∀ g ∈ filters, ∃ l, parse c m l = .ok g
  | .alternatives filters => ∀ g ∈ filters, ∃ l, parse c m l = .ok g
  | .negated g => ∃ l, parse c m l = .ok g
  | .field x => FieldRead c m x

theorem partRead_of_readEntry {entry : String × Literal} {part : FilterPart}
    (h : readEntry c m entry = .ok part) : PartRead c m part := by
  unfold readEntry at h
  split_ifs at h with hand hor hnull hnot
  · obtain ⟨filters, hfilters, rfl⟩ := map_eq_ok.1 h
    exact exists_parse_of_parseMany hfilters
  · obtain ⟨filters, hfilters, rfl⟩ := map_eq_ok.1 h
    exact exists_parse_of_parseMany hfilters
  · obtain rfl := Except.ok.inj h
    exact trivial
  · obtain ⟨g, hg, rfl⟩ := map_eq_ok.1 h
    exact ⟨entry.2, hg⟩
  · obtain ⟨p, hp, h⟩ := bind_eq_ok.1 h
    obtain ⟨hproperty, hqueryable⟩ := filterable_iff.1 hp
    split at h
    next target htarget =>
      obtain ⟨g, hg, rfl⟩ := map_eq_ok.1 h
      exact ⟨p, hproperty, hqueryable, htarget, entry.2, hg⟩
    next =>
      obtain ⟨x, hx, rfl⟩ := map_eq_ok.1 h
      obtain ⟨op, operand, -, rfl⟩ := parsePredicate_iff.1 hx
      exact ⟨p, hproperty, hqueryable⟩

/-- The parts of a filter were read. -/
structure Read (c : Catalog) (m : ModelId) (f : FilterExpr) : Prop where
  fields : ∀ x ∈ f.fields, FieldRead c m x
  conjuncts : ∀ g ∈ f.conjuncts, ∃ l, parse c m l = .ok g
  alternatives : ∀ g ∈ f.alternatives, ∃ l, parse c m l = .ok g
  negated : ∀ g, f.negated = some g → ∃ l, parse c m l = .ok g

theorem Read.put (hf : Read c m f) {part : FilterPart} (hpart : PartRead c m part) :
    Read c m (f.put part) := by
  obtain ⟨hfields, hall, hany, hnot⟩ := hf
  cases part with
  | nothing => exact ⟨hfields, hall, hany, hnot⟩
  | conjuncts filters => exact ⟨hfields, hpart, hany, hnot⟩
  | alternatives filters => exact ⟨hfields, hall, hpart, hnot⟩
  | negated g => exact ⟨hfields, hall, hany, fun g' hg' => Option.some.inj hg' ▸ hpart⟩
  | field x =>
    exact ⟨List.forall_mem_append.2 ⟨hfields, List.forall_mem_singleton.2 hpart⟩, hall, hany, hnot⟩

theorem read_empty : Read c m empty :=
  ⟨fun _ hx => (nomatch hx), fun _ hg => (nomatch hg), fun _ hg => (nomatch hg),
    fun _ hg => (nomatch hg)⟩

theorem read_of_parse {l : Literal} (h : parse c m l = .ok f) : Read c m f := by
  cases l with
  | null =>
    rw [parse, Except.ok.injEq] at h
    exact h ▸ read_empty
  | object entries =>
    rw [parse] at h
    obtain ⟨parts, hparts, rfl⟩ := parseEntries_eq_ok.1 h
    have hput : ∀ g, Read c m g → Read c m (parts.foldl put g) := by
      clear h
      induction hparts with
      | nil => exact fun g hg => hg
      | cons hpart _ ih => exact fun g hg => ih _ (hg.put (partRead_of_readEntry hpart))
    exact hput empty read_empty
  | _ => cases h

/-- The properties that an accepted filter looks at are queryable, at every level. -/
theorem queryable_of_names {ref : Reference} (h : Names c m f ref)
    (hf : ∃ l, parse c m l = .ok f) :
    ∃ p, c.property ref.model ref.property = .ok p ∧ p.isQueryable = true := by
  induction h with
  | predicate hx =>
    obtain ⟨l, hl⟩ := hf
    exact (read_of_parse hl).fields _ hx
  | relation hx =>
    obtain ⟨l, hl⟩ := hf
    obtain ⟨p, hp, hqueryable, -⟩ := (read_of_parse hl).fields _ hx
    exact ⟨p, hp, hqueryable⟩
  | target hx hp htarget _ ih =>
    obtain ⟨l, hl⟩ := hf
    obtain ⟨q, hq, -, htarget', hg⟩ := (read_of_parse hl).fields _ hx
    obtain rfl := Except.ok.inj (hp.symm.trans hq)
    obtain rfl := Option.some.inj (htarget.symm.trans htarget')
    exact ih hg
  | conjunct hg _ ih =>
    obtain ⟨l, hl⟩ := hf
    exact ih ((read_of_parse hl).conjuncts _ hg)
  | alternative hg _ ih =>
    obtain ⟨l, hl⟩ := hf
    exact ih ((read_of_parse hl).alternatives _ hg)
  | negated _ ih =>
    obtain ⟨l, hl⟩ := hf
    exact ih ((read_of_parse hl).negated _ rfl)

end FilterExpr

end EntityGraph
