import EntityGraph.Order.Compile
import EntityGraph.Proofs.Filter.Levels

/-!
# The levels of an order argument

An order argument is an object with one entry that is not null, and the entry of a relation is an
order on its target.

* `OrderExpr.readEntry` reads the entry of a level, and `OrderExpr.parse_object_eq_ok` says which
  objects are accepted;
* `OrderExpr.accepted_of_contains` and `OrderExpr.orderable_of_accepted` say that whatever stands in
  an accepted argument is accepted, and that its entries name queryable properties which lead to one
  entity at most;
* `OrderExpr.read_of_parse` says the same of the properties that an order looks at.
-/

namespace EntityGraph.OrderExpr

variable {c : Catalog} {m : ModelId} {entries : List (String × Literal)}
  {read : Option OrderExpr}

/-- Read the entry of an order on a model. -/
def readEntry (c : Catalog) (m : ModelId) (entry : String × Literal) :
    Except Error (Option OrderExpr) := do
  match ← orderable c m entry.1 with
  | none => return some (← parseField entry.1 entry.2)
  | some target => match ← parse c target entry.2 with
    | some order => return some (relation entry.1 target order)
    | none => .error (.orderFieldCount 0)

/-- The entries that are not null. -/
def present (entries : List (String × Literal)) : List (String × Literal) :=
  entries.filter (!·.2.isNull)

theorem mem_present {entry : String × Literal} :
    entry ∈ present entries ↔ entry ∈ entries ∧ entry.2.isNull = false := by
  simp [present]

theorem presentCount_eq (entries : List (String × Literal)) :
    presentCount entries = (present entries).length :=
  List.countP_eq_length_filter

/-- The first entry that is not null is read. -/
theorem parsePresent_of_present {entry : String × Literal} {rest : List (String × Literal)}
    (h : present entries = entry :: rest) :
    parsePresent c m entries = readEntry c m entry := by
  induction entries with
  | nil => cases h
  | cons e entries ih =>
    obtain ⟨key, value⟩ := e
    unfold present at h ih
    by_cases hnull : value.isNull = true
    · rw [List.filter_cons_of_neg (by simpa using hnull)] at h
      rw [parsePresent, if_pos hnull, ih h]
    · rw [List.filter_cons_of_pos (by simpa using hnull)] at h
      obtain ⟨rfl, -⟩ := List.cons.inj h
      rw [parsePresent, if_neg hnull]
      rfl

/-- An object is accepted where one entry is not null, and that entry is read. -/
theorem parse_object_eq_ok : parse c m (.object entries) = .ok read ↔
    ∃ entry, present entries = [entry] ∧ readEntry c m entry = .ok read := by
  rw [parse, presentCount_eq]
  constructor
  · intro h
    split_ifs at h with hone
    obtain ⟨entry, hentry⟩ := List.length_eq_one_iff.1 hone
    exact ⟨entry, hentry, parsePresent_of_present hentry ▸ h⟩
  · rintro ⟨entry, hentry, hread⟩
    rw [if_pos (by rw [hentry]; rfl), parsePresent_of_present hentry, hread]

/-- An entry that is not null is the one that is read. -/
theorem readEntry_of_mem (h : parse c m (.object entries) = .ok read) {entry : String × Literal}
    (hentry : entry ∈ entries) (hvalue : entry.2.isNull = false) :
    readEntry c m entry = .ok read := by
  obtain ⟨only, honly, hread⟩ := parse_object_eq_ok.1 h
  have hmem : entry ∈ present entries := mem_present.2 ⟨hentry, hvalue⟩
  rw [honly, List.mem_singleton] at hmem
  exact hmem ▸ hread

/-- An order goes through queryable properties that lead to one entity at most. -/
theorem orderable_eq_ok {property : String} {target : Option ModelId} :
    orderable c m property = .ok target ↔ ∃ p, c.property m property = .ok p ∧
      p.isQueryable = true ∧ p.isToMany = false ∧ p.target = target := by
  simp only [orderable, bind_eq_ok]
  refine exists_congr fun p => and_congr_right fun _ => ?_
  cases hqueryable : p.isQueryable with
  | false => simp
  | true =>
    simp only [Bool.not_true, Bool.false_eq_true, if_false, true_and, Property.isToMany,
      Property.isRelation]
    cases htarget : p.target with
    | none => simp [pure_eq_ok]
    | some target' => cases p.isList <;> simp [pure_eq_ok]

/-- What was read from an entry: a direction for a scalar, or an order on the target of a
relation. -/
theorem readEntry_eq_ok {entry : String × Literal} : readEntry c m entry = .ok read ↔
    ∃ p, c.property m entry.1 = .ok p ∧ p.isQueryable = true ∧ p.isToMany = false ∧
      ((p.target = none ∧ ∃ order, parseField entry.1 entry.2 = .ok order ∧ read = some order) ∨
        ∃ target order, p.target = some target ∧ parse c target entry.2 = .ok (some order) ∧
          read = some (.relation entry.1 target order)) := by
  simp only [readEntry, bind_eq_ok, orderable_eq_ok]
  constructor
  · rintro ⟨target, ⟨p, hp, hqueryable, hone, rfl⟩, h⟩
    refine ⟨p, hp, hqueryable, hone, ?_⟩
    cases htarget : p.target with
    | none =>
      simp only [htarget, bind_eq_ok, pure_eq_ok] at h
      obtain ⟨order, horder, rfl⟩ := h
      exact .inl ⟨rfl, order, horder, rfl⟩
    | some target =>
      simp only [htarget, bind_eq_ok] at h
      obtain ⟨order, horder, h⟩ := h
      cases order with
      | none => cases h
      | some order => exact .inr ⟨target, order, rfl, horder, (pure_eq_ok.1 h).symm⟩
  · rintro ⟨p, hp, hqueryable, hone, h⟩
    refine ⟨p.target, ⟨p, hp, hqueryable, hone, rfl⟩, ?_⟩
    rcases h with ⟨htarget, order, horder, rfl⟩ | ⟨target, order, htarget, horder, rfl⟩
    · simp only [htarget, bind_eq_ok, pure_eq_ok]
      exact ⟨order, horder, rfl⟩
    · simp only [htarget, bind_eq_ok]
      exact ⟨some order, horder, rfl⟩

/-- What stands directly below an accepted value is accepted. -/
theorem accepted_of_below {p q : Place} (h : p.Below c [] q)
    (hp : ∃ read, parse c p.model p.value = .ok read) :
    ∃ read, parse c q.model q.value = .ok read := by
  obtain ⟨read, hread⟩ := hp
  cases h with
  | item _ => cases hread
  | combined hkey _ => cases hkey
  | relation _ hentry hvalue hq htarget =>
    obtain ⟨q', hq', -, -, hscalar | hrelation⟩ :=
      readEntry_eq_ok.1 (readEntry_of_mem hread hentry hvalue)
    · obtain rfl := Except.ok.inj (hq.symm.trans hq')
      cases htarget.symm.trans hscalar.1
    · obtain ⟨target', order, htarget', horder, -⟩ := hrelation
      obtain rfl := Except.ok.inj (hq.symm.trans hq')
      obtain rfl := Option.some.inj (htarget.symm.trans htarget')
      exact ⟨some order, horder⟩

/-- Whatever is read within an accepted argument is accepted. -/
theorem accepted_of_contains {p q : Place} (h : p.Contains c [] q)
    (hp : ∃ read, parse c p.model p.value = .ok read) :
    ∃ read, parse c q.model q.value = .ok read := by
  induction h with
  | refl => exact hp
  | tail _ hbelow ih => exact accepted_of_below hbelow ih

/-- The entry of an accepted object that is not null names a queryable property, which leads to one
entity at most. -/
theorem orderable_of_accepted (h : parse c m (.object entries) = .ok read) {key : String}
    {value : Literal} (hentry : (key, value) ∈ entries) (hvalue : value.isNull = false) :
    ∃ p, c.property m key = .ok p ∧ p.isQueryable = true ∧ p.isToMany = false := by
  obtain ⟨p, hp, hqueryable, hone, -⟩ := readEntry_eq_ok.1 (readEntry_of_mem h hentry hvalue)
  exact ⟨p, hp, hqueryable, hone⟩

theorem exists_readEntry_of_parse {l : Literal} {order : OrderExpr}
    (h : parse c m l = .ok (some order)) :
    ∃ entry, readEntry c m entry = .ok (some order) := by
  cases l with
  | object entries =>
    obtain ⟨entry, -, hread⟩ := parse_object_eq_ok.1 h
    exact ⟨entry, hread⟩
  | _ => cases h

/-- The order of a scalar names it. -/
theorem parseField_eq_ok {property : String} {value : Literal} {order : OrderExpr} :
    parseField property value = .ok order ↔ ∃ fields l direction, value = .object fields ∧
      fields.lookup "order" = some l ∧ Direction.parse l = .ok direction ∧
        order = .field property direction := by
  cases value with
  | object fields =>
    cases hlookup : fields.lookup "order" with
    | none => simp [parseField, hlookup]
    | some l =>
      simp only [parseField, hlookup]
      constructor
      · intro h
        obtain ⟨direction, hdirection, h⟩ := bind_eq_ok.1 h
        exact ⟨fields, l, direction, rfl, hlookup, hdirection, (pure_eq_ok.1 h).symm⟩
      · rintro ⟨_, l', direction, ⟨⟩, hl', hdirection, rfl⟩
        obtain rfl := Option.some.inj (hlookup.symm.trans hl')
        exact bind_eq_ok.2 ⟨direction, hdirection, rfl⟩
  | _ => simp [parseField]

/-- An order that was read goes through queryable relations to one entity, to a queryable scalar. -/
def Read (c : Catalog) : OrderExpr → ModelId → Prop
  | field property _, m => ∃ p, c.property m property = .ok p ∧ p.isQueryable = true ∧
    p.target = none
  | relation property target order, m => (∃ p, c.property m property = .ok p ∧
    p.isQueryable = true ∧ p.isToMany = false ∧ p.target = some target) ∧ order.Read c target

/-- An accepted order was read, at every level. -/
theorem read_of_parse {order : OrderExpr} {l : Literal} (h : parse c m l = .ok (some order)) :
    order.Read c m := by
  induction order generalizing m l with
  | field property direction =>
    obtain ⟨entry, hentry⟩ := exists_readEntry_of_parse h
    obtain ⟨p, hp, hqueryable, -, hscalar | hrelation⟩ := readEntry_eq_ok.1 hentry
    · obtain ⟨htarget, order, horder, heq⟩ := hscalar
      obtain rfl := Option.some.inj heq
      obtain ⟨_, _, _, -, -, -, heq⟩ := parseField_eq_ok.1 horder
      cases heq
      exact ⟨p, hp, hqueryable, htarget⟩
    · obtain ⟨_, _, -, -, heq⟩ := hrelation
      cases heq
  | relation property target order ih =>
    obtain ⟨entry, hentry⟩ := exists_readEntry_of_parse h
    obtain ⟨p, hp, hqueryable, hone, hscalar | hrelation⟩ := readEntry_eq_ok.1 hentry
    · obtain ⟨-, order, horder, heq⟩ := hscalar
      obtain rfl := Option.some.inj heq
      obtain ⟨_, _, _, -, -, -, heq⟩ := parseField_eq_ok.1 horder
      cases heq
    · obtain ⟨target', order', htarget, horder, heq⟩ := hrelation
      cases heq
      exact ⟨⟨p, hp, hqueryable, hone, htarget⟩, ih horder⟩

end EntityGraph.OrderExpr
