import EntityGraph.Proofs.Filter.Valid
import EntityGraph.Proofs.Order.Levels

/-!
# Valid orders are accepted

A value that is valid for the generated type of orders on a model is read, if one entry of each
level is not null and directions are `asc` or `desc`, and it orders a query, if it goes through as
few relations as are allowed and the catalog resolves them.

* `Place.SingleEntries` and `Place.Directed` are what is asked of an argument beyond validity;
* `OrderExpr.accepted_of_admits` is the result.
-/

namespace EntityGraph

namespace Place

variable {c : Catalog} {p q : Place}

/-- One entry of each level is not null. -/
def SingleEntries (c : Catalog) (p : Place) : Prop :=
  ∀ m n entries, p.Contains c [] ⟨m, n, .object entries⟩ → OrderExpr.presentCount entries = 1

/-- The direction of a scalar is `asc` or `desc`, in any letter case. -/
def Directed (c : Catalog) (p : Place) : Prop :=
  ∀ fields, p.HasOperators c [] fields → ∀ word, ("order", .string word) ∈ fields →
    String.ofList (word.toList.map Char.toLower) = "asc" ∨
      String.ofList (word.toList.map Char.toLower) = "desc"

theorem SingleEntries.below (hp : p.SingleEntries c) (h : p.Below c [] q) : q.SingleEntries c :=
  fun m n entries hq => hp m n entries (.head h hq)

theorem Directed.below (hp : p.Directed c) (h : p.Below c [] q) : q.Directed c :=
  fun fields hq => hp fields (hq.of_below h)

end Place

/-- The fields of an order: the direction of a scalar, and the order on the target of a relation to
one entity, whose type is there. -/
theorem TypeRequest.Whole.orderField {c : Catalog} {asked : List TypeKey} {g : TypeGraph}
    {m : ModelId} {name : String} {f : InputField} (hg : Whole c asked g)
    (hk : ⟨m, .order⟩ ∈ g.keys) (h : g.inputField? (.node ⟨m, .order⟩) name = some f) :
    ∃ p, c.property m name = .ok p ∧ p.isQueryable = true ∧ p.isToMany = false ∧
      f.type.item? = none ∧
      ((p.target = none ∧ f.input = .direction) ∨
        ∃ target, p.target = some target ∧ f.input = .node ⟨target, .order⟩ ∧
          ⟨target, .order⟩ ∈ g.keys) := by
  have hkind : TypeKind.order.ofProperties := ⟨by decide, by decide⟩
  rcases hg.inputField_node hk hkind h with ⟨x, hx, -, -⟩ | ⟨p, x, hp, -, hshows, hx, rfl⟩
  · cases hx
  have hboth : p.isQueryable = true ∧ p.isToMany = false := by
    simpa [TypeKind.shows] using hshows
  cases htype : p.type with
  | scalar kind =>
    simp only [TypeKind.fieldOf, htype] at hx
    obtain rfl := Except.ok.inj hx
    refine ⟨p, hp, hboth.1, hboth.2, rfl, .inl ⟨by rw [Property.target, htype], ?_⟩⟩
    simp only [TypeKind.inputType, htype]
  | model target =>
    simp only [TypeKind.fieldOf, htype] at hx
    obtain rfl := Except.ok.inj hx
    have htarget : p.target = some target := by rw [Property.target, htype]
    refine ⟨p, hp, hboth.1, hboth.2, rfl, .inr ⟨target, htarget, ?_, ?_⟩⟩
    · simp only [TypeKind.inputType, htype]
    · exact (hg.hasField hkind hk hp hshows).2 _ (by simp [TypeKind.refers, htarget])
  | untypedArray => simp [TypeKind.fieldOf, htype] at hx
  | «unsupported» word => simp [TypeKind.fieldOf, htype] at hx

namespace OrderExpr

variable {c : Catalog} {m : ModelId} {n : Nat}

/-- A relation to one entity can be joined. -/
theorem exists_joinAlong {r : Relation} (h : r.link.isToOne = true) (table : String) :
    ∃ join, joinAlong table r = some join := by
  unfold joinAlong
  cases hlink : r.link with
  | belongsTo key => exact ⟨_, rfl⟩
  | hasOne key => exact ⟨_, rfl⟩
  | hasMany key => simp [hlink, Link.isToOne] at h
  | belongsToMany pivot ownerKey relatedKey => simp [hlink, Link.isToOne] at h

/-- What is asked of an argument for its order to apply. -/
structure Appliable (c : Catalog) (maxDepth : Nat) (p : Place) : Prop where
  nests : p.NestsWithin c [] maxDepth
  resolves : p.Resolves c []

/-- An order applies to every query on whatever table, below so many relations. -/
def Applies (c : Catalog) (maxDepth : Nat) (m : ModelId) (n : Nat) (order : OrderExpr) : Prop :=
  ∀ q table, ∃ q', order.applyAt c maxDepth q m table n = .ok q'

/-- A value is accepted as an order on a model, which applies if the value allows. -/
def Accepted (c : Catalog) (p : Place) : Prop :=
  ∃ order, parse c p.model p.value = .ok (some order) ∧
    ∀ maxDepth, Appliable c maxDepth p → order.Applies c maxDepth p.model p.depth

/-- A valid direction that is `asc` or `desc` is read. -/
theorem exists_parseField {g : TypeGraph} {property : String} {value : Literal} {t : TypeRef}
    (ht : t.item? = none) (hvalid : g.Admits .direction t value) (hvalue : value.isNull = false)
    (hword : ∀ fields, value = .object fields → ∀ word, ("order", Literal.string word) ∈ fields →
      String.ofList (word.toList.map Char.toLower) = "asc" ∨
        String.ofList (word.toList.map Char.toLower) = "desc") :
    ∃ direction, parseField property value = .ok (.field property direction) := by
  obtain ⟨fields, rfl⟩ := hvalid.exists_object (fun _ h => nomatch h) ht hvalue
  cases hvalid with
  | object _ hknown hvalid hpresent =>
    obtain ⟨l, hlookup⟩ : ∃ l, fields.lookup "order" = some l := by
      obtain ⟨e, he, hkey⟩ := hpresent _ List.mem_cons_self rfl
      cases hlookup : fields.lookup "order" with
      | none => simpa [hkey] using List.lookup_eq_none_iff.1 hlookup e he
      | some l => exact ⟨l, rfl⟩
    obtain ⟨before, after, hfields, -⟩ := List.lookup_eq_some_iff.1 hlookup
    have hmem : ("order", l) ∈ fields := by simp [hfields]
    have hstring : g.Admits (.scalar .string) (TypeRef.named "String").required l :=
      hvalid _ hmem _ rfl
    cases hstring.scalar_of_ne_null rfl (hstring.isNull_eq_false rfl) with
    | string word =>
      have hdirection : ∃ direction, Direction.parse (.string word) = .ok direction := by
        simp only [Direction.parse, Literal.name?]
        rcases hword fields rfl word hmem with h | h
        · exact ⟨.asc, if_pos h⟩
        · exact ⟨.desc, by rw [h]; rfl⟩
      obtain ⟨direction, hdirection⟩ := hdirection
      exact ⟨direction, parseField_eq_ok.2 ⟨fields, _, direction, rfl, hlookup, hdirection, rfl⟩⟩

/-- A relation behind a property that does not lead to many entities leads to one. -/
theorem isToOne_of_relation {key : String} {p : Property} {target : ModelId} {r : Relation}
    (hp : c.property m key = .ok p) (htarget : p.target = some target) (hmany : p.isToMany = false)
    (hr : c.relation m key = .ok r) : r.link.isToOne = true := by
  obtain ⟨-, -, p', hp', -, hkind⟩ := Catalog.relation_eq_ok hr
  obtain rfl := Except.ok.inj (hp.symm.trans hp')
  have hrelation : p.isRelation = true := by rw [Property.isRelation, htarget]; rfl
  rw [Property.isToMany, hrelation, Bool.true_and] at hmany
  rw [hkind, hmany]
  rfl

/-- An order through a relation to one entity applies where the order on its target does: the
relation is joined first. -/
theorem applies_relation {key : String} {p : Property} {target : ModelId} {r : Relation}
    {maxDepth : Nat} {order : OrderExpr} (hp : c.property m key = .ok p)
    (htarget : p.target = some target) (hmany : p.isToMany = false)
    (hr : c.relation m key = .ok r) (hdepth : n + 1 ≤ maxDepth)
    (h : order.Applies c maxDepth target (n + 1)) :
    (OrderExpr.relation key target order).Applies c maxDepth m n := by
  intro q table
  obtain ⟨join, hjoin⟩ := exists_joinAlong (isToOne_of_relation hp htarget hmany hr) table
  obtain ⟨q', hq'⟩ := h (q.join join) r.targetTable
  refine ⟨q', ?_⟩
  rw [applyAt, if_neg (Nat.not_lt.2 hdepth)]
  refine bind_eq_ok.2 ⟨r, hr, ?_⟩
  rw [hjoin]
  exact hq'

section Valid

variable {asked : List TypeKey} {g : TypeGraph}

/-- A value that is valid for the orders on a model, and not null, is accepted, and its order
applies if the value allows. The induction is on the validity of the value: the entry of a relation
is valid for the orders on its target. -/
theorem accepted_of_admits (hg : TypeRequest.Whole c asked g) {i : InputType} {t : TypeRef}
    {l : Literal} (h : g.Admits i t l) :
    ∀ m n, i = .node ⟨m, .order⟩ → ⟨m, .order⟩ ∈ g.keys → t.item? = none → l.isNull = false →
      Place.SingleEntries c ⟨m, n, l⟩ → Place.Directed c ⟨m, n, l⟩ → Accepted c ⟨m, n, l⟩ := by
  induction h with
  | null _ =>
    rintro m n - - - hl
    cases hl
  | scalar _ =>
    rintro m n hi
    cases hi
  | list hitem _ _ =>
    rintro m n - - hnone
    cases hitem.symm.trans hnone
  | @object i t entries _ hknown hvalid _ ih =>
    rintro m n rfl hk - - hsingle hdirected
    -- the one entry that is not null decides what kind of order this is
    have hone : (present entries).length = 1 :=
      (presentCount_eq entries).symm.trans (hsingle m n entries .refl)
    obtain ⟨⟨key, value⟩, honly⟩ := List.length_eq_one_iff.1 hone
    have hmem : (key, value) ∈ present entries := by rw [honly]; exact List.mem_cons_self
    obtain ⟨hentry, hvalue⟩ := mem_present.1 hmem
    obtain ⟨f, hf⟩ := hknown _ hentry
    obtain ⟨p, hp, hqueryable, hmany, hitem, hscalar | hrelation⟩ := hg.orderField hk hf
    · obtain ⟨htarget, hinput⟩ := hscalar
      have hdirection := hvalid _ hentry f hf
      rw [hinput] at hdirection
      obtain ⟨direction, hfield⟩ : ∃ direction,
          parseField key value = .ok (.field key direction) := by
        refine exists_parseField hitem hdirection hvalue fun fields heq => ?_
        exact hdirected fields ⟨m, n, entries, key, p, .refl, heq ▸ hentry, hp, htarget⟩
      refine ⟨.field key direction, parse_object_eq_ok.2 ⟨(key, value), honly, ?_⟩, ?_⟩
      · exact readEntry_eq_ok.2 ⟨p, hp, hqueryable, hmany, .inl ⟨htarget, _, hfield, rfl⟩⟩
      · exact fun _ _ q table => ⟨_, by rw [applyAt]⟩
    · obtain ⟨target, htarget, hinput, hkey⟩ := hrelation
      have hbelow : Place.Below c [] ⟨m, n, .object entries⟩ ⟨target, n + 1, value⟩ :=
        .relation List.not_mem_nil hentry hvalue hp htarget
      obtain ⟨order, horder, happlies⟩ := ih _ hentry f hf target (n + 1) hinput hkey hitem hvalue
        (hsingle.below hbelow) (hdirected.below hbelow)
      refine ⟨.relation key target order, parse_object_eq_ok.2 ⟨(key, value), honly, ?_⟩, ?_⟩
      · exact readEntry_eq_ok.2
          ⟨p, hp, hqueryable, hmany, .inr ⟨target, order, htarget, horder, rfl⟩⟩
      · intro maxDepth happliable
        obtain ⟨r, hr⟩ := happliable.resolves m n entries key value p target .refl hentry hvalue hp
          htarget
        exact applies_relation hp htarget hmany hr (happliable.nests _ (.single hbelow))
          (happlies maxDepth ⟨happliable.nests.below hbelow, happliable.resolves.below hbelow⟩)

end Valid

end OrderExpr

end EntityGraph
