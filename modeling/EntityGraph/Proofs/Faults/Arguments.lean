import EntityGraph.Proofs.Faults.Relations
import EntityGraph.Proofs.Filter.Same
import EntityGraph.Proofs.Order.Valid
import EntityGraph.Proofs.Relation.Restriction
import EntityGraph.Proofs.Run.Faults
import EntityGraph.Resolve.Roots

/-!
# Faults in arguments

Filters, orders and inputs look models up on the way. Where all models that can be met are known,
described and properly declared, no fault comes up; where they are not, it is one of those.

* `Catalog.Covers` are models that relations do not lead out of, with the faults known of them;
* the lemmas named `ends_` say that each function on arguments ends with no other faults;
* `ListArgs.Sorts` says that an order can be applied: `ListArgs.Read.sorts` proves it of an order on
  the model that it was read on.
-/

namespace EntityGraph

/-- Models that relations do not lead out of. If there is no such model, its properties cannot be
described or the declared kind of a relation does not fit, then this is a known fault. -/
structure Catalog.Covers (c : Catalog) (S : ModelId → Prop) (known : Error → Prop) : Prop where
  contains : ∀ m, S m → c.contains m = true ∨ known (.unknownModel m)
  describe : ∀ m e, S m → c.describe m = .error e → known e
  fits : ∀ m name p, S m → c.property m name = .ok p → c.Misdeclared m p →
    known (.metadata m name .cardinality)
  closed : ∀ m name p target, S m → c.property m name = .ok p → p.target = some target → S target

section

variable {c : Catalog} {S : ModelId → Prop} {known known' : Error → Prop} {m : ModelId}
  {name : String}

namespace Catalog

theorem Covers.mono (h : c.Covers S known) (hknown : ∀ e, known e → known' e) :
    c.Covers S known' where
  contains m hm := (h.contains m hm).imp_right (hknown _)
  describe m e hm he := hknown _ (h.describe m e hm he)
  fits m name p hm hp hmisdeclared := hknown _ (h.fits m name p hm hp hmisdeclared)
  closed := h.closed

variable (h : c.Covers S known)

include h

theorem ends_definition (hm : S m) : Ends known (c.definition m) fun _ => True := by
  unfold definition
  cases hfind : c.definitions.find? (·.id == m) with
  | some d => exact .pure trivial
  | none =>
    rcases h.contains m hm with hknown | hfault
    · obtain ⟨d, hd⟩ := exists_definition_of_contains hknown
      rw [definition, hfind] at hd
      cases hd
    · exact .fail hfault

theorem ends_table (hm : S m) : Ends known (c.table m) fun _ => True :=
  (ends_definition h hm).bind fun _ _ _ => .pure trivial

theorem ends_property (hm : S m) : Ends known (c.property m name) fun _ => True := by
  unfold property
  cases hd : c.describe m with
  | error e => exact fun _ => h.describe m e hm hd
  | ok properties => exact .elim rfl fun _ _ => trivial

/-- A relation that does not fit is a known fault. -/
theorem ends_relation (hm : S m) : Ends known (c.relation m name) fun r => S r.target := by
  cases hp : c.property m name with
  | error e =>
    have hrelation : c.relation m name = .error e := by rw [relation, hp]; rfl
    rw [hrelation]
    exact (ends_property h hm).of_error hp
  | ok p =>
    cases htarget : p.target with
    | none =>
      have hrelation : c.relation m name = .error (.badInput (.notARelation m p.name)) := by
        simp only [relation, hp, bind, Except.bind, resolveRelation, htarget]
      rw [hrelation]
      exact .ordinary rfl
    | some target =>
      obtain ⟨d, related, hd, -, hrelation⟩ := relation_eq hp htarget
      rw [hrelation]
      split_ifs with hkind
      · exact fun _ => h.fits m name p hm hp ⟨d, target, hd, htarget, hkind⟩
      · exact h.closed m name p target hm hp htarget

end Catalog

mutual

/-- A literal that does not fit a kind is no fault of a model. -/
theorem Datum.ends_ofLiteral (kind : ScalarKind) : ∀ l : Literal,
    Ends known (Datum.ofLiteral kind l) fun _ => True
  | .null => by rw [ofLiteral]; exact .pure trivial
  | .list items => by
    rw [ofLiteral]
    exact (Datum.ends_ofLiterals kind items).bind fun _ _ _ => .pure trivial
  | .int n => by
    rw [ofLiteral.eq_def]
    cases kind with
    | int => dsimp only; split; exacts [.pure trivial, .ordinary rfl]
    | float => exact .pure trivial
    | _ => exact .ordinary rfl
  | .float x => by
    rw [ofLiteral.eq_def]
    cases kind with
    | float => exact .pure trivial
    | _ => exact .ordinary rfl
  | .bool b => by
    rw [ofLiteral.eq_def]
    cases kind with
    | boolean => exact .pure trivial
    | _ => exact .ordinary rfl
  | .string s => by
    rw [ofLiteral.eq_def]
    cases kind with
    | string => exact .pure trivial
    | dateTime => dsimp only; split; exacts [.pure trivial, .ordinary rfl]
    | _ => exact .ordinary rfl
  | .enum s => by
    rw [ofLiteral.eq_def]
    cases kind with
    | string => exact .pure trivial
    | _ => exact .ordinary rfl
  | .object fields => by rw [ofLiteral]; exact .ordinary rfl

theorem Datum.ends_ofLiterals (kind : ScalarKind) : ∀ items : List Literal,
    Ends known (Datum.ofLiterals kind items) fun _ => True
  | [] => by rw [ofLiterals]; exact .pure trivial
  | l :: rest => by
    rw [ofLiterals]
    exact (Datum.ends_ofLiteral kind l).bind fun _ _ _ =>
      (Datum.ends_ofLiterals kind rest).bind fun _ _ _ => .pure trivial

end

namespace FilterExpr

theorem ends_filterable (h : c.Covers S known) (hm : S m) :
    Ends known (filterable c m name) fun p => ∀ target, p.target = some target → S target := by
  refine (Catalog.ends_property h hm).bind fun p hp _ => ?_
  split_ifs
  · exact .pure fun target => h.closed m name p target hm hp
  · exact .ordinary rfl

theorem ends_parsePredicate (property : String) (value : Literal) :
    Ends known (parsePredicate property value) fun _ => True := by
  unfold parsePredicate
  split
  · split
    · exact .pure trivial
    · exact .ordinary rfl
  · exact .ordinary rfl
  · exact .ordinary rfl

mutual

/-- Reading a filter finds no other faults. -/
theorem ends_parse (h : c.Covers S known) : ∀ (m : ModelId) (l : Literal), S m →
    Ends known (parse c m l) fun _ => True
  | m, .null, _ => by rw [parse]; exact .pure trivial
  | m, .object entries, hm => by rw [parse]; exact ends_parseEntries h m empty entries hm
  | _, .bool _, _ => .ordinary rfl
  | _, .int _, _ => .ordinary rfl
  | _, .float _, _ => .ordinary rfl
  | _, .string _, _ => .ordinary rfl
  | _, .enum _, _ => .ordinary rfl
  | _, .list _, _ => .ordinary rfl

theorem ends_parseMany (h : c.Covers S known) : ∀ (m : ModelId) (l : Literal), S m →
    Ends known (parseMany c m l) fun _ => True
  | _, .null, _ => by rw [parseMany]; exact .pure trivial
  | m, .list items, hm => by rw [parseMany]; exact ends_parseItems h m items hm
  | m, .object entries, hm => by
    rw [parseMany]
    exact (ends_parseEntries h m empty entries hm).bind fun _ _ _ => .pure trivial
  | _, .bool _, _ => .ordinary rfl
  | _, .int _, _ => .ordinary rfl
  | _, .float _, _ => .ordinary rfl
  | _, .string _, _ => .ordinary rfl
  | _, .enum _, _ => .ordinary rfl

theorem ends_parseItems (h : c.Covers S known) : ∀ (m : ModelId) (items : List Literal), S m →
    Ends known (parseItems c m items) fun _ => True
  | _, [], _ => by rw [parseItems]; exact .pure trivial
  | m, l :: rest, hm => by
    rw [parseItems]
    exact (ends_parse h m l hm).bind fun _ _ _ =>
      (ends_parseItems h m rest hm).bind fun _ _ _ => .pure trivial

theorem ends_parseEntries (h : c.Covers S known) : ∀ (m : ModelId) (f : FilterExpr)
    (entries : List (String × Literal)), S m → Ends known (parseEntries c m f entries) fun _ => True
  | _, _, [], _ => by rw [parseEntries]; exact .pure trivial
  | m, f, (key, value) :: rest, hm => by
    rw [parseEntries]
    split_ifs
    · exact (ends_parseMany h m value hm).bind fun _ _ _ => ends_parseEntries h m _ rest hm
    · exact (ends_parseMany h m value hm).bind fun _ _ _ => ends_parseEntries h m _ rest hm
    · exact ends_parseEntries h m f rest hm
    · exact (ends_parse h m value hm).bind fun _ _ _ => ends_parseEntries h m _ rest hm
    · refine (ends_filterable h hm).bind fun p _ htarget => ?_
      cases hp : p.target with
      | none =>
        exact (ends_parsePredicate key value).bind fun _ _ _ => ends_parseEntries h m _ rest hm
      | some target =>
        refine Ends.bind (P := fun _ => True) ?_ fun _ _ _ => ends_parseEntries h m _ rest hm
        exact (ends_parse h target value (htarget target hp)).map

end

theorem ends_predicateCondition (column : Column) (op : FilterOperator) (operand : Datum) :
    Ends known (predicateCondition column op operand) fun _ => True := by
  unfold predicateCondition
  cases operand <;> cases op <;> first | exact .pure trivial | exact .ordinary rfl

theorem ends_compilePredicate (h : c.Covers S known) (hm : S m) (table property : String)
    (op : FilterOperator) (operand : Literal) :
    Ends known (compilePredicate c m table property op operand) fun _ => True :=
  (Catalog.ends_property h hm).bind fun _ _ _ =>
    Ends.bind (P := fun _ => True) (.elim rfl fun _ _ => trivial) fun kind _ _ =>
      (Datum.ends_ofLiteral kind operand).bind fun _ _ _ => ends_predicateCondition _ op _

section Compile

variable {maxDepth depth : Nat} {table : String}

theorem ends_compileFields {fields : List FieldFilter}
    (hfields : ∀ x ∈ fields, Ends known (compileField c maxDepth m table depth x) fun _ => True) :
    Ends known (compileFields c maxDepth m table depth fields) fun _ => True := by
  induction fields with
  | nil => exact .pure trivial
  | cons x rest ih =>
    rw [compileFields]
    exact (hfields x List.mem_cons_self).bind fun _ _ _ =>
      (ih fun y hy => hfields y (List.mem_cons_of_mem x hy)).bind fun _ _ _ => .pure trivial

theorem ends_compileAll {filters : List FilterExpr}
    (hfilters : ∀ g ∈ filters, Ends known (compileAt c maxDepth m table depth g) fun _ => True)
    (earlier : List FilterExpr) :
    Ends known (compileAll c maxDepth m table depth earlier filters) fun _ => True := by
  induction filters generalizing earlier with
  | nil => exact .pure trivial
  | cons g rest ih =>
    have hrest := ih fun g' hg' => hfilters g' (List.mem_cons_of_mem g hg')
    rw [compileAll]
    split_ifs
    · exact hrest earlier
    · exact (hfilters g List.mem_cons_self).bind fun _ _ _ =>
        (hrest _).bind fun _ _ _ => .pure trivial

/-- Compiling a filter finds no other faults, whatever its form: what it looks up belongs to models
that relations lead to. -/
theorem ends_compileAt (h : c.Covers S known) (hm : S m) (f : FilterExpr) :
    Ends known (compileAt c maxDepth m table depth f) fun _ => True := by
  induction f using nested_induction generalizing m table depth with
  | step fields conjuncts alternatives negated ihfields ihall ihany ihnot =>
    have hfield : ∀ x ∈ fields, Ends known (compileField c maxDepth m table depth x)
        fun _ => True := by
      intro x hx
      cases x with
      | predicate property op operand => exact ends_compilePredicate h hm table property op operand
      | relation property target g =>
        rw [compileField]
        split_ifs
        · exact .ordinary rfl
        · exact (Catalog.ends_relation h hm).bind fun r _ hr =>
            (ihfields property target g hx hr).bind fun _ _ _ => .pure trivial
    have hfields := ends_compileFields hfield
    have hall : ∀ earlier, Ends known (compileAll c maxDepth m table depth earlier conjuncts)
        fun _ => True := ends_compileAll fun g hg => ihall g hg hm
    have hany : ∀ earlier, Ends known (compileAll c maxDepth m table depth earlier alternatives)
        fun _ => True := ends_compileAll fun g hg => ihany g hg hm
    cases negated with
    | none =>
      rw [compileAt]
      exact hfields.bind fun _ _ _ => (hall []).bind fun _ _ _ => (hany []).bind fun _ _ _ =>
        .pure trivial
    | some g =>
      rw [compileAt]
      exact hfields.bind fun _ _ _ => (hall []).bind fun _ _ _ => (hany []).bind fun _ _ _ =>
        (ihnot g rfl hm).bind fun _ _ _ => .pure trivial

end Compile

end FilterExpr

theorem Query.ends_restrict (h : c.Covers S known) (hm : S m) (maxDepth : Nat) (f : FilterExpr)
    (q : Query) : Ends known (q.restrict c maxDepth m f) fun _ => True := by
  have hcompile : Ends known (f.compile c maxDepth m) fun _ => True :=
    (Catalog.ends_table h hm).bind fun _ _ _ => FilterExpr.ends_compileAt h hm f
  exact hcompile.bind fun _ _ _ => .pure trivial

namespace OrderExpr

theorem ends_directionParse (l : Literal) : Ends known (Direction.parse l) fun _ => True := by
  unfold Direction.parse
  split
  · exact .ordinary rfl
  · dsimp only
    split_ifs
    · exact .pure trivial
    · exact .pure trivial
    · exact .ordinary rfl

theorem ends_parseField (property : String) (value : Literal) :
    Ends known (parseField property value) fun _ => True := by
  unfold parseField
  dsimp only
  split
  · exact .ordinary rfl
  · exact (ends_directionParse _).bind fun _ _ _ => .pure trivial

theorem ends_orderable (h : c.Covers S known)
    (hmany : ∀ property, known (.badInput (.orderByMany property))) (hm : S m) (property : String) :
    Ends known (orderable c m property) fun target => ∀ t, target = some t → S t := by
  refine (Catalog.ends_property h hm).bind fun p hp _ => ?_
  split
  · exact .ordinary rfl
  · cases htarget : p.target with
    | none => exact .pure fun _ ht => nomatch ht
    | some target =>
      dsimp only
      split_ifs
      · exact .fail (hmany property)
      · exact .pure fun t ht => h.closed m property p t hm hp (htarget.trans ht)

mutual

/-- Reading an order finds no other faults, if it may find relations to many. -/
theorem ends_parse (h : c.Covers S known)
    (hmany : ∀ property, known (.badInput (.orderByMany property))) : ∀ (m : ModelId) (l : Literal),
    S m → Ends known (parse c m l) fun _ => True
  | _, .null, _ => .pure trivial
  | m, .object entries, hm => by
    rw [parse]
    split_ifs
    · exact ends_parsePresent h hmany m entries hm
    · exact .ordinary rfl
  | _, .bool _, _ => .ordinary rfl
  | _, .int _, _ => .ordinary rfl
  | _, .float _, _ => .ordinary rfl
  | _, .string _, _ => .ordinary rfl
  | _, .enum _, _ => .ordinary rfl
  | _, .list _, _ => .ordinary rfl

theorem ends_parsePresent (h : c.Covers S known)
    (hmany : ∀ property, known (.badInput (.orderByMany property))) : ∀ (m : ModelId)
    (entries : List (String × Literal)), S m → Ends known (parsePresent c m entries) fun _ => True
  | _, [], _ => .pure trivial
  | m, (property, value) :: rest, hm => by
    rw [parsePresent]
    split_ifs
    · exact ends_parsePresent h hmany m rest hm
    · refine (ends_orderable h hmany hm property).bind fun target _ htarget => ?_
      cases target with
      | none => exact (ends_parseField property value).bind fun _ _ _ => .pure trivial
      | some target =>
        refine (ends_parse h hmany target value (htarget target rfl)).bind fun order _ _ => ?_
        cases order with
        | none => exact .ordinary rfl
        | some order => exact .pure trivial

end

/-- The relations of an order lead to models among some. -/
def Among (S : ModelId → Prop) : OrderExpr → Prop
  | field _ _ => True
  | relation _ target order => S target ∧ order.Among S

theorem among_of_read (h : c.Covers S known) (hm : S m) {order : OrderExpr}
    (hread : order.Read c m) : order.Among S := by
  induction order generalizing m with
  | field property direction => exact trivial
  | relation property target order ih =>
    obtain ⟨⟨p, hp, -, -, htarget⟩, hrest⟩ := hread
    have hS := h.closed m property p target hm hp htarget
    exact ⟨hS, ih hS hrest⟩

/-- An order applies without finding other faults. Where it was read on the model itself, its
relations lead to one entity, so that they can be joined. -/
theorem ends_applyAt (h : c.Covers S known) {order : OrderExpr} (horder : order.Among S)
    (hjoins : Tolerant known ∨ order.Read c m) (maxDepth : Nat) (q : Query) (hm : S m)
    (table : String) (depth : Nat) :
    Ends known (order.applyAt c maxDepth q m table depth) fun _ => True := by
  induction order generalizing q m table depth with
  | field property direction => exact .pure trivial
  | relation property target order ih =>
    rw [applyAt]
    split_ifs
    · exact .ordinary rfl
    · refine (Catalog.ends_relation h hm).bind fun r hr _ => ?_
      split
      next hjoin =>
        rcases hjoins with ht | ⟨⟨p, hp, -, hone, htarget⟩, -⟩
        · exact .fail (ht _ rfl)
        · obtain ⟨join, hsome⟩ := exists_joinAlong (isToOne_of_relation hp htarget hone hr) table
          cases hjoin.symm.trans hsome
      · exact ih horder.2 (hjoins.imp_right fun hread => hread.2) _ horder.1 _ _

end OrderExpr

namespace ListArgs

/-- The order of a list was read on a model. -/
def Read (c : Catalog) (m : ModelId) (args : ListArgs) : Prop :=
  ∀ order, args.order = some order → order.Read c m

/-- The order of a list applies to queries on a model without finding other faults. -/
def Sorts (c : Catalog) (known : Error → Prop) (m : ModelId) (args : ListArgs) : Prop :=
  ∀ order, args.order = some order → ∀ maxDepth q,
    Ends known (Query.sort c maxDepth m order q) fun _ => True

theorem sorts_none : ListArgs.none.Sorts c known m :=
  fun _ h => nomatch h

/-- An order applies to queries on the model that it was read on, and to queries on others if
internal errors do not matter. -/
theorem Read.sorts (h : c.Covers S known) {args : ListArgs} (hread : args.Read c m) (hm : S m)
    {m' : ModelId} (hm' : S m') (hsame : Tolerant known ∨ m' = m) : args.Sorts c known m' := by
  intro order horder maxDepth q
  have hamong := OrderExpr.among_of_read h hm (hread order horder)
  have hjoins : Tolerant known ∨ order.Read c m' := by
    refine hsame.imp_right ?_
    rintro rfl
    exact hread order horder
  exact (Catalog.ends_table h hm').bind fun _ _ _ =>
    OrderExpr.ends_applyAt h hamong hjoins _ _ hm' _ _

theorem ends_parseCount (name : String) (l : Option Literal) :
    Ends known (parseCount name l) fun _ => True := by
  unfold parseCount
  split
  · exact .pure trivial
  · exact .pure trivial
  · split_ifs
    · exact .ordinary rfl
    · exact .pure trivial
  · exact .ordinary rfl
  · exact .ordinary rfl

/-- Reading the arguments of a list finds no other faults, if it may find relations to many. -/
theorem ends_parse_of_many (h : c.Covers S known)
    (hmany : ∀ property, known (.badInput (.orderByMany property))) (hm : S m)
    (args : List (String × Literal)) : Ends known (parse c m args) (Read c m) := by
  have horder : ∀ l, Ends known (OrderExpr.parse c m l) fun read =>
      ∀ order, read = some order → order.Read c m := by
    refine fun l => (OrderExpr.ends_parse h hmany m l hm).mono ?_
    rintro _ hread _ order rfl
    exact OrderExpr.read_of_parse hread
  have hwindow : ∀ (filter : Option FilterExpr) (order : Option OrderExpr),
      (∀ o, order = some o → o.Read c m) → Ends known (do
        let limit ← parseCount "limit" (args.lookup "limit")
        let offset ← parseCount "offset" (args.lookup "offset")
        return (⟨filter, order, limit, offset⟩ : ListArgs)) (Read c m) := fun _ _ hread =>
    (ends_parseCount _ _).bind fun _ _ _ => (ends_parseCount _ _).bind fun _ _ _ => .pure hread
  unfold parse
  cases args.lookup "order" with
  | none =>
    cases args.lookup "filter" with
    | none => exact hwindow .none .none fun _ ho => nomatch ho
    | some l =>
      exact (FilterExpr.ends_parse h m l hm).bind fun _ _ _ =>
        hwindow _ .none fun _ ho => nomatch ho
  | some o =>
    cases args.lookup "filter" with
    | none => exact (horder o).bind fun order _ hread => hwindow .none order hread
    | some l =>
      exact (FilterExpr.ends_parse h m l hm).bind fun _ _ _ =>
        (horder o).bind fun order _ hread => hwindow _ order hread

/-- Reading the arguments of a list finds no other faults, if the relations to many that it finds in
the order are known. -/
theorem ends_parse (h : c.Covers S known) (hm : S m) (args : List (String × Literal))
    (hmany : ∀ property, parse c m args = .error (.badInput (.orderByMany property)) →
      known (.badInput (.orderByMany property))) :
    Ends known (parse c m args) (Read c m) := by
  let many (e : Error) : Prop := ∃ property, e = .badInput (.orderByMany property)
  have h' : c.Covers S fun e => many e ∨ known e := h.mono fun _ => .inr
  refine (ends_parse_of_many h' (fun property => .inl ⟨property, rfl⟩) hm args).sharpen ?_
  rintro _ herror ⟨property, rfl⟩
  exact hmany property herror

/-- Restricting a query finds no other faults. -/
theorem ends_refine (h : c.Covers S known) (hm : S m) (maxDepth : Nat) {args : ListArgs}
    (hargs : args.Sorts c known m) (q : Query) :
    Ends known (args.refine c maxDepth m q) fun _ => True := by
  rw [refine_eq_bind]
  refine Ends.bind (P := fun _ => True) ?_ fun q _ _ => ?_
  · cases args.filter with
    | none => exact .pure trivial
    | some f => exact Query.ends_restrict h hm maxDepth f q
  · cases horder : args.order with
    | none => exact .pure trivial
    | some order => exact hargs order horder maxDepth q

end ListArgs

namespace Changes

/-- The properties of a model that inputs may set are scalars and relations. -/
def Settable (c : Catalog) (m : ModelId) : Prop :=
  ∀ name p, writable c m name = .ok p →
    (∃ kind, p.type = .scalar kind) ∨ ∃ target, p.type = .model target

theorem ends_keys (property : String) (l : Literal) :
    Ends known (keys property l) fun _ => True := by
  have hkey : ∀ l, Ends known (key property l) fun _ => True := fun l =>
    .elim rfl fun _ _ => trivial
  unfold keys
  split
  · exact .pure trivial
  · exact .mapM fun l _ => hkey l
  · exact (hkey l).bind fun _ _ _ => .pure trivial

theorem ends_writable (h : c.Covers S known) (hm : S m) :
    Ends known (writable c m name) fun _ => True := by
  refine (Catalog.ends_property h hm).bind fun p _ _ => ?_
  split_ifs
  · exact .ordinary rfl
  · exact .pure trivial

theorem ends_put (h : c.Covers S known) (hm : S m) (changes : Changes) {p : Property}
    (hp : (∃ kind, p.type = .scalar kind) ∨ ∃ target, p.type = .model target) (value : Literal) :
    Ends known (changes.put c m p value) fun _ => True := by
  unfold put
  rcases hp with ⟨kind, htype⟩ | ⟨target, htype⟩
  · rw [htype]
    exact (Datum.ends_ofLiteral kind value).bind fun _ _ _ => .pure trivial
  · rw [htype]
    refine (Catalog.ends_relation h hm).bind fun r _ _ =>
      (ends_keys p.name value).bind fun targets _ _ => ?_
    split <;> exact .pure trivial

/-- Splitting an input finds no other faults, where its properties can be set. -/
theorem ends_parse (h : c.Covers S known) (hm : S m) (hset : Settable c m) (skipNulls : Bool)
    (input : Literal) : Ends known (parse c m skipNulls input) fun _ => True := by
  unfold parse
  split
  · refine .foldlM (fun changes _ entry _ => ?_) trivial
    refine (ends_writable h hm).bind fun p hp _ => ?_
    split_ifs
    · exact .pure trivial
    · exact ends_put h hm changes (hset _ p hp) entry.2
  · exact .ordinary rfl

end Changes

end

end EntityGraph
