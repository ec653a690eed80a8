import Mathlib.Data.List.Nodup
import EntityGraph.Proofs.Annotations.Line

/-!
# Reading blocks

Reading a block inverts writing it: every block that describes given properties in some notation is
read as these properties, and the canonical block of properties that were read is read as the same.

* `parse_eq_ok` says when a block is read;
* `parse_of_writes` and `wellFormed_of_parse` are the two directions;
* `writes_canonical`: canonical blocks follow the grammar;
* `parse_inverts_writing` is the result.
-/

namespace EntityGraph.Annotations

variable {m : ModelId} {known : ModelId → Bool} {p : Property} {ps : List Property}

/-! ### Blocks -/

/-- A property may follow others if none of them has its name. -/
theorem nodup_concat {before : List Property} (h : (before.map (·.name)).Nodup) :
    ((before ++ [p]).map (·.name)).Nodup ↔ ¬ before.any (·.name == p.name) = true := by
  rw [List.map_append, List.map_singleton, List.nodup_append]
  simp only [h, List.nodup_singleton, List.mem_singleton, forall_eq, true_and, List.any_eq_true,
    beq_iff_eq, not_exists, not_and, List.mem_map, forall_exists_index, and_imp,
    forall_apply_eq_imp_iff₂, ne_eq]

/-- Lines are read one by one, and the names of the properties are distinct. -/
theorem parseLines_eq_ok {before : List Property} {lines : List (List Char)}
    (hbefore : (before.map (·.name)).Nodup) :
    parseLines m known before lines = .ok ps ↔
      ∃ new, List.Forall₂ (fun line p => parseLine m known line = .ok p) lines new ∧
        ps = before ++ new ∧ (ps.map (·.name)).Nodup := by
  -- on the lines, for any properties that were read before them
  induction lines generalizing before with
  | nil =>
    simp only [parseLines, Except.ok.injEq, List.forall₂_nil_left_iff]
    constructor
    · rintro rfl
      exact ⟨[], rfl, (List.append_nil _).symm, hbefore⟩
    · rintro ⟨_, rfl, rfl, -⟩
      exact (List.append_nil _).symm
  | cons line lines ih =>
    rw [parseLines]
    simp only [List.forall₂_cons_left_iff]
    cases hline : parseLine m known line with
    | error fault => simp
    | ok p =>
      dsimp only
      by_cases hdup : before.any (·.name == p.name) = true
      · rw [if_pos hdup]
        constructor
        · intro h
          cases h
        · rintro ⟨_, ⟨q, new, hq, -, rfl⟩, rfl, hdistinct⟩
          cases hq
          refine absurd hdup ((nodup_concat hbefore).1 (hdistinct.sublist ?_))
          exact ((List.singleton_sublist.2 List.mem_cons_self).append_left before).map _
      · rw [if_neg hdup, ih ((nodup_concat hbefore).2 hdup)]
        constructor
        · rintro ⟨new, hnew, rfl, hdistinct⟩
          exact ⟨p :: new, ⟨p, new, rfl, hnew, rfl⟩, List.append_assoc _ _ _, hdistinct⟩
        · rintro ⟨_, ⟨q, new, hq, hnew, rfl⟩, rfl, hdistinct⟩
          cases hq
          exact ⟨new, hnew, (List.append_assoc before [p] new).symm, hdistinct⟩

/-- A block is read line by line, and the names of its properties are distinct. -/
theorem parse_eq_ok {block : String} :
    parse m known block = .ok ps ↔
      List.Forall₂ (fun line p => parseLine m known line = .ok p) (propertyLines block.toList) ps ∧
        (ps.map (·.name)).Nodup := by
  have hnone : (([] : List Property).map (·.name)).Nodup := List.nodup_nil
  rw [parse, parseLines_eq_ok hnone]
  simp only [List.nil_append]
  constructor
  · rintro ⟨_, h, rfl, hdistinct⟩
    exact ⟨h, hdistinct⟩
  · rintro ⟨h, hdistinct⟩
    exact ⟨ps, h, rfl, hdistinct⟩

/-- The lines of a written block are read as its properties. -/
theorem forall₂_of_writesLines {lines : List (List Char)} (h : WritesLines m ps lines)
    (hps : ∀ p ∈ ps, p.WellFormed known) :
    List.Forall₂ (fun line p => parseLine m known line = .ok p)
      ((lines.map uncomment).filter ("@property".toList.isPrefixOf ·)) ps := by
  induction h with
  | nil => exact .nil
  | property h _ ih =>
    obtain ⟨hp, hps⟩ := List.forall_mem_cons.1 hps
    obtain ⟨hstart, hline⟩ := parseLine_of_writes hp h
    rw [List.map_cons, List.filter_cons_of_pos (by simpa using hstart)]
    exact .cons hline (ih hps)
  | other h _ ih =>
    have hstart := isPropertyLine_iff.not.1 h
    rw [List.map_cons, List.filter_cons_of_neg (by simpa using hstart)]
    exact ih hps

theorem parse_of_writes {block : String} (hps : WellFormed known ps) (h : Writes m ps block) :
    parse m known block = .ok ps :=
  parse_eq_ok.2 ⟨forall₂_of_writesLines h hps.each, hps.distinct⟩

/-- The models that a block leads to are known. -/
theorem known_of_parse {block : String} (h : parse m known block = .ok ps) (hp : p ∈ ps)
    {target : ModelId} (htype : p.type = .model target) : known target = true := by
  obtain ⟨line, -, hline⟩ := exists_of_forall₂_right (parse_eq_ok.1 h).1 hp
  obtain ⟨element, helement⟩ := exists_parseElement hline
  exact ((of_parseElement helement).1 target htype).1

/-- The properties of a block that is read are well-formed, and canonical blocks can name the models
among their types. -/
theorem wellFormed_of_parse {block : String} (h : parse m known block = .ok ps)
    (hpath : ∀ target, known target = true → ModelId.IsPath target.path.toList) :
    WellFormed known ps ∧
      ∀ p ∈ ps, ∀ target, p.type = .model target → target.Spaced ∨ m.space = "" := by
  obtain ⟨hlines, hdistinct⟩ := parse_eq_ok.1 h
  have hall : ∀ p ∈ ps, p.WellFormed known ∧
      ∀ target, p.type = .model target → target.Spaced ∨ m.space = "" := fun p hp => by
    obtain ⟨line, -, hline⟩ := exists_of_forall₂_right hlines hp
    exact wellFormed_of_parseLine hline hpath
  exact ⟨⟨fun p hp => (hall p hp).1, hdistinct⟩, fun p hp => (hall p hp).2⟩

/-! ### Canonical blocks -/

section Canonical

variable (hname : ∀ target, p.type = .model target → target.Spaced ∨ m.space = "")

include hname in
theorem writesElement_canonicalElement : WritesElement m p.type (canonicalElement p.type) := by
  generalize p.type = type at hname
  cases type with
  | scalar kind =>
    refine .scalar ?_
    cases kind <;> decide
  | model target => exact .model (.absolute (hname target rfl))
  | untypedArray => exact .untypedArray (by decide)
  | unsupported name => exact .unsupported name

include hname in
theorem writesType_canonicalType : WritesType m p (canonicalType p) := by
  refine ⟨canonicalElement p.type, canonicalElement p.type ++ if p.isList then "[]".toList else [],
    writesElement_canonicalElement hname, ?_, ?_⟩
  · cases p.isList with
    | false =>
      rw [if_neg (by simp), List.append_nil]
      exact .single
    | true => exact .brackets
  · rw [canonicalType]
    cases p.nullable with
    | false => exact .plain
    | true => exact .marked

include hname in
theorem solid_canonicalType (hp : p.WellFormed known) :
    canonicalType p ≠ [] ∧ Text.Solid (canonicalType p) := by
  have hplain := plain_of_writesElement hp (writesElement_canonicalElement (m := m) hname)
  have hmark : Text.Solid (if p.nullable then "?".toList else []) := by split_ifs <;> decide
  have hbrackets : Text.Solid (if p.isList then "[]".toList else []) := by split_ifs <;> decide
  constructor
  · rw [canonicalType]
    exact List.append_ne_nil_of_right_ne_nil _ (List.append_ne_nil_of_left_ne_nil hplain.1 _)
  · exact List.forall_mem_append.2
      ⟨hmark, List.forall_mem_append.2 ⟨solid_of_plain hplain, hbrackets⟩⟩

theorem mem_flagWords {flag : String × (Property → Bool)} (hflag : flag ∈ flags) :
    flag.2 p = true ↔ flag.1.toList ∈ (flags.filter (·.2 p)).map (·.1.toList) := by
  have hdistinct : (flags.map (·.1.toList)).Nodup := by decide
  rw [List.mem_map]
  constructor
  · exact fun h => ⟨flag, List.mem_filter.2 ⟨hflag, h⟩, rfl⟩
  · rintro ⟨other, hother, heq⟩
    obtain ⟨hin, h⟩ := List.mem_filter.1 hother
    rwa [List.inj_on_of_nodup_map hdistinct hin hflag heq] at h

include hname in
theorem solid_canonicalWords (hp : p.WellFormed known) :
    ∀ word ∈ canonicalWords p, word ≠ [] ∧ Text.Solid word := by
  have hflags : ∀ flag ∈ flags, flag.1.toList ≠ [] ∧ Text.Solid flag.1.toList := by decide
  rw [canonicalWords]
  simp only [List.forall_mem_cons]
  refine ⟨?_, solid_canonicalType hname hp, ⟨List.cons_ne_nil _ _, ?_⟩, ?_⟩
  · cases p.visibility <;> decide
  · exact List.forall_mem_cons.2 ⟨by decide, hp.name.2⟩
  · rw [List.forall_mem_map]
    exact fun flag hflag => hflags flag (List.mem_of_mem_filter hflag)

include hname in
theorem writesLine_canonicalWords (hp : p.WellFormed known) :
    WritesLine m p (Text.unwords (canonicalWords p)) := by
  refine ⟨Text.unwords (canonicalWords p), canonicalType p,
    (flags.filter (·.2 p)).map (·.1.toList), ⟨[], 0, 0, Text.blank_nil, rfl⟩, ?_,
    writesType_canonicalType hname, fun _ => mem_flagWords⟩
  exact Text.words_unwords (solid_canonicalWords hname hp)

include hname in
/-- The words of a property make one line. -/
theorem not_mem_canonicalWords (hp : p.WellFormed known) {c : Char} (hblank : Text.isBlank c = true)
    (hc : c ≠ ' ') : c ∉ Text.unwords (canonicalWords p) := fun hin => by
  rcases Text.mem_of_mem_intercalate hin with heq | ⟨word, hword, hin⟩
  · exact hc heq
  · exact (solid_canonicalWords hname hp word hword).2.not_mem hblank hin

end Canonical

theorem writes_canonical (hps : WellFormed known ps)
    (hname : ∀ p ∈ ps, ∀ target, p.type = .model target → target.Spaced ∨ m.space = "") :
    Writes m ps (canonical ps) := by
  have hlines : Text.lines (canonical ps).toList
      = ps.map fun p => Text.unwords (canonicalWords p) := by
    rw [canonical, String.toList_ofList]
    refine Text.lines_unlines (List.forall_mem_map.2 fun p hp => ?_)
    have hp' := hps.each p hp
    exact ⟨not_mem_canonicalWords (hname p hp) hp' (by decide) (by decide),
      not_mem_canonicalWords (hname p hp) hp' (by decide) (by decide)⟩
  rw [Writes, hlines]
  have hall := fun p hp => writesLine_canonicalWords (hname p hp) (hps.each p hp)
  clear hlines hps hname
  induction ps with
  | nil => exact .nil
  | cons p ps ih =>
    obtain ⟨hp, hps⟩ := List.forall_mem_cons.1 hall
    exact .property hp (ih hps)

/-- Reading inverts writing. Any block that describes well-formed properties is read as these, in
order. Where models have paths of names, every block that is read describes well-formed properties,
and their canonical block is read as the same. -/
theorem parse_inverts_writing (m : ModelId) (known : ModelId → Bool) (ps : List Property) :
    (WellFormed known ps → ∀ block, Writes m ps block → parse m known block = .ok ps) ∧
      ((∀ target, known target = true → ModelId.IsPath target.path.toList) →
        ∀ block, parse m known block = .ok ps →
          WellFormed known ps ∧ parse m known (canonical ps) = .ok ps) := by
  refine ⟨fun hps block => parse_of_writes hps, fun hpath block h => ?_⟩
  -- a model that was reached from `m` can be named from `m`, so the canonical block is a writing
  obtain ⟨hps, hname⟩ := wellFormed_of_parse h hpath
  exact ⟨hps, parse_of_writes hps (writes_canonical hps hname)⟩

/-! ### A cart -/

/-- The time when a cart was opened, if it was. -/
def openedAt : Property :=
  { name := "opened_at", type := .scalar .dateTime, nullable := true, isList := false
    visibility := .default, computed := false, paginated := false, filterable := false
    orderable := false, eagerLoadDisabled := false }

/-- The orders of a cart. -/
def cartOrders : Property :=
  { name := "orders", type := .model ⟨"shop::Order"⟩, nullable := true, isList := true
    visibility := .readOnly, computed := false, paginated := true, filterable := true
    orderable := false, eagerLoadDisabled := false }

/-- A property of a cart that leads to one entity. -/
def cartLink (target : ModelId) (nullable : Bool) : Property :=
  { name := "link", type := .model target, nullable, isList := false
    visibility := .default, computed := false, paginated := false, filterable := false
    orderable := false, eagerLoadDisabled := false }

theorem parse_inverts_writing_cart :
    let known : ModelId → Bool := (· == ⟨"shop::Order"⟩)
    let block := "  /// A cart.\n* @property ?Carbon $opened_at since then\r\n" ++
      "\t@property-read array<Order>|NULL $orders @bogus @paginate @filterable"
    WellFormed known [openedAt, cartOrders] ∧ Writes ⟨"shop::Cart"⟩ [openedAt, cartOrders] block ∧
      (∀ target, known target = true → ModelId.IsPath target.path.toList) ∧
      parse ⟨"shop::Cart"⟩ known block = .ok [openedAt, cartOrders] ∧
      parse ⟨"shop::Cart"⟩ known (canonical [openedAt, cartOrders])
        = .ok [openedAt, cartOrders] := by
  intro known block
  have hpath : ∀ target, known target = true → ModelId.IsPath target.path.toList := by
    intro target htarget
    obtain rfl : target = ⟨"shop::Order"⟩ := by simpa [known] using htarget
    exact .within (s := "shop".toList) (by decide) (.name (s := "Order".toList) (by decide))
  have hopened : openedAt.WellFormed known := by
    refine ⟨by decide, by decide, ?_, ?_, ?_⟩ <;> intros <;> contradiction
  have horders : cartOrders.WellFormed known := by
    refine ⟨by decide, by decide, ?_, ?_, ?_⟩
    · rintro _ ⟨⟩
      exact ⟨by decide, hpath _ (by decide)⟩
    all_goals
      intros
      contradiction
  have hwell : WellFormed known [openedAt, cartOrders] :=
    ⟨by simpa using ⟨hopened, horders⟩, by decide⟩
  have hlines : Text.lines block.toList =
      ["  /// A cart.".toList, "* @property ?Carbon $opened_at since then".toList,
        "\t@property-read array<Order>|NULL $orders @bogus @paginate @filterable".toList] := by
    decide +kernel
  have hwrites : Writes ⟨"shop::Cart"⟩ [openedAt, cartOrders] block := by
    rw [Writes, hlines]
    refine .other (isPropertyLine_iff.not.2 (by decide)) (.property ?_ (.property ?_ .nil))
    · refine ⟨" @property ?Carbon $opened_at since then".toList, "?Carbon".toList,
        ["since".toList, "then".toList], ⟨[], 0, 1, by decide, by decide⟩, by decide, ?_, by decide⟩
      exact ⟨"Carbon".toList, "Carbon".toList, .scalar (by decide), .single, .marked⟩
    · refine ⟨"@property-read array<Order>|NULL $orders @bogus @paginate @filterable".toList,
        "array<Order>|NULL".toList, ["@bogus".toList, "@paginate".toList, "@filterable".toList],
        ⟨"\t".toList, 0, 0, by decide, by decide⟩, by decide, ?_, by decide⟩
      have hnames : NamesModel ⟨"shop::Cart"⟩ ⟨"shop::Order"⟩ "Order".toList :=
        @NamesModel.unqualified ⟨"shop::Cart"⟩ "Order".toList (by decide) (by decide)
      exact ⟨"Order".toList, "array<Order>".toList, .model hnames, .array,
        @WritesNullable.union _ [] [] ["NULL".toList] (.inl rfl) (by decide) (by decide)
          (by decide)⟩
  obtain ⟨hforth, hback⟩ := parse_inverts_writing ⟨"shop::Cart"⟩ known [openedAt, cartOrders]
  have hparse := hforth hwell block hwrites
  exact ⟨hwell, hwrites, hpath, hparse, (hback hpath block hparse).2⟩

theorem wellFormed_cartLink {target : ModelId} (nullable : Bool)
    (hpath : ModelId.IsPath target.path.toList) :
    WellFormed (· == target) [cartLink target nullable] := by
  have hname : "link" ≠ "" ∧ Text.Solid "link".toList := by decide
  have hplain : (cartLink target nullable).paginated ≠ true := Bool.false_ne_true
  refine ⟨List.forall_mem_singleton.2 ⟨hname, fun h => absurd h hplain, ?_, ?_, ?_⟩,
    List.nodup_singleton _⟩
  · rintro _ ⟨⟩
    exact ⟨beq_self_eq_true target, hpath⟩
  all_goals
    intros
    contradiction

/-- The names that the grammar leaves out. A model that is called like the word `null` is no type
beside alternatives, where the word stands for null. A model in no namespace has no name at all in
the namespace of the cart: `resolveModel` drops the two colons in front of it, which are there to
lead out of the namespace, before it looks for colons, and so qualifies the name after all. -/
theorem parse_unnameable :
    NamesModel ⟨"shop::Cart"⟩ ⟨"shop::Null"⟩ "Null".toList ∧
      WellFormed (· == ⟨"shop::Null"⟩) [cartLink ⟨"shop::Null"⟩ true] ∧
      parse ⟨"shop::Cart"⟩ (· == ⟨"shop::Null"⟩) "@property Null|null $link"
        = .error (.metadata ⟨"shop::Cart"⟩ "@property Null|null $link" .unionType) ∧
      WellFormed (· == ⟨"Book"⟩) [cartLink ⟨"Book"⟩ false] ∧
      parse ⟨"shop::Cart"⟩ (· == ⟨"Book"⟩) "@property ::Book $link"
        = .error (.metadata ⟨"shop::Cart"⟩ "@property ::Book $link" (.unknownType "::Book")) := by
  refine ⟨@NamesModel.unqualified ⟨"shop::Cart"⟩ "Null".toList (by decide) (by decide), ?_, rfl,
    ?_, rfl⟩
  · exact wellFormed_cartLink true
      (.within (s := "shop".toList) (by decide) (.name (s := "Null".toList) (by decide)))
  · exact wellFormed_cartLink false (.name (s := "Book".toList) (by decide))

end EntityGraph.Annotations
