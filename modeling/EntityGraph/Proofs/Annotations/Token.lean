import EntityGraph.Proofs.Annotations.Grammar
import EntityGraph.Proofs.Outcome

/-!
# Reading types

A type is read back from each of its notations. The notations nest, and each reader takes off one
layer: the marks of the outer layers do not occur inside, because an element is `Plain`.

* `parseNullable_of_writes`, `parseList_of_writes` and `parseElement_of_writes` read one layer each;
* `parseType_of_writes` reads a type;
* `nameable_resolveModel` says which models can be reached at all.
-/

namespace EntityGraph.Annotations

variable {m : ModelId} {known : ModelId → Bool} {p : Property}

/-! ### Plain texts -/

/-- A text of names and colons. -/
def Plain (s : List Char) : Prop :=
  s ≠ [] ∧ ∀ c ∈ s, ModelId.isNameChar c = true ∨ c = ':'

theorem Plain.not_mem {s : List Char} (h : Plain s) {c : Char} (hc : ModelId.isNameChar c = false)
    (hcolon : c ≠ ':') : c ∉ s := fun hmem => by
  rcases h.2 c hmem with hname | rfl
  · rw [hc] at hname
    cases hname
  · exact hcolon rfl

theorem solid_of_plain {s : List Char} (h : Plain s) : Text.Solid s := fun c hc => by
  rcases h.2 c hc with hname | rfl
  · simp only [ModelId.isNameChar, Bool.and_eq_true, Bool.not_eq_true'] at hname
    exact hname.1
  · rfl

theorem plain_of_isName {s : List Char} (h : ModelId.IsName s) : Plain s :=
  ⟨h.1, fun c hc => .inl (h.2 c hc)⟩

theorem Plain.colons {s : List Char} (h : Plain s) : Plain ("::".toList ++ s) :=
  ⟨List.cons_ne_nil _ _,
    List.forall_mem_append.2 ⟨fun c hc => .inr (by simpa using hc), h.2⟩⟩

theorem Plain.append {s t : List Char} (hs : Plain s) (ht : Plain t) : Plain (s ++ t) :=
  ⟨List.append_ne_nil_of_left_ne_nil hs.1 t, List.forall_mem_append.2 ⟨hs.2, ht.2⟩⟩

theorem plain_of_isPath {s : List Char} (h : ModelId.IsPath s) : Plain s := by
  induction h with
  | name h => exact plain_of_isName h
  | within h _ ih =>
    rw [List.append_assoc]
    exact (plain_of_isName h).append ih.colons

/-- A path starts with a name. -/
theorem not_colons_of_isPath {s : List Char} (h : ModelId.IsPath s) : ¬ "::".toList <+: s := by
  have hname : ∀ s rest : List Char, ModelId.IsName s → ¬ "::".toList <+: s ++ rest := by
    intro s rest hs hstart
    obtain ⟨c, t, rfl⟩ := List.exists_cons_of_ne_nil hs.1
    obtain ⟨rfl, -⟩ := List.cons_prefix_cons.1 hstart
    exact absurd (hs.2 ':' List.mem_cons_self) (by decide)
  cases h with
  | name h => simpa using hname s [] h
  | within h _ =>
    rw [List.append_assoc]
    exact hname _ _ h

/-- Only letters have a small form of their own. -/
theorem toLower_eq_or (c : Char) : c.toLower = c ∨ ModelId.isNameChar c = true := by
  by_cases h : c.val ≥ 'A'.val ∧ c.val ≤ 'Z'.val
  · right
    have hlow : 65 ≤ c.toNat := UInt32.le_iff_toNat_le.1 h.1
    have hhigh : c.toNat ≤ 90 := UInt32.le_iff_toNat_le.1 h.2
    have hblank : Text.isBlank c = false := by
      simp [Text.isBlank]
      omega
    have hmark : ModelId.typeMarks.contains c = false := by
      rw [Bool.eq_false_iff, ne_eq, List.contains_iff_mem]
      intro hc
      have hall : ModelId.typeMarks.all (fun d => d.toNat < 65 || 90 < d.toNat) = true := by
        decide
      have := List.all_eq_true.1 hall c hc
      simp only [Bool.or_eq_true, decide_eq_true_eq] at this
      omega
    rw [ModelId.isNameChar, hblank, hmark]
    rfl
  · exact .inl (dif_neg h)

/-- The reserved words are names. -/
theorem isName_of_reserved {word : List Char} (h : small word ∈ reserved) : ModelId.IsName word := by
  have hall : ∀ w ∈ reserved, ModelId.IsName w.toList := by decide
  obtain ⟨hne, hchars⟩ := hall _ h
  rw [small, String.toList_ofList] at hne hchars
  refine ⟨?_, fun c hc => ?_⟩
  · rintro rfl
    exact hne rfl
  · rcases toLower_eq_or c with hlower | hname
    · rw [← hlower]
      exact hchars _ (List.mem_map_of_mem hc)
    · exact hname

theorem not_reserved_of_colon {word : List Char} (h : ':' ∈ word) : small word ∉ reserved :=
  fun hreserved => absurd ((isName_of_reserved hreserved).2 ':' h) (by decide)

/-! ### Elements -/

theorem scalarKind?_eq_some {word : List Char} {kind : ScalarKind} :
    scalarKind? word = some kind ↔ small word ∈ scalarWords kind := by
  unfold scalarKind? small
  dsimp only
  generalize String.ofList (Text.lowerAscii word) = w
  constructor
  · intro h
    split_ifs at h <;> cases h <;> simp only [scalarWords, List.mem_cons, List.not_mem_nil] <;>
      simp only [*, or_false]
  · intro h
    cases kind <;> simp only [scalarWords, List.mem_cons, List.not_mem_nil, or_false] at h <;>
      rcases h with rfl | rfl | rfl <;> rfl

theorem scalarKind?_eq_none {word : List Char}
    (h : small word ∉ ScalarKind.all.flatMap scalarWords) : scalarKind? word = none := by
  cases hkind : scalarKind? word with
  | none => rfl
  | some kind =>
    refine absurd (List.mem_flatMap.2 ⟨kind, ?_, scalarKind?_eq_some.1 hkind⟩) h
    cases kind <;> decide

theorem not_scalar_of_pseudo {word : List Char} (h : small word ∈ pseudoTypes) :
    small word ∉ ScalarKind.all.flatMap scalarWords := by
  have hall : ∀ w ∈ pseudoTypes, w ∉ ScalarKind.all.flatMap scalarWords := by decide
  exact hall _ h

theorem resolveModel_of_spaced {target : ModelId} (hpath : ModelId.IsPath target.path.toList)
    (h : target.Spaced ∨ m.space = "") (n : Nat) :
    resolveModel m (Text.copies "::".toList n ++ target.path.toList) = target := by
  rw [resolveModel, Text.stripAll_copies (by decide) (not_colons_of_isPath hpath)]
  split_ifs with hspaced
  · rw [String.ofList_toList]
  · have hspace : m.space = "" := h.resolve_left fun hin => hspaced (Text.occursIn_iff.2 hin)
    rw [hspace, String.ofList_toList]
    rfl

theorem resolveModel_of_isName {name : List Char} (h : ModelId.IsName name) :
    resolveModel m name = ModelId.of m.space (String.ofList name) := by
  rw [resolveModel, Text.stripAll_eq_self (not_colons_of_isPath (.name h))]
  refine if_neg fun hin => ?_
  have hcolon := (Text.occursIn_iff.1 hin).subset (List.mem_cons_self (a := ':'))
  exact absurd (h.2 ':' hcolon) (by decide)

theorem resolveModel_of_names {target : ModelId} {word : List Char} (h : NamesModel m target word)
    (hpath : ModelId.IsPath target.path.toList) : resolveModel m word = target := by
  cases h with
  | absolute h => exact resolveModel_of_spaced hpath h 1
  | qualified h => exact resolveModel_of_spaced hpath (.inl h) 0
  | unqualified hname _ => exact resolveModel_of_isName hname

/-- Whatever a word stands for, canonical blocks can name it. -/
theorem nameable_resolveModel (m : ModelId) (word : List Char) :
    (resolveModel m word).Spaced ∨ m.space = "" := by
  rw [resolveModel]
  split_ifs with hspaced
  · have hin := Text.occursIn_iff.1 hspaced
    rw [← String.toList_ofList (l := Text.stripAll "::".toList word)] at hin
    exact .inl hin
  · rw [ModelId.of]
    split_ifs with hspace
    · exact .inr (by simpa using hspace)
    · refine .inl ⟨m.space.toList, Text.stripAll "::".toList word, ?_⟩
      simp

theorem not_reserved_of_names {target : ModelId} {word : List Char} (h : NamesModel m target word) :
    small word ∉ reserved := by
  cases h with
  | absolute _ => exact not_reserved_of_colon List.mem_cons_self
  | qualified h => exact not_reserved_of_colon (h.subset List.mem_cons_self)
  | unqualified _ hfree => exact hfree

theorem plain_of_names {target : ModelId} {word : List Char} (h : NamesModel m target word)
    (hpath : ModelId.IsPath target.path.toList) : Plain word := by
  cases h with
  | absolute _ => exact (plain_of_isPath hpath).colons
  | qualified _ => exact plain_of_isPath hpath
  | unqualified hname _ => exact plain_of_isName hname

theorem plain_of_writesElement (hp : p.WellFormed known) {element : List Char}
    (h : WritesElement m p.type element) : Plain element := by
  generalize htype : p.type = type at h
  cases h with
  | @scalar kind word h =>
    have hkind : kind ∈ ScalarKind.all := by cases kind <;> decide
    exact plain_of_isName (isName_of_reserved
      (List.mem_append_left _ (List.mem_flatMap.2 ⟨kind, hkind, h⟩)))
  | model h => exact plain_of_names h (hp.model _ htype).2
  | untypedArray h =>
    refine plain_of_isName (isName_of_reserved (List.mem_append_right _ ?_))
    rw [h]
    decide
  | unsupported name =>
    exact plain_of_isName (isName_of_reserved
      (List.mem_append_right _ (hp.unsupported name htype).1))

theorem parseElement_of_not_scalar {element : List Char} {isList : Bool} (hne : element ≠ [])
    (h : small element ∉ ScalarKind.all.flatMap scalarWords) :
    parseElement m known element isList =
      if small element = "array" ∧ !isList then .ok .untypedArray
      else if small element ∈ pseudoTypes then .ok (.unsupported (String.ofList element))
      else if known (resolveModel m element) then .ok (.model (resolveModel m element))
      else .error (.unknownType (String.ofList element)) := by
  rw [parseElement, if_neg (by simpa using hne), scalarKind?_eq_none h]
  rfl

/-- An element is read from each of its notations. -/
theorem parseElement_of_writes (hp : p.WellFormed known) {element : List Char}
    (h : WritesElement m p.type element) :
    parseElement m known element p.isList = .ok p.type := by
  have hne := (plain_of_writesElement hp h).1
  generalize htype : p.type = type at h
  cases h with
  | scalar h => rw [parseElement, if_neg (by simpa using hne), scalarKind?_eq_some.2 h]
  | model h =>
    have hfree := not_reserved_of_names h
    rw [reserved, List.mem_append, not_or] at hfree
    have harray : small element ≠ "array" := fun heq => hfree.2 (by rw [heq]; decide)
    obtain ⟨hknown, hpath⟩ := hp.model _ htype
    rw [parseElement_of_not_scalar hne hfree.1, if_neg fun h => harray h.1, if_neg hfree.2,
      resolveModel_of_names h hpath, if_pos hknown]
  | untypedArray h =>
    have hpseudo : small element ∈ pseudoTypes := by rw [h]; decide
    rw [parseElement_of_not_scalar hne (not_scalar_of_pseudo hpseudo), hp.untypedArray htype]
    exact if_pos ⟨h, rfl⟩
  | unsupported name =>
    obtain ⟨hpseudo, hlist⟩ := hp.unsupported name htype
    rw [parseElement_of_not_scalar hne (not_scalar_of_pseudo hpseudo),
      if_neg fun h => by simp [hlist h.1] at h, if_pos hpseudo, String.ofList_toList]

/-! ### Lists and nullability -/

theorem stripStart?_of_not_mem {start s : List Char} {c : Char} (hc : c ∈ start) (hs : c ∉ s) :
    Text.stripStart? start s = none :=
  Text.stripStart?_eq_none.2 fun hin => hs (hin.subset hc)

theorem parseList_of_writes {element type : List Char} {isList : Bool} (helement : Plain element)
    (h : WritesList element isList type) : parseList type = .ok (element, isList) := by
  have hopen : '<' ∉ element := helement.not_mem (by decide) (by decide)
  have hbracket : ']' ∉ element := helement.not_mem (by decide) (by decide)
  have hend : ∀ {s : List Char}, ']' ∉ s → Text.stripEnd? "[]".toList s = none := fun hs =>
    Text.stripEnd?_eq_none.2 fun hin => hs (hin.subset (by decide))
  rw [parseList]
  cases h with
  | single =>
    rw [hend hbracket, stripStart?_of_not_mem (c := '<') (by decide) hopen,
      stripStart?_of_not_mem (c := '<') (by decide) hopen]
    rfl
  | brackets => rw [Text.stripEnd?_eq_some.2 rfl]
  | list =>
    rw [hend (by simp [hbracket]), Text.stripStart?_eq_some.2 (List.append_assoc _ _ _)]
    dsimp only [Option.or]
    rw [Text.stripEnd?_eq_some.2 rfl]
  | array =>
    rw [hend (by simp [hbracket]), Text.stripStart?_eq_some.2 (List.append_assoc _ _ _)]
    -- the reader tries the other word first
    have hlist : Text.stripStart? "list<".toList ("array<".toList ++ element ++ ">".toList)
        = none := rfl
    rw [hlist]
    dsimp only [Option.or]
    rw [Text.stripEnd?_eq_some.2 rfl]

/-- The marks of nullability do not occur in the notations for lists. -/
theorem not_mem_of_writesList {element type : List Char} {isList : Bool} (helement : Plain element)
    (h : WritesList element isList type) {c : Char} (hc : c = '?' ∨ c = '|') : c ∉ type := by
  have hin : c ∉ element := by
    rcases hc with rfl | rfl <;> exact helement.not_mem (by decide) (by decide)
  cases h <;> rcases hc with rfl | rfl <;> simp [hin]

theorem not_mem_of_isNull {word : List Char} (h : IsNull word) {c : Char}
    (hc : c = '?' ∨ c = '|') : c ∉ word := fun hin => by
  have hlower : c.toLower ∈ Text.lowerAscii word := List.mem_map_of_mem hin
  rw [h] at hlower
  rcases hc with rfl | rfl <;> exact absurd hlower (by decide)

/-- The marks of nullability occur in no alternative. -/
theorem not_mem_of_alternative {type : List Char} {before after : List (List Char)} {c : Char}
    (hc : c = '?' ∨ c = '|') (htype : c ∉ type) (hnull : ∀ word ∈ before ++ after, IsNull word) :
    ∀ part ∈ before ++ type :: after, c ∉ part := by
  intro part hpart
  rcases List.mem_cons.1 (List.perm_middle.mem_iff.1 hpart) with rfl | hother
  · exact htype
  · exact not_mem_of_isNull (hnull part hother) hc

/-- What `parseNullable` does behind a question mark, if there is one. -/
def readAlternatives (marked : Bool) (token : List Char) :
    Except AnnotationFault (List Char × Bool) :=
  let parts := Text.splitBy (· == '|') token
  if parts.length ≤ 1 then .ok (token, marked)
  else match parts.filter fun part => Text.lowerAscii part != "null".toList with
    | [single] => .ok (single, true)
    | _ => .error .unionType

theorem parseNullable_of_unmarked {token : List Char} (h : '?' ∉ token) :
    parseNullable token = readAlternatives false token := by
  have hstrip : Text.stripStart? "?".toList token = none :=
    stripStart?_of_not_mem (c := '?') (by decide) h
  rw [parseNullable, hstrip]
  rfl

theorem parseNullable_of_marked (token : List Char) :
    parseNullable ('?' :: token) = readAlternatives true token := rfl

theorem readAlternatives_single {type : List Char} (h : '|' ∉ type) (marked : Bool) :
    readAlternatives marked type = .ok (type, marked) := by
  have hparts : Text.splitBy (· == '|') type = [type] := by
    rw [Text.splitBy_eq_splitOnP]
    exact List.splitOn_eq_singleton h
  rw [readAlternatives, hparts]
  rfl

/-- Of a type and alternatives that are `null`, the type remains. -/
theorem readAlternatives_union {type : List Char} {before after : List (List Char)} (h : '|' ∉ type)
    (hnull : ∀ word ∈ before ++ after, IsNull word) (hsome : before ++ after ≠ [])
    (htype : ¬ IsNull type) (marked : Bool) :
    readAlternatives marked (['|'].intercalate (before ++ type :: after)) = .ok (type, true) := by
  obtain ⟨hbefore, hafter⟩ := List.forall_mem_append.1 hnull
  have hparts : Text.splitBy (· == '|') (['|'].intercalate (before ++ type :: after))
      = before ++ type :: after := by
    rw [Text.splitBy_eq_splitOnP]
    exact List.splitOn_intercalate '|' (not_mem_of_alternative (.inr rfl) h hnull) (by simp)
  have hmany : ¬ (before ++ type :: after).length ≤ 1 := by
    have hlength := List.length_pos_iff.2 hsome
    simp only [List.length_append, List.length_cons] at hlength ⊢
    omega
  have hdropped : ∀ {words : List (List Char)}, (∀ word ∈ words, IsNull word) →
      (words.filter fun part => Text.lowerAscii part != "null".toList) = [] := fun hwords =>
    List.filter_eq_nil_iff.2 fun word hword => by simpa [IsNull] using hwords word hword
  have hkept : ((before ++ type :: after).filter fun part =>
      Text.lowerAscii part != "null".toList) = [type] := by
    rw [List.filter_append, List.filter_cons_of_pos (by simpa [IsNull] using htype),
      hdropped hbefore, hdropped hafter]
    rfl
  rw [readAlternatives, hparts, if_neg hmany, hkept]

/-- A type and its nullability are read from each of their notations. -/
theorem parseNullable_of_writes {type token : List Char} {nullable : Bool} (hmark : '?' ∉ type)
    (hbar : '|' ∉ type) (h : WritesNullable type nullable token) :
    parseNullable token = .ok (type, nullable) := by
  cases h with
  | plain => rw [parseNullable_of_unmarked hmark, readAlternatives_single hbar]
  | marked => rw [parseNullable_of_marked, readAlternatives_single hbar]
  | @union mark before after hprefix hnull hsome htype =>
    rcases hprefix with rfl | rfl
    · have hquestion : '?' ∉ ['|'].intercalate (before ++ type :: after) := fun hin => by
        rcases Text.mem_of_mem_intercalate hin with heq | ⟨part, hpart, hinside⟩
        · cases heq
        · exact not_mem_of_alternative (.inl rfl) hmark hnull part hpart hinside
      rw [List.nil_append, parseNullable_of_unmarked hquestion,
        readAlternatives_union hbar hnull hsome htype]
    · exact readAlternatives_union hbar hnull hsome htype true

/-- A type is read from each of its notations. -/
theorem parseType_of_writes (hp : p.WellFormed known) {token : List Char}
    (h : WritesType m p token) :
    parseType m known token = .ok (p.type, p.nullable, p.isList) := by
  obtain ⟨element, type, helement, hlist, hnullable⟩ := h
  have hplain := plain_of_writesElement hp helement
  have hmark := not_mem_of_writesList hplain hlist (.inl rfl)
  have hbar := not_mem_of_writesList hplain hlist (.inr rfl)
  simp only [parseType, bind_eq_ok, Prod.exists]
  exact ⟨type, p.nullable, parseNullable_of_writes hmark hbar hnullable, element, p.isList,
    parseList_of_writes hplain hlist, p.type, parseElement_of_writes hp helement, rfl⟩

end EntityGraph.Annotations
