import Mathlib.Data.List.Induction
import EntityGraph.Model.Memo
import EntityGraph.Proofs.Annotations.Block

/-!
# What a catalog remembers

Remembering descriptions changes no answer. A description that was read when fewer models were known
is the one that would be read now, since more models can only turn failures into descriptions; a
failure is read again.

* `Annotations.parse_mono`: a block that is read is read alike when more models are known;
* `ModelDefinition.read` is the answer without a memory, from the definitions that were registered;
* `CatalogMemo.current_call`: a call leaves only current descriptions behind;
* `CatalogMemo.callAll_transparent` is the result.
-/

namespace EntityGraph

/-! ### More models -/

namespace Annotations

variable {m : ModelId} {known known' : ModelId → Bool}
  (hle : ∀ target, known target = true → known' target = true)

include hle

theorem parseElement_mono {element : List Char} {isList : Bool} {type : PropertyType}
    (h : parseElement m known element isList = .ok type) :
    parseElement m known' element isList = .ok type := by
  rw [parseElement] at h ⊢
  split_ifs at h ⊢
  split at h
  · exact h
  · -- the name of a model is looked up last
    dsimp only at h ⊢
    split_ifs at h with harray hpseudo hknown
    · rwa [if_pos harray]
    · rwa [if_neg harray, if_pos hpseudo]
    · rwa [if_neg harray, if_neg hpseudo, if_pos (hle _ hknown)]

theorem parseType_mono {token : List Char} {type : PropertyType × Bool × Bool}
    (h : parseType m known token = .ok type) : parseType m known' token = .ok type := by
  simp only [parseType, bind_eq_ok] at h ⊢
  obtain ⟨rest, hrest, element, helement, type, htype, heq⟩ := h
  exact ⟨rest, hrest, element, helement, type, parseElement_mono hle htype, heq⟩

theorem parseLine_mono {line : List Char} {p : Property} (h : parseLine m known line = .ok p) :
    parseLine m known' line = .ok p := by
  obtain ⟨token, words, hwords, hname, htype, hrest⟩ := parseLine_eq_ok.1 h
  exact parseLine_eq_ok.2 ⟨token, words, hwords, hname, parseType_mono hle htype, hrest⟩

/-- A block that is read is read alike when more models are known. -/
theorem parse_mono {block : String} {ps : List Property} (h : parse m known block = .ok ps) :
    parse m known' block = .ok ps := by
  obtain ⟨hlines, hdistinct⟩ := parse_eq_ok.1 h
  exact parse_eq_ok.2 ⟨hlines.imp fun _ _ => parseLine_mono hle, hdistinct⟩

end Annotations

/-! ### Registration -/

namespace Catalog

theorem contains_register (c : Catalog) (d : ModelDefinition) (m : ModelId) :
    (c.register d).contains m = (c.contains m || d.id == m) := by
  rw [contains, register, List.any_append, List.any_filter, List.any_cons, List.any_nil,
    Bool.or_false, contains]
  by_cases h : d.id = m
  · simp [h]
  · congr 2
    funext d'
    by_cases h' : d'.id = m
    · simp [h', Ne.symm h]
    · simp [h']

theorem definition_register (c : Catalog) (d : ModelDefinition) (m : ModelId) :
    (c.register d).definition m = if d.id = m then .ok d else c.definition m := by
  rw [definition, register, List.find?_append, List.find?_filter]
  split_ifs with h
  · -- an earlier definition is gone
    rw [List.find?_eq_none.2 fun d' _ => by simp [h]]
    simp [h]
  · have hfind : c.definitions.find?
        (fun d' => decide ((d'.id != d.id) = true ∧ (d'.id == m) = true))
          = c.definitions.find? (·.id == m) := by
      congr 1
      funext d'
      by_cases h' : d'.id = m
      · simp [h', Ne.symm h]
      · simp [h']
    have hd : (d.id == m) = false := beq_false_of_ne h
    rw [hfind, List.find?_cons_of_neg (by simp [hd]), List.find?_nil, Option.or_none, definition]

end Catalog

/-! ### Answers without a memory -/

namespace ModelDefinition

/-- Whether a model was registered. -/
def registered (ds : List ModelDefinition) (m : ModelId) : Bool :=
  ds.any (·.id == m)

/-- The definition of a model: the last that was registered. -/
def latest (ds : List ModelDefinition) (m : ModelId) : Option ModelDefinition :=
  ds.reverse.find? (·.id == m)

/-- The properties of a model, read from its last definition against the models that are
registered. -/
def read (ds : List ModelDefinition) (m : ModelId) : Except Error (List Property) :=
  (latest ds m).elim (.error (.unknownModel m)) fun d =>
    Annotations.parse m (registered ds) d.annotations

/-- The catalog of definitions that were registered one after the other. -/
def catalog (ds : List ModelDefinition) : Catalog :=
  ds.foldl Catalog.register .empty

theorem catalog_concat (ds : List ModelDefinition) (d : ModelDefinition) :
    catalog (ds ++ [d]) = (catalog ds).register d :=
  List.foldl_concat ..

theorem contains_catalog (ds : List ModelDefinition) (m : ModelId) :
    (catalog ds).contains m = registered ds m := by
  induction ds using List.reverseRecOn with
  | nil => rfl
  | append_singleton ds d ih =>
    rw [catalog_concat, Catalog.contains_register, ih, registered, registered, List.any_append,
      List.any_cons, List.any_nil, Bool.or_false]

theorem definition_catalog (ds : List ModelDefinition) (m : ModelId) :
    (catalog ds).definition m = (latest ds m).elim (.error (.unknownModel m)) .ok := by
  induction ds using List.reverseRecOn with
  | nil => rfl
  | append_singleton ds d ih =>
    rw [catalog_concat, Catalog.definition_register, ih, latest, latest, List.reverse_concat]
    split_ifs with h
    · rw [List.find?_cons_of_pos (by simpa using h), Option.elim_some]
    · rw [List.find?_cons_of_neg (by simpa using h)]

/-- What a catalog describes is read from the definitions that were registered. -/
theorem describe_catalog (ds : List ModelDefinition) (m : ModelId) :
    (catalog ds).describe m = read ds m := by
  rw [Catalog.describe, definition_catalog, funext (contains_catalog ds), read]
  cases latest ds m <;> rfl

/-- The properties of a model stay as they were read when another model is registered. -/
theorem read_concat {ds : List ModelDefinition} {m : ModelId} {ps : List Property}
    (h : read ds m = .ok ps) {d : ModelDefinition} (hne : d.id ≠ m) :
    read (ds ++ [d]) m = .ok ps := by
  have hlatest : latest (ds ++ [d]) m = latest ds m := by
    rw [latest, List.reverse_concat, List.find?_cons_of_neg (by simpa using hne), latest]
  rw [read] at h ⊢
  rw [hlatest]
  cases hd : latest ds m with
  | none =>
    rw [hd] at h
    cases h
  | some d' =>
    rw [hd] at h
    refine Annotations.parse_mono (fun target htarget => ?_) h
    rw [registered] at htarget ⊢
    rw [List.any_append, htarget, Bool.true_or]

end ModelDefinition

/-! ### Calls -/

/-- A call of a catalog. -/
inductive CatalogCall where
  | register (d : ModelDefinition)
  | describe (m : ModelId)
  | property (m : ModelId) (name : String)
  | relation (m : ModelId) (name : String)

/-- What a call of a catalog gives. -/
inductive CatalogAnswer where
  | registered (m : ModelId)
  | properties (outcome : Except Error (List Property))
  | property (outcome : Except Error Property)
  | relation (outcome : Except Error Relation)

namespace CatalogCall

/-- The definition that a call registers. -/
def definition? : CatalogCall → Option ModelDefinition
  | register d => some d
  | _ => none

/-- The answer of a catalog without a memory in which definitions were registered. -/
def answer (ds : List ModelDefinition) : CatalogCall → CatalogAnswer
  | register d => .registered d.id
  | describe m => .properties (ModelDefinition.read ds m)
  | property m name =>
    .property ((ModelDefinition.read ds m).bind (Catalog.findProperty m name))
  | relation m name => .relation ((ModelDefinition.catalog ds).relation m name)

/-- The answers to calls, each from the definitions that were registered before it. -/
def answers (ds : List ModelDefinition) : List CatalogCall → List CatalogAnswer
  | [] => []
  | call :: calls => call.answer ds :: answers (ds ++ call.definition?.toList) calls

end CatalogCall

namespace CatalogMemo

/-- Make a call. -/
def call (memo : CatalogMemo) : CatalogCall → CatalogMemo × CatalogAnswer
  | .register d => (memo.register d, .registered d.id)
  | .describe m => (memo.describe m).map id .properties
  | .property m name => (memo.property m name).map id .property
  | .relation m name => (memo.relation m name).map id .relation

/-- Make calls one after the other. -/
def callAll (memo : CatalogMemo) : List CatalogCall → CatalogMemo × List CatalogAnswer
  | [] => (memo, [])
  | call :: calls =>
    let (memo, answer) := memo.call call
    let (memo, answers) := memo.callAll calls
    (memo, answer :: answers)

/-- A memory that agrees with the definitions that were registered. -/
structure Current (memo : CatalogMemo) (ds : List ModelDefinition) : Prop where
  catalog : memo.catalog = ModelDefinition.catalog ds
  known : ∀ entry ∈ memo.known, ModelDefinition.read ds entry.1 = .ok entry.2

variable {memo : CatalogMemo} {ds : List ModelDefinition}

theorem current_of_empty : (of .empty).Current [] :=
  ⟨rfl, fun _ h => absurd h List.not_mem_nil⟩

theorem Current.register (h : memo.Current ds) (d : ModelDefinition) :
    (memo.register d).Current (ds ++ [d]) := by
  refine ⟨?_, fun entry hentry => ?_⟩
  · rw [ModelDefinition.catalog_concat, ← h.catalog]
    rfl
  · obtain ⟨hmem, hne⟩ := List.mem_filter.1 hentry
    exact ModelDefinition.read_concat (h.known entry hmem) (Ne.symm (by simpa using hne))

/-- What is remembered is found. -/
theorem mem_of_lookup {m : ModelId} {ps : List Property} {known : List (ModelId × List Property)}
    (h : known.lookup m = some ps) : (m, ps) ∈ known := by
  obtain ⟨before, after, rfl, -⟩ := List.lookup_eq_some_iff.1 h
  exact List.mem_append_right _ List.mem_cons_self

/-- Describing a model: the answer is current, and so is the memory after it. A failure leaves the
memory as it was, and a description that was read is remembered. -/
theorem Current.describe (h : memo.Current ds) (m : ModelId) :
    (memo.describe m).2 = ModelDefinition.read ds m ∧ (memo.describe m).1.Current ds ∧
      (∀ e, (memo.describe m).2 = .error e → (memo.describe m).1 = memo) ∧
      ∀ ps, (memo.describe m).2 = .ok ps → (memo.describe m).1.known.lookup m = some ps := by
  have hread : ModelDefinition.read ds m = memo.catalog.describe m := by
    rw [h.catalog, ModelDefinition.describe_catalog]
  rw [CatalogMemo.describe, hread, Catalog.describe]
  cases hd : memo.catalog.definition m with
  | error e => exact ⟨rfl, h, fun _ _ => rfl, nofun⟩
  | ok d =>
    change _ = Annotations.parse m memo.catalog.contains d.annotations ∧ _
    have hparse : ModelDefinition.read ds m
        = Annotations.parse m memo.catalog.contains d.annotations := by
      rw [hread, Catalog.describe, hd]
      rfl
    dsimp only
    -- what is remembered was read from the same definitions
    cases hknown : memo.known.lookup m with
    | some ps =>
      refine ⟨?_, h, fun _ _ => rfl, fun _ hps => ?_⟩
      · rw [← hparse, h.known (m, ps) (mem_of_lookup hknown)]
      · cases hps
        exact hknown
    | none =>
      dsimp only
      cases hps : Annotations.parse m memo.catalog.contains d.annotations with
      | error e => exact ⟨rfl, h, fun _ _ => rfl, nofun⟩
      | ok ps =>
        refine ⟨rfl, ⟨h.catalog, fun entry hentry => ?_⟩, nofun, fun _ hps => ?_⟩
        · rcases List.mem_cons.1 hentry with rfl | hentry
          · exact hparse.trans hps
          · exact h.known entry hentry
        · cases hps
          exact List.lookup_cons_self

/-- A call has the answer of a catalog without a memory, and the memory after it is current. -/
theorem Current.call (h : memo.Current ds) (c : CatalogCall) :
    (memo.call c).2 = c.answer ds ∧ (memo.call c).1.Current (ds ++ c.definition?.toList) := by
  cases c with
  | register d => exact ⟨rfl, h.register d⟩
  | describe m =>
    obtain ⟨hanswer, hcurrent, -⟩ := h.describe m
    exact ⟨congrArg CatalogAnswer.properties hanswer, (List.append_nil ds).symm ▸ hcurrent⟩
  | property m name =>
    obtain ⟨hanswer, hcurrent, -⟩ := h.describe m
    refine ⟨?_, (List.append_nil ds).symm ▸ hcurrent⟩
    rw [CatalogCall.answer, ← hanswer]
    rfl
  | relation m name =>
    obtain ⟨hanswer, hcurrent, -⟩ := h.describe m
    refine ⟨?_, (List.append_nil ds).symm ▸ hcurrent⟩
    rw [CatalogCall.answer, ← hcurrent.catalog, Catalog.relation, Catalog.property,
      hcurrent.catalog, ModelDefinition.describe_catalog, ← hanswer, ← hcurrent.catalog]
    rfl

/-- So has every call of a run. -/
theorem Current.callAll (calls : List CatalogCall) {memo : CatalogMemo} {ds : List ModelDefinition}
    (h : memo.Current ds) :
    (memo.callAll calls).2 = CatalogCall.answers ds calls ∧
      (memo.callAll calls).1.Current (ds ++ calls.filterMap CatalogCall.definition?) := by
  induction calls generalizing memo ds with
  | nil => exact ⟨rfl, (List.append_nil ds).symm ▸ h⟩
  | cons c calls ih =>
    obtain ⟨hanswer, hcurrent⟩ := h.call c
    obtain ⟨hanswers, hrest⟩ := ih hcurrent
    have hdefinitions : (c :: calls).filterMap CatalogCall.definition?
        = c.definition?.toList ++ calls.filterMap CatalogCall.definition? := by
      cases hc : c.definition? <;> simp [hc]
    refine ⟨congrArg₂ List.cons hanswer hanswers, ?_⟩
    rw [hdefinitions, ← List.append_assoc]
    exact hrest

/-- Remembering is transparent. Whatever is registered and asked, in whatever order, each call has
the answer that it would have from the definitions that are registered by then. What is remembered
is what reading gives now; a failure is not remembered, and a description that was read is. -/
theorem callAll_transparent (calls : List CatalogCall) :
    let memo := ((of .empty).callAll calls).1
    let ds := calls.filterMap CatalogCall.definition?
    ((of .empty).callAll calls).2 = CatalogCall.answers [] calls ∧
      memo.catalog = ModelDefinition.catalog ds ∧
      (∀ m ps, (m, ps) ∈ memo.known → ModelDefinition.read ds m = .ok ps) ∧
      ∀ m, (memo.describe m).2 = ModelDefinition.read ds m ∧
        (∀ e, ModelDefinition.read ds m = .error e → (memo.describe m).1 = memo) ∧
        ∀ ps, ModelDefinition.read ds m = .ok ps →
          (memo.describe m).1.known.lookup m = some ps := by
  intro memo ds
  obtain ⟨hanswers, hcurrent⟩ := current_of_empty.callAll calls
  refine ⟨hanswers, hcurrent.catalog, fun m ps => hcurrent.known (m, ps), fun m => ?_⟩
  obtain ⟨hanswer, -, herror, hok⟩ := hcurrent.describe m
  exact ⟨hanswer, fun e he => herror e (hanswer.trans he), fun ps hps => hok ps (hanswer.trans hps)⟩

end CatalogMemo

end EntityGraph
