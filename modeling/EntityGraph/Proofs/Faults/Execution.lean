import EntityGraph.Proofs.Faults.Resolvers
import EntityGraph.Resolve.Execute

/-!
# Faults in executions

A request resolves the fields that it selects, and the fields of what these answer. If each field
finds known faults only, as long as its parent fits the type of the field, and answers values that
fit their types, then so does the request.

* `Interface.Answers` is what is asked of the fields of an interface;
* `Interface.ends_resolve` says that what is selected finds known faults only, by induction on it;
* `Interface.Answers.known_of_execute` is the result for requests.
-/

namespace EntityGraph

open Execution

namespace Interface

/-- Every field answers values that fit its type and finds known faults only, where its parent fits
the type of the field and a condition holds of what is selected. Literals fit all types, and lists
fit with their items. -/
structure Answers (i : Interface) (known : Error → Prop)
    (P : String → List (String × Literal) → Prop) (fits : String → FieldValue → Prop) : Prop where
  literal : ∀ type l, fits type (.literal l)
  items : ∀ {type v items}, fits type v → v.items? = some items → ∀ x ∈ items, fits type x
  valueOf : ∀ {type fields f parent caller t}, .object type fields ∈ i.schema.types →
    f ∈ fields → fits type parent → t.Each P →
      Action.Ends known (i.valueOf caller f parent t) (Shown (fits f.type.base))

variable {i : Interface} {known : Error → Prop} {P : String → List (String × Literal) → Prop}
  {fits : String → FieldValue → Prop} {caller : Caller}

section Completing

variable (h : i.Answers known P fits) {object : ObjectStep} (hobject : ∀ type fields value,
  .object type fields ∈ i.schema.types → fits type value →
    Execution.Ends known (object type fields value) fun _ => True)

include hobject

theorem ends_completeNamed (type : String) {value : FieldValue} (hvalue : fits type value) :
    Completion.Ends known (completeNamed i.schema object type value) fun _ => True := by
  unfold completeNamed
  split
  next name fields hfind =>
    have hname : name = type := by simpa [SchemaType.name] using List.find?_some hfind
    exact .lift (hobject _ _ _ (List.mem_of_find?_eq_some hfind) (hname ▸ hvalue))
  next =>
    split_ifs
    · exact .throw trivial
    · exact .pure trivial
  next => exact .throw trivial

include h

/-- By induction on the type, whatever objects and lists the value holds. -/
theorem ends_complete (type : TypeRef) {v : Option FieldValue} (hv : Shown (fits type.base) v) :
    Completion.Ends known (complete i.schema object type v) fun _ => True := by
  induction type generalizing v with
  | named type =>
    cases v with
    | none => exact .pure trivial
    | some value => exact ends_completeNamed hobject type (hv value rfl)
  | nonNull type ih =>
    cases v with
    | none => exact .throw trivial
    | some value => exact ih hv
  | list item ih =>
    cases v with
    | none => exact .pure trivial
    | some value =>
      rw [complete]
      cases hitems : value.items? with
      | none => exact .throw trivial
      | some items =>
        have hall := h.items (hv value rfl) hitems
        exact .bind (.mapM fun x hx => ih (shown_some (hall x hx))) fun _ _ => .pure trivial

end Completing

mutual

/-- A selected field finds known faults only, with everything below it. -/
theorem ends_resolveField (h : i.Answers known P fits) : ∀ (s : Selection) (type : String)
    (fields : List SchemaField) (parent : FieldValue) (done : List (String × Literal)), s.Each P →
    .object type fields ∈ i.schema.types → fits type parent →
    Execution.Ends known (i.resolveField caller type fields parent done s) fun _ => True
  | .mk key name args children, type, fields, parent, done, hs, htype, hparent => by
    rw [resolveField]
    split_ifs
    · exact .pure trivial
    cases hfind : fields.find? (·.name == name) with
    | none => exact .pure trivial
    | some f =>
      -- whichever objects the value holds, their fields are those selected below this one
      have hobject : ∀ (type : String) (fields : List SchemaField) (value : FieldValue),
          .object type fields ∈ i.schema.types → fits type value →
          Execution.Ends known (do
            return objectLiteral (← i.resolve caller type fields value [] children))
            fun _ => True := by
        intro type fields value htype hvalue
        exact .bind (ends_resolve h children type fields value [] hs.children htype hvalue)
          fun _ _ => .pure trivial
      have hvalue : Action.Ends known
          (i.valueOf caller f parent (.mk key name args children)) (Shown (fits f.type.base)) :=
        h.valueOf htype (List.mem_of_find?_eq_some hfind) hparent hs
      have hfield : Completion.Ends known (do
          let value ← perform (i.valueOf caller f parent (.mk key name args children))
          complete i.schema (fun type fields parent => do
            return objectLiteral (← i.resolve caller type fields parent [] children))
            f.type value) fun _ => True :=
        .bind (.perform hvalue) fun _ hv => ends_complete h hobject f.type hv
      refine .bind hfield fun r hr => ?_
      cases r with
      | ok l => exact .pure trivial
      | error e => exact .bind (.note hr) fun _ _ => .pure trivial

/-- Selected fields find known faults only, one after the other. -/
theorem ends_resolve (h : i.Answers known P fits) : ∀ (l : List Selection) (type : String)
    (fields : List SchemaField) (parent : FieldValue) (done : List (String × Literal)),
    (∀ s ∈ l, s.Each P) → .object type fields ∈ i.schema.types → fits type parent →
    Execution.Ends known (i.resolve caller type fields parent done l) fun _ => True
  | [], _, _, _, _, _, _, _ => by
    rw [resolve]
    exact .pure trivial
  | s :: rest, type, fields, parent, done, hl, htype, hparent => by
    obtain ⟨hs, hrest⟩ := List.forall_mem_cons.1 hl
    rw [resolve]
    exact .bind (ends_resolveField h s type fields parent done hs htype hparent) fun done' _ =>
      ends_resolve h rest type fields parent done' hrest htype hparent

end

/-- A request finds known faults only. -/
theorem Answers.known_of_execute (h : i.Answers known P fits) {r : Request}
    (hr : ∀ s ∈ r.selections, s.Each P) (w : World) :
    ∀ e ∈ ((i.execute r).run w).1.errors, e.Known known := by
  have hreturns : Returns (i.execute r) fun response => ∀ e ∈ response.errors, e.Known known := by
    unfold execute
    split
    next type fields hfind =>
      exact .bind (ends_resolve h r.selections type fields _ [] hr
        (List.mem_of_find?_eq_some hfind) (h.literal _ _) [] fun _ he => nomatch he)
        fun _ hr => .pure hr.2
    next => exact .pure fun _ he => nomatch he
  exact hreturns w

end Interface

end EntityGraph
