import Mathlib.Data.Finset.Card
import Mathlib.Data.List.Perm.Basic
import Mathlib.Logic.Relation
import EntityGraph.Proofs.TypeGraph.Script
import EntityGraph.Sample.Shelf

/-!
# The whole graph

Asking for types makes a graph of exactly the types that can be reached from those asked for.

* `TypeKey.Reaches` follows the references of types, and `TypeKey.Buildable` says of a type that no
  type which it reaches is at fault;
* `Building.Asks` says what a step makes of a graph, in which types may be under construction: it
  adds types that are built and whose references are there, and disturbs no other;
* `TypeRequest.Answered` is what is known of a graph when a list of requests has succeeded;
* `TypeRequest.graph_complete` is the result.
-/

namespace EntityGraph

namespace TypeKey

/-- A type leads to another through the references of types. -/
def Reaches (c : Catalog) : TypeKey → TypeKey → Prop :=
  Relation.ReflTransGen fun k k' => k' ∈ k.refers c

/-- The fields of a type, as they are where every type that they refer to is there. -/
def declared (c : Catalog) (k : TypeKey) : Except Error (List FieldNode) :=
  ((Building.fieldsOf (fun k => pure ⟨k, none⟩) c k).run .empty).1

/-- No type that can be reached is unknown or has a property that no interface can express. -/
def Buildable (c : Catalog) (k : TypeKey) : Prop :=
  ∀ k', k.Reaches c k' → c.contains k'.model = true ∧ ∃ fields, k'.declared c = .ok fields

theorem Buildable.of_refers {c : Catalog} {k k' : TypeKey} (h : k.Buildable c)
    (hk' : k' ∈ k.refers c) : k'.Buildable c :=
  fun _ hreaches => h _ (Relation.ReflTransGen.head hk' hreaches)

end TypeKey

/-- A type has the fields that are declared for it; of two fields with one name the later holds. -/
def TypeNode.Complete (c : Catalog) (n : TypeNode) : Prop :=
  ∃ fields, n.key.declared c = .ok fields ∧ n.built = some (fields.foldl Building.putField [])

theorem TypeNode.Complete.eq {c : Catalog} {n n' : TypeNode} (h : n.Complete c)
    (h' : n'.Complete c) (hkey : n.key = n'.key) : n = n' := by
  obtain ⟨k, built⟩ := n
  obtain ⟨k', built'⟩ := n'
  obtain ⟨fields, hfields, rfl⟩ := h
  obtain ⟨fields', hfields', rfl⟩ := h'
  obtain rfl : k = k' := hkey
  rw [Except.ok.inj (hfields.symm.trans hfields')]

/-- The keys of the six types of each model. -/
def Catalog.typeKeys (c : Catalog) : List TypeKey :=
  c.definitions.flatMap fun d => TypeKind.all.map (TypeKey.mk d.id)

namespace TypeGraph

/-- The keys of the registered types. -/
def keys (g : TypeGraph) : List TypeKey :=
  g.nodes.map (·.key)

/-- Every type is registered once, for a known model. -/
structure Sound (c : Catalog) (g : TypeGraph) : Prop where
  nodup : g.keys.Nodup
  known : ∀ k ∈ g.keys, c.contains k.model = true

/-- The number of types that are still to be registered. -/
def room (c : Catalog) (g : TypeGraph) : Nat :=
  (c.typeKeys.toFinset \ g.keys.toFinset).card

/-- A graph with further types. -/
def extend (g : TypeGraph) (new : List TypeNode) : TypeGraph :=
  ⟨g.nodes ++ new⟩

/-- Types that were added to a graph for the sake of some keys: they are built, they can be reached
from those keys, and what they refer to is there, like the keys themselves. -/
structure Built (c : Catalog) (asked : List TypeKey) (g : TypeGraph) (new : List TypeNode) :
    Prop where
  complete : ∀ n ∈ new, n.Complete c
  reached : ∀ n ∈ new, ∃ k ∈ asked, k.Reaches c n.key
  closed : ∀ n ∈ new, ∀ k ∈ n.key.refers c, k ∈ (g.extend new).keys
  asked : ∀ k ∈ asked, k ∈ (g.extend new).keys

variable {c : Catalog} {g : TypeGraph} {new new' : List TypeNode} {k : TypeKey} {n : TypeNode}
  {asked asked' : List TypeKey}

@[simp] theorem extend_nil (g : TypeGraph) : g.extend [] = g := by
  simp [extend]

theorem extend_extend (g : TypeGraph) (new new' : List TypeNode) :
    (g.extend new).extend new' = g.extend (new ++ new') := by
  simp [extend]

theorem mem_keys_extend : k ∈ (g.extend new).keys ↔ k ∈ g.keys ∨ k ∈ new.map (·.key) := by
  simp only [keys, extend, List.map_append, List.mem_append]

theorem find?_eq_none : g.find? k = none ↔ k ∉ g.keys := by
  simp [find?, keys]

theorem mem_of_find? (h : g.find? k = some n) : n ∈ g.nodes ∧ n.key = k :=
  ⟨List.mem_of_find?_eq_some h, by simpa using List.find?_some h⟩

/-- A type that is registered once is found under its key. -/
theorem find?_of_mem (hnodup : g.keys.Nodup) (hn : n ∈ g.nodes) : g.find? n.key = some n := by
  cases hfind : g.find? n.key with
  | none => exact absurd (List.mem_map.2 ⟨n, hn, rfl⟩) (find?_eq_none.1 hfind)
  | some n' =>
    obtain ⟨hn', hkey⟩ := mem_of_find? hfind
    rw [List.inj_on_of_nodup_map hnodup hn' hn hkey]

/-- A type that is there stays what it is. -/
theorem find?_extend_of_some (h : g.find? k = some n) : (g.extend new).find? k = some n := by
  unfold find? at h
  rw [find?, extend, List.find?_append, h]
  rfl

theorem room_extend_le : (g.extend new).room c ≤ g.room c := by
  refine Finset.card_le_card (Finset.sdiff_subset_sdiff subset_rfl fun k hk => ?_)
  rw [List.mem_toFinset] at hk ⊢
  exact mem_keys_extend.2 (.inl hk)

/-- A new type takes room. -/
theorem room_extend_lt (hknown : c.contains k.model = true) (hk : k ∉ g.keys) :
    (g.extend [⟨k, none⟩]).room c < g.room c := by
  have hmem : k ∈ c.typeKeys := by
    obtain ⟨d, hd, hid⟩ := List.any_eq_true.1 hknown
    refine List.mem_flatMap.2 ⟨d, hd, List.mem_map.2 ⟨k.kind, ?_, ?_⟩⟩
    · cases k.kind <;> simp [TypeKind.all]
    · rw [beq_iff_eq.1 hid]
  refine Finset.card_lt_card ⟨Finset.sdiff_subset_sdiff subset_rfl fun k' hk' => ?_, fun hsub => ?_⟩
  · rw [List.mem_toFinset] at hk' ⊢
    exact mem_keys_extend.2 (.inl hk')
  · have hold : k ∈ c.typeKeys.toFinset \ g.keys.toFinset := by simp [hmem, hk]
    have hnew : k ∈ (g.extend [⟨k, none⟩]).keys := mem_keys_extend.2 (.inr (by simp))
    simpa [hnew] using hsub hold

theorem room_lt_bound (c : Catalog) (g : TypeGraph) : g.room c < Building.bound c := by
  have hlength : c.typeKeys.length = TypeKind.all.length * c.definitions.length := by
    simp [Catalog.typeKeys, List.length_flatMap, Nat.mul_comm]
  have hle : g.room c ≤ c.typeKeys.length :=
    (Finset.card_le_card Finset.sdiff_subset).trans c.typeKeys.toFinset_card_le
  rw [Building.bound]
  omega

theorem Built.nil (h : ∀ k ∈ asked, k ∈ g.keys) : g.Built c asked [] :=
  ⟨by simp, by simp, by simp, by simpa using h⟩

/-- What was added first stays, and what was added then comes behind it. -/
theorem Built.append (h : g.Built c asked new) (h' : (g.extend new).Built c asked' new') :
    g.Built c (asked ++ asked') (new ++ new') := by
  have hkeys : ∀ k, k ∈ (g.extend new).keys → k ∈ (g.extend (new ++ new')).keys := by
    intro k hk
    rw [← extend_extend]
    exact mem_keys_extend.2 (.inl hk)
  constructor
  · exact List.forall_mem_append.2 ⟨h.complete, h'.complete⟩
  · refine List.forall_mem_append.2 ⟨fun n hn => ?_, fun n hn => ?_⟩
    · obtain ⟨k, hk, hreaches⟩ := h.reached n hn
      exact ⟨k, List.mem_append_left _ hk, hreaches⟩
    · obtain ⟨k, hk, hreaches⟩ := h'.reached n hn
      exact ⟨k, List.mem_append_right _ hk, hreaches⟩
  · refine List.forall_mem_append.2 ⟨fun n hn k hk => hkeys k (h.closed n hn k hk), fun n hn => ?_⟩
    rw [← extend_extend]
    exact h'.closed n hn
  · refine List.forall_mem_append.2 ⟨fun k hk => hkeys k (h.asked k hk), fun k hk => ?_⟩
    rw [← extend_extend]
    exact h'.asked k hk

/-- A type that is unknown to the graph can be registered. -/
theorem Sound.register (hg : g.Sound c) (hknown : c.contains k.model = true) (hk : k ∉ g.keys) :
    (g.extend [⟨k, none⟩]).Sound c := by
  have hkeys : (g.extend [⟨k, none⟩]).keys = g.keys ++ [k] := by simp [keys, extend]
  constructor
  · rw [hkeys]
    exact List.nodup_append.2 ⟨hg.nodup, List.nodup_singleton k, fun k' hk' _ hother heq =>
      hk ((heq.trans (List.mem_singleton.1 hother)) ▸ hk')⟩
  · rw [hkeys]
    exact List.forall_mem_append.2 ⟨hg.known, List.forall_mem_singleton.2 hknown⟩

/-- What a type needs is added behind it. -/
theorem Built.cons (hn : n.Complete c)
    (h : (g.extend [⟨n.key, none⟩]).Built c (n.key.refers c) new) :
    g.Built c [n.key] (n :: new) := by
  have hkeys : ((g.extend [⟨n.key, none⟩]).extend new).keys = (g.extend (n :: new)).keys := by
    simp [keys, extend]
  have hclosed := h.closed
  have hasked := h.asked
  rw [hkeys] at hclosed hasked
  constructor
  · exact List.forall_mem_cons.2 ⟨hn, h.complete⟩
  · refine List.forall_mem_cons.2 ⟨⟨n.key, List.mem_cons_self, .refl⟩, fun n' hn' => ?_⟩
    obtain ⟨k, hk, hreaches⟩ := h.reached n' hn'
    exact ⟨n.key, List.mem_cons_self, .head hk hreaches⟩
  · exact List.forall_mem_cons.2 ⟨hasked, hclosed⟩
  · exact List.forall_mem_singleton.2 (mem_keys_extend.2 (.inr (by simp)))

end TypeGraph

namespace Building

open TypeGraph

variable {α β : Type} {c : Catalog} {g g' : TypeGraph} {new : List TypeNode} {k : TypeKey}
  {build : TypeKey → Building TypeNode}

theorem run_bind_ok {a : Building α} {v : α} (h : a.run g = (.ok v, g')) (f : α → Building β) :
    (a >>= f).run g = (f v).run g' := by
  rw [run_bind, h]

theorem run_bind_error {a : Building α} {e : Error} (h : a.run g = (.error e, g'))
    (f : α → Building β) : (a >>= f).run g = (.error e, g') := by
  rw [run_bind, h]

theorem run_get (f : TypeGraph → Building β) (g : TypeGraph) :
    ((get : Building TypeGraph) >>= f).run g = (f g).run g :=
  run_bind_ok rfl f

/-- A step that answers nodes of the right name. -/
theorem ByKey.of_ensures (h : ∀ k, Ensures (fun _ => True) (build k) (·.key = k)) :
    ByKey build := by
  refine fun k => funext fun g => ?_
  change (build k >>= fun n => pure n.name).run g = (build k >>= fun _ => pure k.typeName).run g
  rw [run_bind, run_bind]
  have hkey := (h k g trivial).2
  rcases hrun : (build k).run g with ⟨e | n, g'⟩
  · rfl
  · rw [hrun] at hkey
    have hname : n.name = k.typeName := congrArg TypeKey.typeName (hkey n rfl)
    simp only [hname]

/-- A type is built under its key. -/
theorem byKey_nodeWithin (c : Catalog) (depth : Nat) : ByKey (nodeWithin c depth) := by
  refine .of_ensures fun k => ?_
  cases depth with
  | zero => exact .throw _
  | succ depth =>
    rw [nodeWithin]
    split_ifs
    · exact .throw _
    · refine .bind .get fun g _ => ?_
      split
      next n hn => exact .pure (mem_of_find? hn).2
      · refine .seq (fun _ _ => ⟨trivial, fun _ _ => trivial⟩) fun _ => ?_
        refine .seq (fun _ _ => ⟨trivial, fun _ _ => trivial⟩)
          fun fields => .bind .get fun g _ => ?_
        split
        · exact .throw _
        · exact .seq (.set trivial) fun _ => .pure rfl

/-- Where every type is there, nothing is left of asking for types. -/
theorem askFor_pure {f : TypeKey → TypeNode} (keys : List TypeKey) :
    askFor (fun k => pure (f k)) keys = pure ⟨⟩ := by
  induction keys with
  | nil => rfl
  | cons k keys ih => rw [askFor_cons, pure_bind, ih]

/-- The fields of a type are those declared for it, once the types that it refers to were asked
for. -/
theorem exists_fieldsOf (c : Catalog) (k : TypeKey) : ∃ keys : List TypeKey,
    (∀ build, ByKey build → fieldsOf build c k = (do
      askFor build keys
      ofExcept (k.declared c))) ∧
    (∀ fields, k.declared c = .ok fields →
      keys = k.refers c ∧ ∀ f ∈ fields, f.Among (k :: k.refers c)) ∧
    ∀ e, k.declared c = .error e → IsOutside e := by
  obtain ⟨s, hrun, hok, herror⟩ := scripted_fieldsOf c k
  dsimp only at hrun hok
  have hdeclared : k.declared c = s.outcome := by
    have hbuild : ByKey fun k => pure ⟨k, none⟩ := fun k => by simp [TypeNode.name]
    rw [TypeKey.declared, hrun _ hbuild, Script.run, askFor_pure, pure_bind]
    cases s.outcome <;> rfl
  refine ⟨s.keys, fun build hbuild => ?_, fun fields h => ?_, fun e h => ?_⟩
  · rw [hrun build hbuild, hdeclared]
    rfl
  · exact hok fields (hdeclared ▸ h)
  · exact herror e (hdeclared ▸ h)

/-- What asking for types makes of a graph: it adds types, which are built where nothing fails. It
fails for the sake of the models only, and not where the types that are asked for can be built. -/
structure Leads (c : Catalog) (asked : List TypeKey) (P : TypeGraph → α → Prop) (g : TypeGraph)
    (r : Except Error α) (new : List TypeNode) : Prop where
  sound : (g.extend new).Sound c
  outside : ∀ e, r = .error e → IsOutside e
  built : ∀ v, r = .ok v → g.Built c asked new ∧ P (g.extend new) v
  succeeds : (∀ k ∈ asked, k.Buildable c) → ∃ v, r = .ok v

/-- A step asks for types, as far as there is less than so much room for them. -/
def Asks (c : Catalog) (size : Nat) (a : Building α) (asked : List TypeKey)
    (P : TypeGraph → α → Prop) : Prop :=
  ∀ g : TypeGraph, g.Sound c → g.room c < size →
    ∃ r new, a.run g = (r, g.extend new) ∧ Leads c asked P g r new

namespace Asks

variable {size : Nat} {a : Building α} {asked asked' : List TypeKey} {P : TypeGraph → α → Prop}
  {Q : TypeGraph → β → Prop}

theorem pure {v : α} (h : ∀ g, P g v) : Asks c size (Pure.pure v) [] P := by
  refine fun g hg _ => ⟨.ok v, [], by rw [extend_nil]; rfl, by rwa [extend_nil], ?_, ?_, ?_⟩
  · exact fun e he => nomatch he
  · rintro w ⟨⟩
    exact ⟨.nil (by simp), h _⟩
  · exact fun _ => ⟨v, rfl⟩

/-- What is asked for later finds more types there. -/
theorem bind {f : α → Building β} {R : α → TypeGraph → β → Prop} (ha : Asks c size a asked P)
    (hf : ∀ v, Asks c size (f v) asked' (R v))
    (h : ∀ g new v w, P g v → R v (g.extend new) w → Q (g.extend new) w) :
    Asks c size (a >>= f) (asked ++ asked') Q := by
  intro g hg hroom
  obtain ⟨r, new, hrun, hr⟩ := ha g hg hroom
  cases r with
  | error e =>
    refine ⟨.error e, new, run_bind_error hrun _, hr.sound, ?_, fun _ hv => (nomatch hv), ?_⟩
    · exact fun e' he' => hr.outside e' (congrArg _ (Except.error.inj he'))
    · intro hkeys
      obtain ⟨v, hv⟩ := hr.succeeds fun k hk => hkeys k (List.mem_append_left _ hk)
      cases hv
  | ok v =>
    obtain ⟨hbuilt, hv⟩ := hr.built v rfl
    obtain ⟨r', new', hrun', hr'⟩ := hf v _ hr.sound (room_extend_le.trans_lt hroom)
    have hextend := extend_extend g new new'
    refine ⟨r', new ++ new', ?_, hextend ▸ hr'.sound, hr'.outside, fun w hw => ?_, fun hkeys => ?_⟩
    · rw [run_bind_ok hrun, hrun', hextend]
    · obtain ⟨hbuilt', hw⟩ := hr'.built w hw
      exact ⟨hbuilt.append hbuilt', hextend ▸ h _ new' v w hv hw⟩
    · exact hr'.succeeds fun k hk => hkeys k (List.mem_append_right _ hk)

/-- The types that were asked for are there afterwards. -/
theorem map {f : α → β} (ha : Asks c size a asked P)
    (h : ∀ g v, (∀ k ∈ asked, k ∈ g.keys) → P g v → Q g (f v)) :
    Asks c size (do return f (← a)) asked Q := by
  intro g hg hroom
  obtain ⟨r, new, hrun, hr⟩ := ha g hg hroom
  cases r with
  | error e =>
    refine ⟨.error e, new, run_bind_error hrun _, hr.sound, ?_, fun _ hv => (nomatch hv), ?_⟩
    · exact fun e' he' => hr.outside e' (congrArg _ (Except.error.inj he'))
    · intro hkeys
      obtain ⟨v, hv⟩ := hr.succeeds hkeys
      cases hv
  | ok v =>
    obtain ⟨hbuilt, hv⟩ := hr.built v rfl
    refine ⟨.ok (f v), new, run_bind_ok hrun _, hr.sound, fun e he => (nomatch he), ?_,
      fun _ => ⟨_, rfl⟩⟩
    rintro w ⟨⟩
    exact ⟨hbuilt, h _ v hbuilt.asked hv⟩

/-- What is asked for one after the other; what holds of an early answer holds ever after. -/
theorem mapM {γ : Type} {f : γ → Building α} {asked : γ → List TypeKey}
    {R : γ → TypeGraph → α → Prop} (hf : ∀ x, Asks c size (f x) (asked x) (R x))
    (hmono : ∀ x g new v, R x g v → R x (TypeGraph.extend g new) v) (l : List γ) :
    Asks c size (l.mapM f) (l.flatMap asked) fun g vs =>
      List.Forall₂ (fun x v => R x g v) l vs := by
  induction l with
  | nil => exact .pure fun _ => .nil
  | cons x l ih =>
    rw [List.mapM_cons, List.flatMap_cons]
    refine (hf x).bind (R := fun v g vs => ∃ rest, vs = v :: rest ∧
      List.Forall₂ (fun x v => R x g v) l rest) (fun v => ih.map fun g rest _ hrest =>
        ⟨rest, rfl, hrest⟩) ?_
    rintro g new v _ hv ⟨rest, rfl, hrest⟩
    exact .cons (hmono x g new v hv) hrest

theorem askFor {P : TypeKey → TypeGraph → TypeNode → Prop}
    (hbuild : ∀ k, Asks c size (build k) [k] (P k)) (keys : List TypeKey) :
    Asks c size (Building.askFor build keys) keys fun _ _ => True := by
  induction keys with
  | nil => exact .pure fun _ => trivial
  | cons k keys ih =>
    rw [askFor_cons]
    exact (hbuild k).bind (fun _ => ih) fun _ _ _ _ _ _ => trivial

end Asks

/-- The registered type gets its fields, and the types that came behind it stay as they are. -/
theorem run_complete {fields : List FieldNode} (hk : k ∉ g.keys)
    (hnodup : (g.extend (⟨k, none⟩ :: new)).keys.Nodup) :
    (complete k fields).run (g.extend (⟨k, none⟩ :: new))
      = (.ok ⟨k, some (fields.foldl putField [])⟩,
        g.extend (⟨k, some (fields.foldl putField [])⟩ :: new)) := by
  have hfind : (g.extend (⟨k, none⟩ :: new)).find? k = some ⟨k, none⟩ :=
    find?_of_mem (n := ⟨k, none⟩) hnodup (by simp [extend])
  have hother : ∀ n ∈ g.nodes ++ new, n.key ≠ k := by
    rintro n hn rfl
    rcases List.mem_append.1 hn with hn | hn
    · exact hk (List.mem_map_of_mem hn)
    · simp only [keys, extend, List.map_append, List.map_cons] at hnodup
      have hnew := (List.nodup_cons.1 (List.nodup_append.1 hnodup).2.1).1
      exact hnew (List.mem_map_of_mem hn)
  have hkeep : ∀ l : List TypeNode, (∀ n ∈ l, n.key ≠ k) → (l.map fun n =>
      if n.key == k then (⟨k, some (fields.foldl putField [])⟩ : TypeNode) else n) = l :=
    fun l hl => (List.map_congr_left fun n hn => by simp [hl n hn]).trans l.map_id
  have hset : (g.extend (⟨k, none⟩ :: new)).nodes.map (fun n =>
      if n.key == k then (⟨k, some (fields.foldl putField [])⟩ : TypeNode) else n)
        = g.nodes ++ ⟨k, some (fields.foldl putField [])⟩ :: new := by
    rw [extend, List.map_append, List.map_cons, if_pos (beq_self_eq_true k),
      hkeep _ fun n hn => hother n (List.mem_append_left _ hn),
      hkeep _ fun n hn => hother n (List.mem_append_right _ hn)]
  unfold complete
  rw [run_get, hfind]
  exact congrArg (fun nodes => (Except.ok _, TypeGraph.mk nodes)) hset

/-- A type that is not there is registered, the types of its script are asked for, and its fields
follow. A failure leaves the type without fields. -/
theorem run_fresh {keys : List TypeKey} {r : Except Error PUnit}
    (hfields : fieldsOf build c k = (do
      askFor build keys
      ofExcept (k.declared c)))
    (hrun : (askFor build keys).run (g.extend [⟨k, none⟩]) = (r, g.extend (⟨k, none⟩ :: new)))
    (hk : k ∉ g.keys) (hnodup : (g.extend (⟨k, none⟩ :: new)).keys.Nodup) : (do
        register k
        let fields ← fieldsOf build c k
        complete k fields).run g
      = match r, k.declared c with
        | .error e, _ => (.error e, g.extend (⟨k, none⟩ :: new))
        | .ok _, .error e => (.error e, g.extend (⟨k, none⟩ :: new))
        | .ok _, .ok fields => (.ok ⟨k, some (fields.foldl putField [])⟩,
          g.extend (⟨k, some (fields.foldl putField [])⟩ :: new)) := by
  have hregister : (register k).run g = (.ok ⟨⟩, g.extend [⟨k, none⟩]) := rfl
  rw [run_bind_ok hregister, hfields, bind_assoc]
  cases r with
  | error e => exact run_bind_error hrun _
  | ok v =>
    rw [run_bind_ok hrun]
    cases k.declared c with
    | error e => rfl
    | ok fields =>
      rw [ofExcept_ok, pure_bind]
      exact run_complete hk hnodup

/-- A type that is not there is added to the graph with what it refers to. -/
theorem exists_run_fresh {size : Nat} {P : TypeKey → TypeGraph → TypeNode → Prop}
    (hasks : ∀ k, Asks c size (build k) [k] (P k)) (hbuild : ByKey build) (hg : g.Sound c)
    (hroom : g.room c < size + 1) (hknown : c.contains k.model = true) (hk : k ∉ g.keys) :
    ∃ r new, (do
        register k
        let fields ← fieldsOf build c k
        complete k fields).run g = (r, g.extend new) ∧
      Leads c [k] (fun g n => g.find? k = some n) g r new := by
  obtain ⟨keys, hfields, hok, herror⟩ := exists_fieldsOf c k
  obtain ⟨r, new, hrun, h⟩ := Asks.askFor hasks keys _ (hg.register hknown hk)
    ((room_extend_lt hknown hk).trans_le (Nat.le_of_lt_succ hroom))
  rw [extend_extend g] at hrun
  have hsound : ∀ built, (g.extend (⟨k, built⟩ :: new)).Sound c := fun built => by
    have hkeys : (g.extend (⟨k, built⟩ :: new)).keys
        = ((g.extend [⟨k, none⟩]).extend new).keys := by simp [TypeGraph.keys, extend]
    exact ⟨hkeys ▸ h.sound.nodup, hkeys ▸ h.sound.known⟩
  have hbuildable : (∀ k' ∈ [k], k'.Buildable c) →
      (∃ v, r = .ok v) ∧ ∃ fields, k.declared c = .ok fields := fun hall => by
    have hself := hall k List.mem_cons_self
    obtain ⟨-, fields, hfields⟩ := hself k .refl
    refine ⟨h.succeeds fun k' hk' => hself.of_refers ?_, fields, hfields⟩
    exact (hok fields hfields).1 ▸ hk'
  -- A failure leaves the type without fields.
  have hfail : ∀ e, IsOutside e → (¬ ∀ k' ∈ [k], k'.Buildable c) →
      Leads c [k] (fun g n => g.find? k = some n) g (.error e) (⟨k, none⟩ :: new) :=
    fun e he hnot => ⟨hsound none, fun e' he' => Except.error.inj he' ▸ he,
      fun _ hv => (nomatch hv), fun hall => absurd hall hnot⟩
  have hfresh := run_fresh (hfields _ hbuild) hrun hk (hsound none).nodup
  cases r with
  | error e =>
    refine ⟨.error e, _, hfresh, hfail e (h.outside e rfl) fun hall => ?_⟩
    obtain ⟨⟨v, hv⟩, -⟩ := hbuildable hall
    cases hv
  | ok v =>
    cases hdeclared : k.declared c with
    | error e =>
      rw [hdeclared] at hfresh
      refine ⟨.error e, _, hfresh, hfail e (herror e hdeclared) fun hall => ?_⟩
      obtain ⟨-, fields, hfields⟩ := hbuildable hall
      cases hdeclared.symm.trans hfields
    | ok fields =>
      rw [hdeclared] at hfresh
      have hnode : (⟨k, some (fields.foldl putField [])⟩ : TypeNode).Complete c :=
        ⟨fields, hdeclared, rfl⟩
      have hbuilt := (h.built v rfl).1
      rw [(hok fields hdeclared).1] at hbuilt
      refine ⟨_, _, hfresh, hsound _, fun e he => (nomatch he), ?_, fun _ => ⟨_, rfl⟩⟩
      rintro n ⟨⟩
      exact ⟨.cons hnode hbuilt, find?_of_mem (n := ⟨k, _⟩) (hsound _).nodup (by simp [extend])⟩

/-- A type is built with all that it needs. The induction is on the depth, which exceeds the room:
a type that is registered takes some, and one that is there, built or not, is left alone. -/
theorem asks_nodeWithin (size : Nat) (k : TypeKey) :
    Asks c size (nodeWithin c size k) [k] fun g n => g.find? k = some n := by
  induction size generalizing k with
  | zero => exact fun g _ hroom => absurd hroom (Nat.not_lt_zero _)
  | succ size ih =>
    intro g hg hroom
    rw [nodeWithin]
    by_cases hknown : c.contains k.model = true
    swap
    · refine ⟨.error (.unknownModel k.model), [], ?_, by rwa [extend_nil], ?_, ?_, fun h => ?_⟩
      · rw [extend_nil, if_pos (by simpa using hknown)]
        rfl
      · rintro e ⟨⟩ reason heq
        cases heq
      · intro _ hv
        cases hv
      · exact absurd (h k List.mem_cons_self k .refl).1 hknown
    rw [if_neg (by simpa using hknown), run_get]
    cases hfind : g.find? k with
    | none =>
      exact exists_run_fresh ih (byKey_nodeWithin c size) hg hroom hknown (find?_eq_none.1 hfind)
    | some n =>
      have hk : k ∈ g.keys := List.mem_map.2 ⟨n, mem_of_find? hfind⟩
      refine ⟨.ok n, [], by rw [extend_nil]; rfl, by rwa [extend_nil], ?_, ?_, fun _ => ⟨n, rfl⟩⟩
      · intro e he
        cases he
      · rintro v ⟨⟩
        exact ⟨.nil (List.forall_mem_singleton.2 hk), by rwa [extend_nil]⟩

theorem askFor_congr {size : Nat} {build' : TypeKey → Building TypeNode}
    {P : TypeKey → TypeGraph → TypeNode → Prop} (hasks : ∀ k, Asks c size (build k) [k] (P k))
    (heq : ∀ k g, g.Sound c → g.room c < size → (build' k).run g = (build k).run g)
    (keys : List TypeKey) (hg : g.Sound c) (hroom : g.room c < size) :
    (askFor build' keys).run g = (askFor build keys).run g := by
  induction keys generalizing g with
  | nil => rfl
  | cons k keys ih =>
    obtain ⟨r, new, hrun, h⟩ := hasks k g hg hroom
    have hrun' := (heq k g hg hroom).trans hrun
    rw [askFor_cons, askFor_cons]
    cases r with
    | error e => rw [run_bind_error hrun, run_bind_error hrun']
    | ok n =>
      rw [run_bind_ok hrun, run_bind_ok hrun']
      exact ih h.sound (room_extend_le.trans_lt hroom)

/-- More depth than there is room makes no difference. -/
theorem run_nodeWithin {size depth : Nat} (hle : size ≤ depth) (k : TypeKey) (hg : g.Sound c)
    (hroom : g.room c < size) : (nodeWithin c depth k).run g = (nodeWithin c size k).run g := by
  induction size generalizing depth k g with
  | zero => exact absurd hroom (Nat.not_lt_zero _)
  | succ size ih =>
    obtain ⟨depth, rfl⟩ := Nat.exists_eq_add_of_le' (Nat.le_trans (Nat.le_add_left 1 size) hle)
    rw [nodeWithin, nodeWithin]
    by_cases hknown : c.contains k.model = true
    swap
    · rw [if_pos (by simpa using hknown), if_pos (by simpa using hknown)]
    rw [if_neg (by simpa using hknown), if_neg (by simpa using hknown), run_get, run_get]
    cases hfind : g.find? k with
    | some n => rfl
    | none =>
      obtain ⟨keys, hfields, -, -⟩ := exists_fieldsOf c k
      have hk : k ∉ g.keys := find?_eq_none.1 hfind
      -- registering the type takes room, so the induction hypothesis holds for what its fields ask
      have hregister : (register k).run g = (.ok ⟨⟩, g.extend [⟨k, none⟩]) := rfl
      have hasked := askFor_congr (asks_nodeWithin size)
        (fun k g => ih (Nat.le_of_succ_le_succ hle) k) keys (hg.register hknown hk)
        ((room_extend_lt hknown hk).trans_le (Nat.le_of_lt_succ hroom))
      dsimp only
      rw [run_bind_ok hregister, run_bind_ok hregister, hfields _ (byKey_nodeWithin c depth),
        hfields _ (byKey_nodeWithin c size), bind_assoc, bind_assoc, run_bind, run_bind, hasked]

/-- A type that is there is answered, and the graph is left alone. -/
theorem run_node_of_find? {n : TypeNode} (hg : g.Sound c) (h : g.find? k = some n) :
    (node c k).run g = (.ok n, g) := by
  have hknown : c.contains k.model = true :=
    hg.known k (List.mem_map.2 ⟨n, mem_of_find? h⟩)
  rw [node, bound, nodeWithin, if_neg (by simpa using hknown), run_get, h]
  rfl

end Building

/-- The fields of a complete type name no types but its own, those that it refers to, and shared
ones. -/
theorem TypeNode.Complete.among {c : Catalog} {n : TypeNode} (h : n.Complete c) {f : FieldNode}
    (hf : f ∈ n.fields) : f.Among (n.key :: n.key.refers c) := by
  obtain ⟨fields, hfields, hbuilt⟩ := h
  obtain ⟨keys, -, hok, -⟩ := Building.exists_fieldsOf c n.key
  rw [TypeNode.fields, hbuilt, Option.getD_some] at hf
  have hmem : f ∈ fields := (mem_foldl_put hf).resolve_left List.not_mem_nil
  exact (hok fields hfields).2 f hmem

/-- What is asked of a graph: a type, or the arguments of a list of entities at the root. -/
inductive TypeRequest where
  | type (k : TypeKey)
  | listArgs (m : ModelId) (options : ListOptions)

/-- What a graph answers. -/
inductive TypeAnswer where
  | type (n : TypeNode)
  | args (l : List Argument)

namespace TypeRequest

open Building TypeGraph

/-- The types that a request is about. -/
def asked : TypeRequest → List TypeKey
  | type k => [k]
  | listArgs m options => options.refers m

/-- Answer a request; types are built if need be. -/
def run (c : Catalog) : TypeRequest → Building TypeAnswer
  | type k => return .type (← node c k)
  | listArgs m options => return .args (← rootListArgs c m options)

/-- Answer requests one after the other. -/
def runAll (c : Catalog) (requests : List TypeRequest) : Building (List TypeAnswer) :=
  requests.mapM (run c)

/-- The answer to a request is what the graph holds. -/
def Holds (g : TypeGraph) : TypeRequest → TypeAnswer → Prop
  | type k, .type n => g.find? k = some n
  | listArgs m options, .args l => l = options.args m ∧ ∀ k ∈ options.refers m, k ∈ g.keys
  | _, _ => False

variable {c : Catalog} {g : TypeGraph} {new : List TypeNode} {r : TypeRequest} {a : TypeAnswer}

theorem Holds.extend (h : r.Holds g a) (new : List TypeNode) : r.Holds (g.extend new) a := by
  cases r <;> cases a <;> simp only [Holds] at h ⊢
  · exact find?_extend_of_some h
  · exact ⟨h.1, fun k hk => mem_keys_extend.2 (.inl (h.2 k hk))⟩

/-- The arguments at the root are known once the types that they refer to are there. -/
theorem run_listArgs (m : ModelId) (options : ListOptions) : (listArgs m options).run c = (do
    let _ ← askFor (node c) (options.refers m)
    return .args (options.args m)) := by
  have hbuild : ByKey (node c) := byKey_nodeWithin c (bound c)
  rw [run, rootListArgs, listArgs_eq hbuild, bind_assoc]
  exact bind_congr fun _ => pure_bind _ _

theorem asks_run (c : Catalog) (r : TypeRequest) :
    Asks c (bound c) (r.run c) r.asked fun g a => r.Holds g a := by
  cases r with
  | type k => exact (asks_nodeWithin _ k).map fun g n _ hn => hn
  | listArgs m options =>
    rw [run_listArgs]
    exact (Asks.askFor (asks_nodeWithin _) _).map fun g _ hkeys _ => ⟨rfl, hkeys⟩

theorem asks_runAll (c : Catalog) (requests : List TypeRequest) :
    Asks c (bound c) (runAll c requests) (requests.flatMap asked)
      fun g answers => List.Forall₂ (Holds g) requests answers :=
  .mapM (asks_run c) (fun _ _ new _ h => h.extend new) requests

/-- What a graph holds is answered again, and the graph is left alone. -/
theorem Holds.run_eq (hg : g.Sound c) (h : r.Holds g a) : (r.run c).run g = (.ok a, g) := by
  cases r with
  | type k =>
    cases a with
    | type n => exact run_bind_ok (run_node_of_find? hg h) _
    | args l => exact h.elim
  | listArgs m options =>
    cases a with
    | type n => exact h.elim
    | args l =>
      obtain ⟨rfl, hkeys⟩ := h
      have hasked : ∀ keys : List TypeKey, (∀ k ∈ keys, k ∈ g.keys) →
          (askFor (node c) keys).run g = (.ok ⟨⟩, g) := by
        intro keys hkeys
        induction keys with
        | nil => rfl
        | cons k keys ih =>
          obtain ⟨hk, hrest⟩ := List.forall_mem_cons.1 hkeys
          obtain ⟨n, hn, rfl⟩ := List.mem_map.1 hk
          rw [askFor_cons, run_bind_ok (run_node_of_find? hg (find?_of_mem hg.nodup hn))]
          exact ih hrest
      rw [run_listArgs, run_bind_ok (hasked _ hkeys)]
      rfl

/-- Arguments that a graph holds refer to shared types or to types of the graph. -/
theorem among_of_holds {requests : List TypeRequest} {answers : List TypeAnswer}
    (h : List.Forall₂ (Holds g) requests answers) {l : List Argument} (hl : .args l ∈ answers) :
    ∀ a ∈ l, a.type.Among g.keys := by
  induction h with
  | nil => cases hl
  | @cons r answer _ _ hr _ ih =>
    rcases List.mem_cons.1 hl with rfl | hl
    · cases r with
      | type k => exact hr.elim
      | listArgs m options =>
        obtain ⟨rfl, hkeys⟩ := hr
        exact fun a ha => (options.among_args m a ha).mono hkeys
    · exact ih hl

/-- What is known when requests have succeeded, beginning with the empty graph. -/
structure Answered (c : Catalog) (requests : List TypeRequest) (answers : List TypeAnswer)
    (g : TypeGraph) : Prop where
  /-- Every type is there once. -/
  nodup : g.keys.Nodup
  /-- The types are those that can be reached. -/
  exact : ∀ k, k ∈ g.keys ↔ ∃ r ∈ requests, ∃ k' ∈ r.asked, k'.Reaches c k
  /-- All fields are there. -/
  complete : ∀ n ∈ g.nodes, n.Complete c
  /-- Fields and their arguments refer to shared types or to types of the graph. -/
  closed : ∀ n ∈ g.nodes, ∀ f ∈ n.fields, f.Among g.keys
  /-- So do arguments at the root. -/
  closedArgs : ∀ l, .args l ∈ answers → ∀ a ∈ l, a.type.Among g.keys
  /-- A type of the graph is answered as it is. -/
  found : ∀ n ∈ g.nodes, (node c n.key).run g = (.ok n, g)
  /-- Requests that are made again are answered as before. -/
  again : List.Forall₂ (fun r a => (r.run c).run g = (.ok a, g)) requests answers
  /-- In another order the requests succeed as well, and make the same types. -/
  permuted : ∀ requests', requests.Perm requests' → ∃ answers' g',
    (runAll c requests').run .empty = (.ok answers', g') ∧ ∀ k, g'.find? k = g.find? k

/-- A graph of all types that can be reached from some keys, with their fields. -/
structure Whole (c : Catalog) (asked : List TypeKey) (g : TypeGraph) : Prop where
  sound : g.Sound c
  exact : ∀ k, k ∈ g.keys ↔ ∃ k' ∈ asked, k'.Reaches c k
  complete : ∀ n ∈ g.nodes, n.Complete c
  refers : ∀ n ∈ g.nodes, ∀ k ∈ n.key.refers c, k ∈ g.keys

/-- A graph that starts empty is whole when nothing has failed. -/
theorem whole_of_built {asked : List TypeKey} (hsound : (TypeGraph.empty.extend new).Sound c)
    (h : TypeGraph.empty.Built c asked new) : Whole c asked (TypeGraph.empty.extend new) := by
  refine ⟨hsound, fun k => ⟨fun hk => ?_, fun ⟨k', hk', hreaches⟩ => ?_⟩, h.complete, h.closed⟩
  · obtain ⟨n, hn, rfl⟩ := List.mem_map.1 hk
    exact h.reached n hn
  · induction hreaches with
    | refl => exact h.asked k' hk'
    | tail _ hrefers ih =>
      obtain ⟨n, hn, rfl⟩ := List.mem_map.1 (ih ⟨k', hk', ‹_›⟩)
      exact h.closed n hn _ hrefers

namespace Whole

variable {asked asked' : List TypeKey}

theorem buildable (h : Whole c asked g) {k : TypeKey} (hk : k ∈ asked) : k.Buildable c := by
  intro k' hreaches
  have hk' : k' ∈ g.keys := (h.exact k').2 ⟨k, hk, hreaches⟩
  obtain ⟨n, hn, rfl⟩ := List.mem_map.1 hk'
  obtain ⟨fields, hfields, -⟩ := h.complete n hn
  exact ⟨h.sound.known _ hk', fields, hfields⟩

theorem among (h : Whole c asked g) {n : TypeNode} (hn : n ∈ g.nodes) {f : FieldNode}
    (hf : f ∈ n.fields) : f.Among g.keys :=
  ((h.complete n hn).among hf).mono
    (List.forall_mem_cons.2 ⟨List.mem_map_of_mem hn, h.refers n hn⟩)

/-- The graph of some keys is determined but for the order of its types. -/
theorem find?_eq (h : Whole c asked g) {g' : TypeGraph} (h' : Whole c asked' g')
    (hasked : ∀ k, k ∈ asked ↔ k ∈ asked') (k : TypeKey) : g'.find? k = g.find? k := by
  have hkeys : k ∈ g'.keys ↔ k ∈ g.keys := by simp only [h'.exact, h.exact, hasked]
  cases hfind : g.find? k with
  | none => exact find?_eq_none.2 (mt hkeys.1 (find?_eq_none.1 hfind))
  | some n =>
    obtain ⟨hn, rfl⟩ := mem_of_find? hfind
    obtain ⟨n', hn', hkey⟩ := List.mem_map.1 (hkeys.2 (List.mem_map_of_mem hn))
    rw [← hkey, find?_of_mem h'.sound.nodup hn', (h'.complete n' hn').eq (h.complete n hn) hkey]

end Whole

theorem sound_empty : TypeGraph.empty.Sound c :=
  ⟨List.nodup_nil, fun _ hk => nomatch hk⟩

/-- What requests keep, whether they succeed or fail, holds at every moment of the construction. -/
theorem of_builtFrom {I : TypeGraph → Prop} (hempty : I .empty)
    (hstep : ∀ (g : TypeGraph) (r : TypeRequest), g.BuiltFrom c → I g → I ((r.run c).run g).2)
    (h : g.BuiltFrom c) : I g := by
  have hleft : ∀ {α : Type} (a : Building α) (f : α → TypeAnswer) (g : TypeGraph),
      ((do return f (← a) : Building TypeAnswer).run g).2 = (a.run g).2 := by
    intro α a f g
    rw [run_bind]
    rcases a.run g with ⟨_ | _, _⟩ <;> rfl
  induction h with
  | empty => exact hempty
  | node k hg ih => exact hleft (node c k) .type _ ▸ hstep _ (.type k) hg ih
  | rootListArgs m options hg ih =>
    exact hleft (rootListArgs c m options) .args _ ▸ hstep _ (.listArgs m options) hg ih

/-- Types are registered once, at every moment of the construction. -/
theorem sound_of_builtFrom (h : g.BuiltFrom c) : g.Sound c := by
  refine of_builtFrom sound_empty (fun g r _ hg => ?_) h
  obtain ⟨_, _, hrun, hr⟩ := asks_run c r g hg (room_lt_bound c g)
  exact hrun ▸ hr.sound

/-- Requests that succeed make a graph of exactly the types that can be reached, each with all its
fields, and the same graph in any order. Whatever was asked before, no request nests too deep or
builds fields twice, and more depth would change nothing. -/
theorem graph_complete (c : Catalog) :
    (∀ g : TypeGraph, g.BuiltFrom c →
      (∀ r : TypeRequest, ∀ reason, ((r.run c).run g).1 ≠ .error (.badSchema reason)) ∧
      ∀ depth, bound c ≤ depth → ∀ k, (nodeWithin c depth k).run g = (node c k).run g) ∧
    ∀ requests answers g, (runAll c requests).run .empty = (.ok answers, g) →
      Answered c requests answers g := by
  refine ⟨fun g hg => ⟨fun r reason heq => ?_, fun depth hdepth k => ?_⟩,
    fun requests answers g hrun => ?_⟩
  · obtain ⟨a, new, hrun, hr⟩ := asks_run c r g (sound_of_builtFrom hg) (room_lt_bound c g)
    rw [hrun] at heq
    exact hr.outside _ heq reason rfl
  · exact run_nodeWithin hdepth k (sound_of_builtFrom hg) (room_lt_bound c g)
  · -- the depth exceeds the room of the empty graph, whatever is asked
    have hasks : ∀ requests, ∃ r new,
        (runAll c requests).run .empty = (r, TypeGraph.empty.extend new) ∧
        Leads c (requests.flatMap asked)
          (fun g answers => List.Forall₂ (Holds g) requests answers) .empty r new := fun requests =>
      asks_runAll c requests .empty sound_empty (room_lt_bound c .empty)
    obtain ⟨r, new, hrun', hr⟩ := hasks requests
    obtain ⟨rfl, rfl⟩ := Prod.mk.inj (hrun.symm.trans hrun')
    obtain ⟨hbuilt, hholds⟩ := hr.built answers rfl
    have hwhole := whole_of_built hr.sound hbuilt
    refine ⟨hr.sound.nodup, fun k => ?_, hwhole.complete, fun n hn f hf => hwhole.among hn hf,
      fun l hl => among_of_holds hholds hl, fun n hn => ?_, ?_, fun requests' hperm => ?_⟩
    · rw [hwhole.exact]
      simp only [List.mem_flatMap]
      constructor
      · rintro ⟨k', ⟨r, hr, hk'⟩, hreaches⟩
        exact ⟨r, hr, k', hk', hreaches⟩
      · rintro ⟨r, hr, k', hk', hreaches⟩
        exact ⟨k', ⟨r, hr, hk'⟩, hreaches⟩
    · exact run_node_of_find? hr.sound (find?_of_mem hr.sound.nodup hn)
    · exact hholds.imp fun r a h => h.run_eq hr.sound
    · -- in any order the same types are asked for, and all of them can be built
      have hmem : ∀ k, k ∈ requests.flatMap asked ↔ k ∈ requests'.flatMap asked := fun k => by
        simp only [List.mem_flatMap, hperm.mem_iff]
      obtain ⟨r', new', hrun', hr'⟩ := hasks requests'
      obtain ⟨answers', rfl⟩ := hr'.succeeds fun k hk => hwhole.buildable ((hmem k).2 hk)
      have hwhole' := whole_of_built hr'.sound (hr'.built answers' rfl).1
      exact ⟨answers', _, hrun', hwhole.find?_eq hwhole' hmem⟩

/-- The shelf is a cycle of two models, and lists of books are filtered and ordered. -/
def shelfRequests : List TypeRequest :=
  [.listArgs Sample.Shelf.book ⟨true, true, true⟩, .type ⟨Sample.Shelf.book, .connection⟩,
    .type ⟨Sample.Shelf.author, .input⟩]

theorem graph_complete_shelf :
    TypeGraph.BuiltFrom Sample.Shelf.catalog .empty ∧
    (∀ reason, (((TypeRequest.type ⟨Sample.Shelf.book, .edge⟩).run Sample.Shelf.catalog).run
      .empty).1 ≠ .error (.badSchema reason)) ∧
    ∃ answers g, (runAll Sample.Shelf.catalog shelfRequests).run .empty = (.ok answers, g) ∧
      Answered Sample.Shelf.catalog shelfRequests answers g := by
  have hok : ((runAll Sample.Shelf.catalog shelfRequests).run .empty).1.isOk = true := by
    decide +kernel
  refine ⟨.empty, ((graph_complete Sample.Shelf.catalog).1 .empty .empty).1 _, ?_⟩
  rcases hrun : (runAll Sample.Shelf.catalog shelfRequests).run .empty with ⟨e | answers, g⟩
  · rw [hrun] at hok
    cases hok
  · exact ⟨answers, g, rfl, (graph_complete Sample.Shelf.catalog).2 _ _ _ hrun⟩

end TypeRequest

end EntityGraph
