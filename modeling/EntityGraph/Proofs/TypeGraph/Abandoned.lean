import EntityGraph.Proofs.TypeGraph.Complete

/-!
# What failed constructions leave behind

A type is registered before its fields are built, and a failure leaves it registered without them.
It is answered as if it were there when it is asked for again, and so are types that refer to it.

* `TypeNode.Left` says what every type of a graph is, whatever succeeded or failed before: complete,
  with all that it refers to registered, or abandoned, for it can reach a fault;
* `Building.Leaves` are the steps that leave such types only;
* `TypeRequest.answers_whole` tells the answers with all fields from those without.
-/

namespace EntityGraph

/-- A type of a graph is complete and all that it refers to is there, or it has no fields and cannot
be built. -/
def TypeNode.Left (c : Catalog) (g : TypeGraph) (n : TypeNode) : Prop :=
  (n.Complete c ∧ ∀ k ∈ n.key.refers c, k ∈ g.keys) ∨ (n.built = none ∧ ¬ n.key.Buildable c)

namespace TypeGraph

variable {c : Catalog} {g : TypeGraph} {new : List TypeNode}

theorem keys_subset_extend : ∀ k ∈ g.keys, k ∈ (g.extend new).keys :=
  fun _ hk => mem_keys_extend.2 (.inl hk)

end TypeGraph

theorem TypeNode.Left.mono {c : Catalog} {g g' : TypeGraph} {n : TypeNode} (h : n.Left c g)
    (hkeys : ∀ k ∈ g.keys, k ∈ g'.keys) : n.Left c g' :=
  h.imp_left fun ⟨hcomplete, hrefers⟩ => ⟨hcomplete, fun k hk => hkeys k (hrefers k hk)⟩

namespace Building

open TypeGraph

variable {α β : Type} {c : Catalog} {size : Nat} {g : TypeGraph} {k : TypeKey}
  {build : TypeKey → Building TypeNode}

/-- A step adds types to a graph that are complete or cannot be built, whether it succeeds or
fails. -/
def LeavesIn (c : Catalog) (g : TypeGraph) (a : Building α) : Prop :=
  ∃ r new, a.run g = (r, g.extend new) ∧ (g.extend new).Sound c ∧
    ∀ n ∈ new, n.Left c (g.extend new)

/-- A step adds such types to all graphs, as far as there is less than so much room for them. -/
def Leaves (c : Catalog) (size : Nat) (a : Building α) : Prop :=
  ∀ g : TypeGraph, g.Sound c → g.room c < size → LeavesIn c g a

namespace Leaves

theorem of_run_eq {a : Building α} {r : Except Error α} (h : a.run g = (r, g)) (hg : g.Sound c) :
    LeavesIn c g a :=
  ⟨r, [], by rwa [extend_nil], by rwa [extend_nil], fun _ hn => nomatch hn⟩

theorem pure (v : α) : Leaves c size (Pure.pure v) :=
  fun _ hg _ => of_run_eq rfl hg

theorem bind {a : Building α} {f : α → Building β} (ha : Leaves c size a)
    (hf : ∀ v, Leaves c size (f v)) : Leaves c size (a >>= f) := by
  intro g hg hroom
  obtain ⟨r, new, hrun, hsound, hleft⟩ := ha g hg hroom
  cases r with
  | error e => exact ⟨_, new, run_bind_error hrun f, hsound, hleft⟩
  | ok v =>
    obtain ⟨r', new', hrun', hsound', hleft'⟩ := hf v _ hsound (room_extend_le.trans_lt hroom)
    rw [extend_extend] at hrun' hsound' hleft'
    refine ⟨r', new ++ new', (run_bind_ok hrun f).trans hrun', hsound', ?_⟩
    refine List.forall_mem_append.2 ⟨fun n hn => (hleft n hn).mono ?_, hleft'⟩
    rw [← extend_extend]
    exact keys_subset_extend

theorem askFor (hbuild : ∀ k, Leaves c size (build k)) (keys : List TypeKey) :
    Leaves c size (Building.askFor build keys) := by
  induction keys with
  | nil => exact .pure _
  | cons k keys ih =>
    rw [askFor_cons]
    exact (hbuild k).bind fun _ => ih

end Leaves

/-- A type that fails cannot be built. -/
theorem not_buildable_of_error {e : Error} {g' : TypeGraph} (hg : g.Sound c)
    (hroom : g.room c < size) (h : (nodeWithin c size k).run g = (.error e, g')) :
    ¬ k.Buildable c := by
  intro hk
  obtain ⟨r, new, hrun, hleads⟩ := asks_nodeWithin size k g hg hroom
  obtain ⟨n, rfl⟩ := hleads.succeeds (List.forall_mem_singleton.2 hk)
  cases hrun.symm.trans h

theorem run_unregistered (hknown : c.contains k.model = true) (hk : k ∉ g.keys) :
    (nodeWithin c (size + 1) k).run g = (do
      register k
      let fields ← fieldsOf (nodeWithin c size) c k
      complete k fields).run g := by
  rw [nodeWithin, if_neg (by simpa using hknown), run_get, find?_eq_none.2 hk]

/-- A type that was not there is complete afterwards, or it has failed. -/
theorem leaves_fresh (ih : ∀ k, Leaves c size (nodeWithin c size k)) (hg : g.Sound c)
    (hroom : g.room c < size + 1) (hknown : c.contains k.model = true) (hk : k ∉ g.keys) :
    LeavesIn c g (nodeWithin c (size + 1) k) := by
  obtain ⟨keys, hfields, hok, -⟩ := exists_fieldsOf c k
  have hregistered : (g.extend [⟨k, none⟩]).Sound c := hg.register hknown hk
  have hless : (g.extend [⟨k, none⟩]).room c < size :=
    (room_extend_lt hknown hk).trans_le (Nat.le_of_lt_succ hroom)
  obtain ⟨r, new, hrun, hsound, hleft⟩ := Leaves.askFor ih keys _ hregistered hless
  obtain ⟨r', new', hrun', hleads⟩ := Asks.askFor (asks_nodeWithin size) keys _ hregistered hless
  obtain ⟨rfl, hgraph⟩ := Prod.mk.inj (hrun'.symm.trans hrun)
  -- Only the keys of the graph matter for what is behind the type, not its fields.
  have hkeys : ∀ built, (g.extend (⟨k, built⟩ :: new)).keys
      = ((g.extend [⟨k, none⟩]).extend new).keys := by simp [TypeGraph.keys, extend]
  have hsound' : ∀ built, (g.extend (⟨k, built⟩ :: new)).Sound c := fun built =>
    ⟨hkeys built ▸ hsound.nodup, hkeys built ▸ hsound.known⟩
  have hleft' : ∀ built, ∀ n ∈ new, n.Left c (g.extend (⟨k, built⟩ :: new)) :=
    fun built n hn => (hleft n hn).mono fun k' hk' => (hkeys built).symm ▸ hk'
  have hrun'' : (askFor (nodeWithin c size) keys).run (g.extend [⟨k, none⟩])
      = (r', g.extend (⟨k, none⟩ :: new)) := by
    rw [hrun, extend_extend]
    rfl
  have hnode := (run_unregistered hknown hk).trans
    (run_fresh (hfields _ (byKey_nodeWithin c size)) hrun'' hk (hsound' none).nodup)
  have hfailed : ∀ {e},
      (nodeWithin c (size + 1) k).run g = (.error e, g.extend (⟨k, none⟩ :: new)) →
      LeavesIn c g (nodeWithin c (size + 1) k) := fun h =>
    ⟨_, _, h, hsound' none, List.forall_mem_cons.2
      ⟨.inr ⟨rfl, not_buildable_of_error hg hroom h⟩, hleft' none⟩⟩
  cases r' with
  | error e => exact hfailed hnode
  | ok v =>
    cases hdeclared : k.declared c with
    | error e =>
      rw [hdeclared] at hnode
      exact hfailed hnode
    | ok fields =>
      rw [hdeclared] at hnode
      refine ⟨_, _, hnode, hsound' _, List.forall_mem_cons.2 ⟨.inl ⟨⟨fields, hdeclared, rfl⟩, ?_⟩,
        hleft' _⟩⟩
      intro k' hk'
      rw [hkeys, ← hgraph]
      exact (hleads.built v rfl).1.asked k' ((hok fields hdeclared).1 ▸ hk')

/-- The induction is on the depth, as for `asks_nodeWithin`. -/
theorem leaves_nodeWithin (size : Nat) (k : TypeKey) : Leaves c size (nodeWithin c size k) := by
  induction size generalizing k with
  | zero => exact fun g _ hroom => absurd hroom (Nat.not_lt_zero _)
  | succ size ih =>
    intro g hg hroom
    by_cases hknown : c.contains k.model = true
    swap
    · refine Leaves.of_run_eq (r := .error (.unknownModel k.model)) ?_ hg
      rw [nodeWithin, if_pos (by simpa using hknown)]
      rfl
    cases hfind : g.find? k with
    | none => exact leaves_fresh ih hg hroom hknown (find?_eq_none.1 hfind)
    | some n =>
      refine Leaves.of_run_eq (r := .ok n) ?_ hg
      rw [nodeWithin, if_neg (by simpa using hknown), run_get, hfind]
      rfl

theorem leaves_run (c : Catalog) (r : TypeRequest) : Leaves c (bound c) (r.run c) := by
  cases r with
  | type k => exact (leaves_nodeWithin (bound c) k).bind fun n => .pure _
  | listArgs m options =>
    rw [TypeRequest.run_listArgs]
    exact (Leaves.askFor (leaves_nodeWithin (bound c)) _).bind fun _ => .pure _

end Building

namespace TypeGraph

variable {c : Catalog} {g : TypeGraph} {asked : List TypeKey} {k k' : TypeKey}

/-- A request leaves complete types and such that cannot be built. -/
theorem left_run (hg : g.Sound c) (hleft : ∀ n ∈ g.nodes, n.Left c g) (r : TypeRequest) :
    ∀ n ∈ ((r.run c).run g).2.nodes, n.Left c ((r.run c).run g).2 := by
  obtain ⟨_, new, hrun, -, hnew⟩ := Building.leaves_run c r g hg (room_lt_bound c g)
  rw [hrun]
  exact List.forall_mem_append.2 ⟨fun n hn => (hleft n hn).mono keys_subset_extend, hnew⟩

/-- Whatever was asked for before, and whether it could be built. -/
theorem left_of_builtFrom (h : g.BuiltFrom c) : ∀ n ∈ g.nodes, n.Left c g :=
  TypeRequest.of_builtFrom (I := fun g => ∀ n ∈ g.nodes, n.Left c g) (fun _ hn => nomatch hn)
    (fun _ r hg hleft => left_run (TypeRequest.sound_of_builtFrom hg) hleft r) h

/-- A graph has all types that can be reached from some keys, with their fields, and these name no
types but shared ones and those to which their type leads. -/
def Provides (c : Catalog) (asked : List TypeKey) (g : TypeGraph) : Prop :=
  ∀ k ∈ asked, ∀ k', k.Reaches c k' → ∃ n, g.find? k' = some n ∧ n.Complete c ∧
    ∀ f ∈ n.fields, f.Among (k' :: k'.refers c)

/-- No type that can be reached from some keys lacks its fields. -/
def Finished (c : Catalog) (asked : List TypeKey) (g : TypeGraph) : Prop :=
  ∀ n ∈ g.nodes, (∃ k ∈ asked, k.Reaches c n.key) → n.built ≠ none

/-- A graph without abandoned types behind some keys has all types that these lead to. -/
theorem provides_of_finished (hnodup : g.keys.Nodup) (hleft : ∀ n ∈ g.nodes, n.Left c g)
    (hasked : ∀ k ∈ asked, k ∈ g.keys) (h : g.Finished c asked) : g.Provides c asked := by
  intro k hk k' hreaches
  have hcomplete : ∀ n ∈ g.nodes, k.Reaches c n.key →
      n.Complete c ∧ ∀ k ∈ n.key.refers c, k ∈ g.keys := fun n hn hreaches =>
    (hleft n hn).resolve_right fun hnone => h n hn ⟨k, hk, hreaches⟩ hnone.1
  have hmem : k' ∈ g.keys := by
    induction hreaches with
    | refl => exact hasked k hk
    | tail hreaches hrefers ih =>
      obtain ⟨n, hn, rfl⟩ := List.mem_map.1 ih
      exact (hcomplete n hn hreaches).2 _ hrefers
  obtain ⟨n, hn, rfl⟩ := List.mem_map.1 hmem
  have hn' := (hcomplete n hn hreaches).1
  exact ⟨n, find?_of_mem hnodup hn, hn', fun f hf => hn'.among hf⟩

theorem Provides.buildable (hsound : g.Sound c) (h : g.Provides c asked) :
    ∀ k ∈ asked, k.Buildable c := by
  intro k hk k' hreaches
  obtain ⟨n, hn, ⟨fields, hfields, -⟩, -⟩ := h k hk k' hreaches
  obtain ⟨hmem, rfl⟩ := mem_of_find? hn
  exact ⟨hsound.known _ (List.mem_map_of_mem hmem), fields, hfields⟩

/-- What can be built was not abandoned, nor was what it leads to. -/
theorem finished_of_buildable (hleft : ∀ n ∈ g.nodes, n.Left c g)
    (h : ∀ k ∈ asked, k.Buildable c) : g.Finished c asked := by
  rintro n hn ⟨k, hk, hreaches⟩ hnone
  rcases hleft n hn with ⟨⟨_, -, hsome⟩, -⟩ | ⟨-, hnot⟩
  · cases hnone.symm.trans hsome
  · exact hnot fun k' hreaches' => h k hk k' (hreaches.trans hreaches')

end TypeGraph

namespace TypeRequest

open TypeGraph

variable {c : Catalog} {g g' : TypeGraph} {r : TypeRequest} {x : Except Error TypeAnswer}

/-- A request after any others, of which some may have failed. It leaves the types that are there as
they are, those that an earlier failure left without fields too, and no type without fields can be
built. It succeeds if all that it asks for can be built. Where it succeeds, it answers what the
graph holds; all types that are reached from what it asks for have their fields exactly if that can
be built, and otherwise one of them was abandoned. So where no failure has left a type without
fields, a success leaves none. -/
theorem answers_whole (hg : g.BuiltFrom c) (hrun : (r.run c).run g = (x, g')) :
    (∀ n ∈ g.nodes, n ∈ g'.nodes) ∧
    (∀ n ∈ g'.nodes, n.built = none → ¬ n.key.Buildable c) ∧
    ((∀ k ∈ r.asked, k.Buildable c) → ∃ a, x = .ok a) ∧
    ∀ a, x = .ok a → r.Holds g' a ∧
      (g'.Provides c r.asked ↔ ∀ k ∈ r.asked, k.Buildable c) ∧
      (g'.Provides c r.asked ↔ g'.Finished c r.asked) ∧
      ((∀ n ∈ g.nodes, n.built ≠ none) →
        g'.Provides c r.asked ∧ ∀ n ∈ g'.nodes, n.built ≠ none) := by
  have hsound := sound_of_builtFrom hg
  have hleft := left_run hsound (left_of_builtFrom hg) r
  obtain ⟨_, new, hrun', hr⟩ := asks_run c r g hsound (room_lt_bound c g)
  obtain ⟨rfl, rfl⟩ := Prod.mk.inj (hrun'.symm.trans hrun)
  rw [hrun] at hleft
  refine ⟨fun n hn => List.mem_append_left new hn, fun n hn hnone => ?_, hr.succeeds,
    fun a ha => ?_⟩
  · rcases hleft n hn with ⟨⟨_, -, hsome⟩, -⟩ | ⟨-, hnot⟩
    · cases hnone.symm.trans hsome
    · exact hnot
  obtain ⟨hbuilt, hholds⟩ := hr.built a ha
  have hprovides : (g.extend new).Finished c r.asked → (g.extend new).Provides c r.asked :=
    provides_of_finished hr.sound.nodup hleft hbuilt.asked
  refine ⟨hholds, ⟨Provides.buildable hr.sound, fun h => hprovides (finished_of_buildable hleft h)⟩,
    ⟨fun h => finished_of_buildable hleft (h.buildable hr.sound), hprovides⟩, fun hall => ?_⟩
  -- what a success adds is complete, so nothing without fields comes from it
  have hnew : ∀ n ∈ (g.extend new).nodes, n.built ≠ none := by
    refine List.forall_mem_append.2 ⟨hall, fun n hn hnone => ?_⟩
    obtain ⟨_, -, hsome⟩ := hbuilt.complete n hn
    cases hnone.symm.trans hsome
  exact ⟨hprovides fun n hn _ => hnew n hn, hnew⟩

section Shelf

/-- A book with a property that no interface can express. -/
def mixedCatalog : Catalog :=
  ⟨Sample.Shelf.catalog.definitions.modify 1 fun d => { d with annotations :=
    "@property int $id\n@property mixed $extra" }⟩

/-- The object of books, which cannot be built. -/
def mixedBook : TypeKey :=
  ⟨Sample.Shelf.book, .object⟩

/-- The input of authors, which sets their books by keys. -/
def authorInput : TypeKey :=
  ⟨Sample.Shelf.author, .input⟩

/-- What is left of books. -/
def mixedBooks : TypeGraph :=
  ((Building.node mixedCatalog mixedBook).run .empty).2

/-- The failure of one type is no hindrance to another. -/
theorem answers_whole_mixed : ∃ e g a g',
    (Building.node mixedCatalog mixedBook).run .empty = (.error e, g) ∧
    ((type authorInput).run mixedCatalog).run g = (.ok a, g') ∧
    (∃ n ∈ g'.nodes, n.built = none) ∧ g'.Provides mixedCatalog [authorInput] := by
  have hbuilt : mixedBooks.BuiltFrom mixedCatalog := .node _ .empty
  have hbuildable : ∀ k ∈ (type authorInput).asked, k.Buildable mixedCatalog := by
    refine List.forall_mem_singleton.2 fun k hreaches => ?_
    have hrefers : authorInput.refers mixedCatalog = [] := rfl
    rcases hreaches.cases_head with rfl | ⟨k', hk', -⟩
    · exact ⟨rfl, exists_of_isOk (by rfl)⟩
    · rw [hrefers] at hk'
      cases hk'
  obtain ⟨e, he⟩ : ∃ e, ((Building.node mixedCatalog mixedBook).run .empty).1 = .error e := ⟨_, rfl⟩
  have hnodes : mixedBooks.nodes = [⟨mixedBook, none⟩] := rfl
  rcases houtcome : ((type authorInput).run mixedCatalog).run mixedBooks with ⟨x, g'⟩
  obtain ⟨hkept, -, hsucceeds, hanswers⟩ := answers_whole hbuilt houtcome
  obtain ⟨a, rfl⟩ := hsucceeds hbuildable
  have hbook : (⟨mixedBook, none⟩ : TypeNode) ∈ mixedBooks.nodes := by
    rw [hnodes]
    exact List.mem_cons_self
  exact ⟨e, mixedBooks, a, g', Prod.ext he rfl, houtcome, ⟨_, hkept _ hbook, rfl⟩,
    (hanswers a rfl).2.1.2 hbuildable⟩

/-- A book that could not be built is answered without fields when it is asked for again. -/
theorem mixedBook_answered_without_fields : ∃ e g,
    (Building.node mixedCatalog mixedBook).run .empty = (.error e, g) ∧
    (Building.node mixedCatalog mixedBook).run g = (.ok ⟨mixedBook, none⟩, g) :=
  ⟨_, _, rfl, rfl⟩

end Shelf

end TypeRequest

end EntityGraph
