import Mathlib.Tactic.SplitIfs

/-!
# Lists with one item of a name

Fields of a type and types of a schema are put into a list one after the other. A further item takes
the place of the item of its name, and comes last if there is none.

* `put` is this step, for items of any kind;
* `mem_foldl_put` and `exists_foldl_put` say that no other items come in and that no name gets lost;
* `find?_foldl_put` says that an item which is alone with its name is found under it.
-/

namespace EntityGraph

variable {α : Type} {name : α → String} {l added : List α} {x y : α} {s : String}

/-- A list with a further item, in the place of the item of its name if there is one. -/
def put (name : α → String) (l : List α) (x : α) : List α :=
  if l.any (name · == name x) then l.map fun y => if name y == name x then x else y else l ++ [x]

theorem mem_put (h : y ∈ put name l x) : y ∈ l ∨ y = x := by
  unfold put at h
  split_ifs at h
  · obtain ⟨z, hz, heq⟩ := List.mem_map.1 h
    split_ifs at heq
    · exact .inr heq.symm
    · exact .inl (heq ▸ hz)
  · exact (List.mem_append.1 h).imp_right List.mem_singleton.1

/-- Every item is one of those that were put in. -/
theorem mem_foldl_put (h : y ∈ added.foldl (put name) l) : y ∈ l ∨ y ∈ added := by
  induction added generalizing l with
  | nil => exact .inl h
  | cons x rest ih =>
    rcases ih h with h | h
    · refine (mem_put h).imp_right ?_
      rintro rfl
      exact List.mem_cons_self
    · exact .inr (List.mem_cons_of_mem x h)

/-- An item that is replaced is replaced by one of its name. -/
theorem exists_put (h : ∃ y ∈ l ++ [x], name y = s) : ∃ y ∈ put name l x, name y = s := by
  obtain ⟨y, hy, rfl⟩ := h
  unfold put
  split_ifs with hany
  · obtain ⟨z, hz, heq⟩ := List.any_eq_true.1 hany
    rcases List.mem_append.1 hy with hy | hy
    · refine ⟨if name y == name x then x else y, List.mem_map.2 ⟨y, hy, rfl⟩, ?_⟩
      split_ifs with hname
      · exact (beq_iff_eq.1 hname).symm
      · rfl
    · obtain rfl := List.mem_singleton.1 hy
      exact ⟨y, List.mem_map.2 ⟨z, hz, if_pos heq⟩, rfl⟩
  · exact ⟨y, hy, rfl⟩

/-- A name that was put in stays. -/
theorem exists_foldl_put (h : ∃ y ∈ l ++ added, name y = s) :
    ∃ y ∈ added.foldl (put name) l, name y = s := by
  induction added generalizing l with
  | nil => simpa using h
  | cons x rest ih =>
    refine ih ?_
    rw [List.append_cons] at h
    obtain ⟨y, hy, hname⟩ := h
    rcases List.mem_append.1 hy with hy | hy
    · obtain ⟨z, hz, hname⟩ := exists_put ⟨y, hy, hname⟩
      exact ⟨z, List.mem_append_left _ hz, hname⟩
    · exact ⟨y, List.mem_append_right _ hy, hname⟩

/-- An item that is alone with its name is found under it. -/
theorem find?_foldl_put (hx : x ∈ added) (honly : ∀ y ∈ added, name y = name x → y = x) :
    (added.foldl (put name) []).find? (name · == name x) = some x := by
  obtain ⟨y, hy, hname⟩ := exists_foldl_put ⟨x, List.mem_append_right [] hx, rfl⟩
  have hsome : ((added.foldl (put name) []).find? (name · == name x)).isSome = true :=
    List.find?_isSome.2 ⟨y, hy, beq_iff_eq.2 hname⟩
  obtain ⟨z, hz⟩ := Option.isSome_iff_exists.1 hsome
  have hmem := (mem_foldl_put (List.mem_of_find?_eq_some hz)).resolve_left List.not_mem_nil
  have hname : name z = name x := by simpa using List.find?_some hz
  rw [hz, honly z hmem hname]

end EntityGraph
