import EntityGraph.Proofs.Relation.Conventional
import EntityGraph.Proofs.Relation.Shares
import EntityGraph.Sample.Shelf

/-!
# Inverse relations

Two models may each have a relation to the other that is stored by the same rows: both by one table
of pairs, or one by a key that the targets hold and the other by that key.

* `Relation.Relates` says of a row of the target's table that it is linked to a key of an owner, and
  `Relation.answers_iff_relates` that the query for the targets of an owner answers such rows;
* `RelationKind.link_swap` says that the conventional names of a many-to-many relation, seen from
  the other side, are the same table of pairs with its keys swapped;
* `Catalog.inverse_answers` is the result: from both sides the same links are seen, as long as the
  table of the targets does not have the foreign key twice.
-/

namespace EntityGraph

/-- An entity holds what the row that it shows holds, in a column which the table does not have
twice. -/
theorem Entity.get_of_row {e : Entity} {t : Table} {row : Row} {column : String}
    (he : e.attributes = t.record row) (hrow : row.length = t.schema.length)
    (hcolumn : (t.schema.map (·.name)).count column ≤ 1) :
    e.get column = t.datum column row := by
  rw [get, he]
  rcases Nat.le_one_iff_eq_zero_or_eq_one.1 hcolumn with hnone | hone
  · have hnotMem := List.count_eq_zero.1 hnone
    have hplace : t.place? column = none := List.findIdx?_eq_none_iff.2 fun spec hspec =>
      beq_false_of_ne fun hname => hnotMem (List.mem_map.2 ⟨spec, hspec, hname⟩)
    have hget : (t.record row).get? column = none :=
      Table.get?_foldl_set_of_notMem row Dict.empty hnotMem
    rw [hget, Table.datum_eq_null hplace, Option.getD_none]
  · rw [Table.record_get? hone hrow, Option.getD_some]

namespace Relation

/-- A row of the target's table is linked to what an owner holds as its key. -/
def Relates (s : Store) (r : Relation) (t : Table) (key : Datum) (row : Row) : Prop :=
  match r.link with
  | .belongsTo _ => (t.datum idName row).equals key = true
  | .hasOne column => (t.datum column row).equals key = true
  | .hasMany column => (t.datum column row).equals key = true
  | .belongsToMany pivot ownerKey relatedKey => ∃ p, s.table pivot = .ok p ∧ ∃ pair ∈ p.rows,
      (p.datum ownerKey pair).equals key = true ∧
        (p.datum relatedKey pair).equals (t.datum idName row) = true

variable {s : Store} {r : Relation} {owner : Entity} {t : Table} {row : Row} {record : Record}

section Rows

variable (hs : s.Full) (hids : s.Ids r.targetTable) (ht : s.table r.targetTable = .ok t)
  (hrow : row ∈ t.rows)

include hs hids ht hrow

/-- Of the rows of the target's table that a query finds by one of their columns. -/
theorem answers_column_iff {column : String} (hjoins : r.linkJoins = [])
    (hlink : r.linkColumn = Column.of r.targetTable column) :
    r.Answers s owner (t.record row) ↔
      (t.datum column row).equals (owner.get r.ownerKey) = true := by
  have hname := (Store.mem_of_table ht).2
  rw [answers_iff, hjoins, hlink, ← hname]
  simp only [Store.frame_nil_eq_ok]
  constructor
  · rintro ⟨_, ⟨u, hu, rfl⟩, -, row', hrow', hequals, hpart⟩
    obtain rfl : t = u := Except.ok.inj (ht.symm.trans (hname ▸ hu))
    rw [Frame.ofTable, Select.part_columns] at hpart
    obtain rfl : row' = row := hids.row_eq ht hrow' hrow (by rw [hpart])
    rwa [Frame.ofTable, Table.datum_of] at hequals
  · intro hequals
    obtain ⟨place, hplace⟩ := Table.exists_place?_of_ne_null (Datum.ne_null_of_equals hequals)
    refine ⟨_, ⟨t, hname.symm ▸ ht, rfl⟩, fun row' hrow' => ⟨t.datum column row', ?_⟩, row, hrow,
      ?_, Select.part_columns t row⟩
    · rw [Frame.ofTable, Table.get_of (hs.table ht row' hrow'), hplace]
      rfl
    · rwa [Frame.ofTable, Table.datum_of]

section Pivot

variable {pivot ownerKey relatedKey : String} {p : Table} (hp : s.table pivot = .ok p)
  (hne : pivot ≠ r.targetTable)

include hp hne

omit hids in
/-- A column of the pairs is not found among those of the target. -/
theorem get_pair (column : String) (pair : Row) :
    Row.get (t.columns ++ p.columns) (row ++ pair) (Column.of pivot column)
      = pair.get p.columns (Column.of p.name column) := by
  rw [Store.get_behind ht (hs.table ht row hrow) rfl hne, (Store.mem_of_table hp).2]

omit hids in
theorem datum_pair (column : String) (pair : Row) :
    Row.datum (t.columns ++ p.columns) (row ++ pair) (Column.of pivot column)
      = p.datum column pair := by
  rw [Row.datum, get_pair hs ht hrow hp hne, ← Row.datum, Table.datum_of]

theorem holds_pivotJoin (pair : Row) :
    holds ((r.pivotJoin pivot relatedKey).admits (t.columns ++ p.columns) (row ++ pair))
      = (p.datum relatedKey pair).equals (t.datum idName row) := by
  rw [Loader.holds_admits rfl, pivotJoin, datum_pair hs ht hrow hp hne, idColumn,
    Store.datum_append hs ht (hids t ht).1 hrow, ← (Store.mem_of_table ht).2, Table.datum_of]

end Pivot

/-- Of the rows of the target's table that a query finds by a table of pairs. -/
theorem answers_pivot_iff {pivot ownerKey relatedKey : String} (hne : pivot ≠ r.targetTable)
    (hjoins : r.linkJoins = [r.pivotJoin pivot relatedKey])
    (hlink : r.linkColumn = Column.of pivot ownerKey) :
    r.Answers s owner (t.record row) ↔ ∃ p, s.table pivot = .ok p ∧ ∃ pair ∈ p.rows,
      (p.datum ownerKey pair).equals (owner.get r.ownerKey) = true ∧
        (p.datum relatedKey pair).equals (t.datum idName row) = true := by
  have hpart : ∀ {p : Table}, s.table pivot = .ok p → ∀ a ∈ t.rows, ∀ pair,
      Select.part r.targetTable (t.columns ++ p.columns) (a ++ pair) = t.record a := by
    intro p hp a ha pair
    rw [← (Store.mem_of_table ht).2] at hne ⊢
    exact Select.part_append (hs.table ht a ha) (Store.columns_ne hp hne.symm)
  rw [answers_iff, hjoins, hlink]
  simp only [Store.frame_singleton_eq_ok, Store.join_eq_ok]
  constructor
  · rintro ⟨_, ⟨u, p, hu, hp, -, rfl⟩, -, joined, hjoined, hequals, hrecord⟩
    obtain rfl : t = u := Except.ok.inj (ht.symm.trans hu)
    obtain ⟨hmem, hadmits⟩ := List.mem_filter.1 hjoined
    obtain ⟨a, ha, pair, hpair, rfl⟩ := Frame.mem_pairs.1 hmem
    obtain rfl : a = row :=
      hids.row_eq ht ha hrow (by rw [← hpart hp a ha pair, ← hrecord]; rfl)
    refine ⟨p, hp, pair, hpair, ?_, ?_⟩
    · rwa [← datum_pair hs ht hrow hp hne]
    · rwa [← holds_pivotJoin hs hids ht hrow hp hne]
  · rintro ⟨p, hp, pair, hpair, howner, hrelated⟩
    -- both columns hold a datum somewhere, so they exist, and every pair has them
    have hget : ∀ {column d}, (p.datum column pair).equals d = true → ∀ a ∈ t.rows, ∀ b ∈ p.rows,
        Row.get (t.columns ++ p.columns) (a ++ b) (Column.of pivot column)
          = .ok (p.datum column b) := by
      intro column d hequals a ha b hb
      obtain ⟨place, hplace⟩ := Table.exists_place?_of_ne_null (Datum.ne_null_of_equals hequals)
      rw [get_pair hs ht ha hp hne, Table.get_of (hs.table hp b hb), hplace]
      rfl
    have hid : ∀ a ∈ t.rows, ∀ b, ∃ d,
        Row.get (t.columns ++ p.columns) (a ++ b) (idColumn r.targetTable) = .ok d := by
      intro a ha b
      have hcolumn := (hids t ht).1.hasColumn
      obtain ⟨d, hd⟩ := Store.exists_get_of_hasColumn ht (hs.table ht a ha) hcolumn
      exact ⟨d, (Store.get_front ht (hs.table ht a ha) hcolumn p.columns b).trans hd⟩
    refine ⟨_, ⟨t, p, ht, hp, fun a ha b hb => ?_, rfl⟩, fun joined hjoined => ?_, row ++ pair,
      List.mem_filter.2 ⟨Frame.mem_pairs.2 ⟨row, hrow, pair, hpair, rfl⟩, ?_⟩, ?_,
      hpart hp row hrow pair⟩
    · obtain ⟨d, hd⟩ := hid a ha b
      exact Join.exists_admits_eq_ok rfl (hget hrelated a ha b hb) hd
    · obtain ⟨a, ha, b, hb, rfl⟩ := Frame.mem_pairs.1 (List.mem_of_mem_filter hjoined)
      exact ⟨_, hget howner a ha b hb⟩
    · exact (holds_pivotJoin hs hids ht hrow hp hne pair).trans hrelated
    · rwa [Frame.ofTable, datum_pair hs ht hrow hp hne]

/-- The query for the targets of an owner answers the rows that are linked to its key. -/
theorem answers_iff_relates (hapart : r.PairsApart) :
    r.Answers s owner (t.record row) ↔ r.Relates s t (owner.get r.ownerKey) row := by
  obtain ⟨property, ownerTable, target, targetTable, link⟩ := r
  cases link with
  | belongsTo key => exact answers_column_iff hs hids ht hrow rfl rfl
  | hasOne key => exact answers_column_iff hs hids ht hrow rfl rfl
  | hasMany key => exact answers_column_iff hs hids ht hrow rfl rfl
  | belongsToMany pivot ownerKey relatedKey =>
    exact answers_pivot_iff hs hids ht hrow (hapart _ (List.mem_singleton.2 rfl)) rfl rfl

end Rows

end Relation

/-- The conventional names of a many-to-many relation, seen from the other side, are the same table
of pairs with the two keys swapped. -/
theorem RelationKind.link_swap (a b : String) {property property' pivot ownerKey relatedKey : String}
    (h : link (.belongsToMany none none none) a b property
      = .belongsToMany pivot ownerKey relatedKey) :
    link (.belongsToMany none none none) b a property'
      = .belongsToMany pivot relatedKey ownerKey := by
  simp only [link, Option.getD_none, Link.belongsToMany.injEq] at h ⊢
  obtain ⟨rfl, rfl, rfl⟩ := h
  refine ⟨?_, rfl, rfl⟩
  rcases lt_trichotomy (snakeCase a) (snakeCase b) with hlt | heq | hlt
  · rw [if_pos hlt, if_neg hlt.not_gt]
  · rw [heq]
  · rw [if_pos hlt, if_neg hlt.not_gt]

namespace Catalog

/-- Two relations lead back and forth between two models and are stored by the same rows: both are
many-to-many under the conventional names, with a table of pairs apart from the tables of the
models, or the targets of one hold the key by which the other finds its target. -/
structure Inverse (c : Catalog) (A B : ModelId) (p q : String) (r r' : Relation) : Prop where
  there : c.relation A p = .ok r
  back : c.relation B q = .ok r'
  target : r.target = B
  owner : r'.target = A
  stored : (∃ d d', c.PairsByDefault A p r d d' ∧ c.PairsByDefault B q r' d' d ∧
      r.PairsApart ∧ r'.PairsApart) ∨
    ∃ key, (r.link = .hasOne key ∨ r.link = .hasMany key) ∧ r'.link = .belongsTo key

namespace Inverse

variable {c : Catalog} {A B : ModelId} {p q : String} {r r' : Relation}
  (h : c.Inverse A B p q r r')

include h

theorem targetTable_eq : r'.targetTable = r.ownerTable := by
  obtain ⟨hA, -, -⟩ := relation_eq_ok h.there
  obtain ⟨-, hA', -⟩ := relation_eq_ok h.back
  rw [h.owner] at hA'
  exact Except.ok.inj (hA'.symm.trans hA)

/-- Of two many-to-many relations under the conventional names each has the keys of the other. -/
theorem link_eq {pivot ownerKey relatedKey : String}
    (hlink : r.link = .belongsToMany pivot ownerKey relatedKey) :
    r'.link = .belongsToMany pivot relatedKey ownerKey := by
  rcases h.stored with ⟨d, d', hd, hd', -, -⟩ | ⟨key, hkey | hkey, -⟩
  · rw [hd'.link_eq]
    exact RelationKind.link_swap d.name d'.name (hd.link_eq.symm.trans hlink)
  · cases hkey.symm.trans hlink
  · cases hkey.symm.trans hlink

theorem apart : r.PairsApart ∧ r'.PairsApart := by
  rcases h.stored with ⟨d, d', -, -, hapart⟩ | ⟨key, hkey | hkey, hkey'⟩
  · exact hapart
  · simp [Relation.PairsApart, Relation.linkJoins, hkey, hkey']
  · simp [Relation.PairsApart, Relation.linkJoins, hkey, hkey']

end Inverse

variable {c : Catalog} {A B : ModelId} {p q : String} {r r' : Relation} {s : Store} {t u : Table}
  {a b : Row} {x y : Entity}

/-- Inverse relations see the same links: the query of one side answers a row of the other exactly
if the query from there answers the row of this side. A foreign key has to stand in one column, since
one side reads it from the rows and the other from the record of a row. A table of pairs is the same
for both, with the two keys swapped. -/
theorem inverse_answers (h : c.Inverse A B p q r r') (hs : s.Full) (hA : s.Ids r.ownerTable)
    (hB : s.Ids r.targetTable) (ht : s.table r.ownerTable = .ok t)
    (hu : s.table r.targetTable = .ok u)
    (hkey : ∀ key, r'.link = .belongsTo key → (u.schema.map (·.name)).count key ≤ 1)
    (ha : a ∈ t.rows) (hb : b ∈ u.rows) (hx : x.attributes = t.record a)
    (hy : y.attributes = u.record b) :
    (r.Answers s x (u.record b) ↔ r'.Answers s y (t.record a)) ∧
      ∀ pivot ownerKey relatedKey, r.link = .belongsToMany pivot ownerKey relatedKey →
        r'.link = .belongsToMany pivot relatedKey ownerKey := by
  refine ⟨?_, fun pivot ownerKey relatedKey hlink => h.link_eq hlink⟩
  have hback := h.targetTable_eq
  have hidx : x.get idName = t.datum idName a :=
    Entity.get_of_row hx (hs.table ht a ha) (hA t ht).1.le
  have hidy : y.get idName = u.datum idName b :=
    Entity.get_of_row hy (hs.table hu b hb) (hB u hu).1.le
  rw [Relation.answers_iff_relates hs hB hu hb h.apart.1,
    Relation.answers_iff_relates hs (hback ▸ hA) (hback ▸ ht) ha h.apart.2]
  rcases h.stored with ⟨d, d', hd, -⟩ | ⟨key, hlink, hlink'⟩
  · obtain ⟨pivot, ownerKey, relatedKey, hlink⟩ : ∃ pivot ownerKey relatedKey,
        r.link = .belongsToMany pivot ownerKey relatedKey := ⟨_, _, _, hd.link_eq⟩
    simp only [Relation.Relates, Relation.ownerKey, hlink, h.link_eq hlink, hidx, hidy]
    -- one pair is a link seen from both sides
    constructor
    · rintro ⟨pairs, hpairs, pair, hpair, howner, hrelated⟩
      exact ⟨pairs, hpairs, pair, hpair, hrelated, howner⟩
    · rintro ⟨pairs, hpairs, pair, hpair, howner, hrelated⟩
      exact ⟨pairs, hpairs, pair, hpair, hrelated, howner⟩
  · have hheld : r.Relates s u (x.get r.ownerKey) b ↔
        (u.datum key b).equals (t.datum idName a) = true := by
      rcases hlink with hlink | hlink <;> simp only [Relation.Relates, Relation.ownerKey, hlink, hidx]
    have hfound : r'.Relates s t (y.get r'.ownerKey) a ↔
        (t.datum idName a).equals (u.datum key b) = true := by
      have hget := Entity.get_of_row hy (hs.table hu b hb) (hkey key hlink')
      simp only [Relation.Relates, Relation.ownerKey, hlink', hget]
    rw [hheld, hfound, Datum.equals_comm]

section Examples

open Sample
open Persist (memberDefinition clubDefinition memberClubs members clubs clubStore)

/-- Clubs that know their members. -/
def clubWithMembers : ModelDefinition :=
  { clubDefinition with
    annotations := "@property int $id\n@property string $name\n@property Member[] $members"
    relations := [⟨"members", .belongsToMany none none none⟩] }

/-- Members and clubs that know each other. -/
def mutualCatalog : Catalog := ⟨[memberDefinition, clubWithMembers]⟩

/-- The relation of a club to its members. -/
def membersOfClub : Relation :=
  ⟨"members", "clubs", memberDefinition.id, "members",
    .belongsToMany "club_member" "club_id" "member_id"⟩

/-- The relation of an author to the books. -/
def authorBooks : Relation :=
  ⟨"books", "authors", Shelf.book, "books", .hasMany "author_id"⟩

/-- The relation of a book to its author. -/
def bookAuthor : Relation :=
  ⟨"author", "books", Shelf.author, "authors", .belongsTo "author_id"⟩

theorem inverse_clubs :
    mutualCatalog.Inverse memberDefinition.id clubWithMembers.id "clubs" "members" memberClubs
      membersOfClub where
  there := eq_ok_of_toOption (by decide +kernel)
  back := eq_ok_of_toOption (by decide +kernel)
  target := rfl
  owner := rfl
  stored := .inl ⟨memberDefinition, clubWithMembers,
    ⟨eq_ok_of_toOption (by decide +kernel), rfl, rfl, rfl⟩,
    ⟨eq_ok_of_toOption (by decide +kernel), rfl, rfl, rfl⟩, by
      simp [Relation.PairsApart, Relation.linkJoins, memberClubs, Relation.pivotJoin], by
      simp [Relation.PairsApart, Relation.linkJoins, membersOfClub, Relation.pivotJoin]⟩

theorem inverse_books :
    Shelf.catalog.Inverse Shelf.author Shelf.book "books" "author"
      authorBooks bookAuthor where
  there := eq_ok_of_toOption (by decide +kernel)
  back := eq_ok_of_toOption (by decide +kernel)
  target := rfl
  owner := rfl
  stored := .inr ⟨"author_id", .inr rfl, rfl⟩

/-- The first member is found among the members of the club that is found among its clubs, and the
first author is found for the book that is found among the author's books. -/
theorem inverse_answers_examples :
    (memberClubs.Answers clubStore Persist.annie (clubs.record [.int 2, .text "Drama"]) ∧
      membersOfClub.Answers clubStore (Entity.of clubWithMembers.id
        (clubs.record [.int 2, .text "Drama"])) (members.record [.int 1, .text "Annie"])) ∧
    (authorBooks.Answers Shelf.store (Entity.of Shelf.author
        (Shelf.authors.record [.int 1, .text "Annie"]))
        (Shelf.books.record [.int 1, .text "Studyology", .int 1]) ∧
      bookAuthor.Answers Shelf.store (Entity.of Shelf.book
        (Shelf.books.record [.int 1, .text "Studyology", .int 1]))
        (Shelf.authors.record [.int 1, .text "Annie"])) := by
  have hclub : memberClubs.Answers clubStore Persist.annie
      (clubs.record [.int 2, .text "Drama"]) := ⟨_, _, rfl, rfl, .tail _ (.head _)⟩
  have hbook : authorBooks.Answers Shelf.store (Entity.of Shelf.author
      (Shelf.authors.record [.int 1, .text "Annie"]))
      (Shelf.books.record [.int 1, .text "Studyology", .int 1]) := ⟨_, _, rfl, rfl, .head _⟩
  obtain ⟨hmembers, -⟩ := inverse_answers inverse_clubs (s := clubStore) (t := members) (u := clubs)
    (by decide) (Store.Ids.of_table [1, 2] rfl (by decide) (by decide) rfl)
    (Store.Ids.of_table [1, 2, 3] rfl (by decide) (by decide) rfl) rfl rfl
    (fun _ h => by cases h) (.head _) (.tail _ (.head _)) (x := Persist.annie)
    (y := Entity.of clubWithMembers.id (clubs.record [.int 2, .text "Drama"])) rfl rfl
  obtain ⟨hauthor, -⟩ := inverse_answers inverse_books (s := Shelf.store) (t := Shelf.authors)
    (u := Shelf.books) (by decide)
    (Store.Ids.of_table [1, 2] rfl (by decide) (by decide) rfl)
    (Store.Ids.of_table [1, 2, 3] rfl (by decide) (by decide) rfl) rfl rfl
    (fun _ h => by cases h; decide) (.head _) (.head _)
    (x := Entity.of Shelf.author (Shelf.authors.record [.int 1, .text "Annie"]))
    (y := Entity.of Shelf.book (Shelf.books.record [.int 1, .text "Studyology", .int 1])) rfl rfl
  exact ⟨⟨hclub, hmembers.1 hclub⟩, hbook, hauthor.1 hbook⟩

/-- The second author, as read from the database. -/
def abed : Entity :=
  Entity.of Shelf.author (Shelf.authors.record [.int 2, .text "Abed"])

/-- A book that was given to the second author where the table has the column of the author twice,
as read from the database. -/
def regiven : Entity :=
  Entity.of Shelf.book (Shelf.regivenBooks.record Shelf.regivenBook)

/-- Where the table of the targets has the foreign key twice, the two sides need not see the same
links: the second author is found to have the book by the first of the columns, and the book is
found to have the first author by the last. -/
theorem inverse_answers_apart_regiven :
    Shelf.createdTwiceKeyed.update Shelf.regiving = .ok (Shelf.regivenStore, 1) ∧
      Shelf.catalog.Inverse Shelf.author Shelf.book "books" "author" authorBooks bookAuthor ∧
      Shelf.regivenStore.Ids "authors" ∧ Shelf.regivenStore.Ids "books" ∧
      authorBooks.Answers Shelf.regivenStore abed regiven.attributes ∧
      ¬ bookAuthor.Answers Shelf.regivenStore regiven abed.attributes := by
  refine ⟨rfl, inverse_books, Store.Ids.of_table [1, 2] rfl (by decide) (by decide) rfl,
    Store.Ids.of_table [1] rfl (by decide) (by decide) rfl, ⟨_, _, rfl, rfl, .head _⟩, ?_⟩
  rintro ⟨q, records, hq, hrecords, habed⟩
  cases hq
  cases hrecords
  -- the one record that the query answers is that of the first author
  have hids := congrArg (fun record : Record => (record.get? idName).bind Datum.int?)
    (List.mem_singleton.1 habed)
  exact absurd hids (by decide)

end Examples

end Catalog

end EntityGraph
