import EntityGraph.Resolve.Roots
import EntityGraph.TypeGraph.Build

/-!
# A shelf

The smallest interface with a relation: authors and their books, with a database of two authors.
-/

namespace EntityGraph.Sample.Shelf

/-- The model of authors. -/
def author : ModelId := ⟨"Author"⟩

/-- The model of books. -/
def book : ModelId := ⟨"Book"⟩

/-- Authors with their books, and books with their author. -/
def catalog : Catalog :=
  ⟨[⟨"Author", "", some "authors",
      "@property int $id\n@property string $name\n@property Book[] $books", [], none⟩,
    ⟨"Book", "", some "books",
      "@property int $id\n@property string $title\n@property ?Author $author", [], none⟩]⟩

/-- The table of authors. -/
def authors : Table :=
  ⟨"authors", [⟨"id", .serial, .null⟩, ⟨"name", .text, .null⟩],
    [[.int 1, .text "Annie"], [.int 2, .text "Abed"]], 3⟩

/-- The table of books. -/
def books : Table :=
  ⟨"books", [⟨"id", .serial, .null⟩, ⟨"title", .text, .null⟩, ⟨"author_id", .int, .null⟩],
    [[.int 1, .text "Studyology", .int 1], [.int 2, .text "Learning!", .int 2],
      [.int 3, .text "Untitled", .null]], 4⟩

/-- The database. -/
def store : Store := ⟨[authors, books]⟩

/-- Authors whose books can be filtered. -/
def filterableCatalog : Catalog :=
  ⟨catalog.definitions.modifyHead fun d => { d with annotations :=
    "@property int $id\n@property string $name\n@property Book[] $books @filterable" }⟩

/-- Authors whose books are declared to be paired with them by the table of books itself. -/
def pairedCatalog : Catalog :=
  ⟨catalog.definitions.modifyHead fun d => { d with relations :=
    [⟨"books", .belongsToMany (some "books") (some "author_id") (some "id")⟩] }⟩

/-- Books with one author, where a book is declared to have many of them. -/
def misdeclaredCatalog : Catalog :=
  ⟨catalog.definitions.modify 1 fun d => { d with relations := [⟨"author", .hasMany none⟩] }⟩

/-- A library and a shop: books of both have one name, and authors lead from the one to the
other. -/
def namesakeCatalog : Catalog :=
  ⟨[⟨"Book", "library", some "books", "@property int $id\n@property ?Author $author", [], none⟩,
    ⟨"Author", "library", some "authors",
      "@property int $id\n@property string $name\n@property ?shop::Book $copy", [], none⟩,
    ⟨"Book", "shop", some "shop_books",
      "@property int $id\n@property library::Author[] $author @paginate @filterable", [], none⟩]⟩

/-- Orders of a shop, whose model has the name of the type of directions. -/
def orderCatalog : Catalog :=
  ⟨[⟨"Order", "shop", some "orders", "@property int $id", [], none⟩]⟩

/-- The books whose author is known. -/
def pairedBooks : Table :=
  { books with rows := books.rows.take 2 }

/-- The database without the book of no author. -/
def pairedStore : Store := ⟨[authors, pairedBooks]⟩

/-- The columns of books with that of the author twice. -/
def twiceKeyed : List ColumnSpec := books.schema ++ [⟨"author_id", .int, .null⟩]

/-- The database with a book of the first author, which an insertion gives to both columns. -/
def createdTwiceKeyed : Store :=
  ((⟨[authors]⟩ : Store).createWith "books" twiceKeyed [[.text "Studyology", .int 1, .int 1]]).1

/-- The book is given to the second author. -/
def regiving : Update :=
  ⟨"books", [("author_id", .int 2)], [.compare (Column.of "books" "id") .eq (.int 1)]⟩

/-- The row of the book that was given to the second author: the first of the two columns was
set. -/
def regivenBook : Row := [.int 1, .text "Studyology", .int 2, .int 1]

/-- The table of the book that was given to the second author. -/
def regivenBooks : Table := ⟨"books", twiceKeyed, [regivenBook], 2⟩

/-- The database with the book that was given to the second author. -/
def regivenStore : Store := ⟨[authors, regivenBooks]⟩

/-- Authors with a password, which inputs may set and nothing shows. -/
def guardedCatalog : Catalog :=
  ⟨catalog.definitions.modifyHead fun d => { d with annotations :=
    "@property int $id\n@property string $name\n@property Book[] $books
    @property-write string $password" }⟩

/-- The database with the passwords of the authors. -/
def guardedStore (annie abed : String) : Store :=
  ⟨[⟨"authors", [⟨"id", .serial, .null⟩, ⟨"name", .text, .null⟩, ⟨"password", .text, .null⟩],
    [[.int 1, .text "Annie", .text annie], [.int 2, .text "Abed", .text abed]], 3⟩, books]⟩

/-- A service for what a model of a catalog leads to. -/
def service (c : Catalog) (m : ModelId) (policy : Policy) : Service :=
  ⟨c, ((Building.node c ⟨m, .object⟩).run .empty).2, ⟨policy, .english⟩, 3, 3⟩

end EntityGraph.Sample.Shelf
