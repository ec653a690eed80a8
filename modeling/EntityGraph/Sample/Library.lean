import EntityGraph.Declaration.Read
import EntityGraph.Resolve.Execute

/-!
# A library

A small interface as an example: authors, their books, and the readers who borrow them. Anyone may
read; only readers who are signed in may change anything.
-/

namespace EntityGraph.Sample.Library

/-- The models as they are declared. -/
def declarations : List (Except DeclarationFault Declaration) :=
  [Declaration.read "Author"
    ["A writer of books.", "", "@property int $id", "@property string $name",
     "@property ?int $born @orderable",
     "@property Book[] $books @paginate @filterable @orderable",
     "@property-read int $bookCount @computed"]
    ["model(accessor(countBooks))"],
   Declaration.read "Book"
    ["@property int $id", "@property string $title", "@property Author $author",
     "@property ?date $published", "@property Reader[] $readers @paginate @filterable"]
    ["model(belongs_to_many(readers, \"loans\"))"],
   Declaration.read "Reader"
    ["@property int $id", "@property string $name", "@property Book[] $books"]
    ["model(belongs_to_many(books, \"loans\"))"]]

/-- The number of books of an author, as far as they are loaded. -/
def countBooks : Accessor := fun author property =>
  if property = "bookCount" then
    match author.relation "books" with
    | some (.many books) => some (.int (Int64.ofNat books.length))
    | _ => some (.int 0)
  else none

/-- The accessors by their names. -/
def accessors (name : String) : Option Accessor :=
  if name = "countBooks" then some countBooks else none

/-- The namespace of the models. -/
def space : String := "library"

/-- The model of a name. -/
def model (name : String) : ModelId := ModelId.of space name

/-- The models. -/
def catalog : Catalog :=
  (declarations.filterMap (·.toOption)).foldl (fun c d => c.register (d.definition space accessors))
    Catalog.empty

/-- Anyone may read; only signed-in readers may change anything. -/
def policy : Policy :=
  ⟨fun caller check => match check.ability with
    | .create => caller.isSome
    | .update => caller.isSome
    | .delete => caller.isSome
    | _ => true⟩

/-- A column that holds null unless a row gives something else. -/
def column (name : String) (type : ColumnType) : ColumnSpec := ⟨name, type, .null⟩

/-- The tables with their columns and the rows they start with. -/
def tables : List (String × List ColumnSpec × List (List Datum)) :=
  [("authors", [column "id" .serial, column "name" .text, column "born" .int],
    [[.text "Jeff", .int 1975], [.text "Annie", .int 2000], [.text "Abed", .int 2001]]),
   ("books",
    [column "id" .serial, column "title" .text, column "author_id" .int,
     column "published" .timestamp],
    [[.text "History of Something", .int 1, .null],
     [.text "Principles of Intermediate", .int 2, .null],
     [.text "Studyology", .int 2, .null],
     [.text "Learning!", .int 3, .null]]),
   ("readers", [column "id" .serial, column "name" .text], [[.text "Troy"], [.text "Britta"]]),
   ("loans", [column "book_id" .int, column "reader_id" .int],
    [[.int 3, .int 1], [.int 4, .int 1], [.int 1, .int 2]])]

/-- The database at the start. -/
def store : Store :=
  tables.foldl (fun s (name, columns, rows) => (s.createWith name columns rows).1) Store.empty

/-- The interface: all root fields of all models. -/
def config : SchemaConfig :=
  { SchemaConfig.default with
    roots := ["Author", "Book", "Reader"].flatMap fun name => RootField.crud (model name) }

/-- The interface, ready for requests. -/
def interface : Except SchemaFailure Interface :=
  config.interface catalog CustomParts.none policy

/-- The reader of a key and a name. -/
def user (id : Int64) (name : Option Literal) : Entity :=
  let plain := (Entity.of (model "Reader") Dict.empty).set "id" (.int id)
  match name with
  | some (.string name) => plain.set "name" (.text name)
  | _ => plain

/-- The caller behind the key of a reader: the reader, if there is one, as an anonymous request sees
it. -/
def signIn (i : Interface) : Option Int64 → StateM World Caller
  | none => return none
  | some id => do
    let args := [("id", Literal.int id.toInt)]
    let selection := Selection.mk "reader" "reader" args [.mk "name" "name" [] []]
    let response ← i.execute ⟨false, none, [selection]⟩
    match response.data with
    | .object data => match data.lookup "reader" with
      | some (.object reader) => return some (user id (reader.lookup "name"))
      | _ => return none
    | _ => return none

end EntityGraph.Sample.Library
