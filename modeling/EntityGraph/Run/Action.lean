import EntityGraph.Access.Policy
import EntityGraph.Error
import EntityGraph.Store.Modify

/-!
# Actions

An action reads and changes a database and leaves a log of what it did: the checks it made, the
statements it ran and the events it announced, in order. A failed action keeps its log and what it
changed before it failed.
-/

namespace EntityGraph

/-- An announcement around a change of an entity. -/
inductive MutationEvent where
  | creating (model : ModelId) (attributes : Record)
  | created (entity : Entity)
  | updating (entity : Entity) (changes : Record)
  | updated (entity : Entity)
  | deleting (entity : Entity)
  | deleted (entity : Entity)

/-- An entry of a log. -/
inductive LogEntry where
  | check (caller : Caller) (check : Check) (allowed : Bool)
  | statement (s : Statement)
  | event (e : MutationEvent)

/-- How an announcement shows data by column. -/
def Record.text (r : Record) : String :=
  "\x7b" ++ ", ".intercalate (r.entries.map fun (column, d) => column ++ "=" ++ d.write) ++ "\x7d"

/-- How a log shows an entity. -/
def Entity.text (e : Entity) : String :=
  e.model.path ++ " " ++ Record.text e.attributes

/-- How a log shows an announcement. -/
def MutationEvent.text : MutationEvent → String
  | creating model attributes => s!"creating {model.path} {Record.text attributes}"
  | created e => "created " ++ e.text
  | updating e changes => s!"updating {e.text} <- {Record.text changes}"
  | updated e => "updated " ++ e.text
  | deleting e => "deleting " ++ e.text
  | deleted e => "deleted " ++ e.text

/-- How a log shows an entry. -/
def LogEntry.text : LogEntry → String
  | check caller c allowed => "check: " ++ c.text caller allowed
  | statement s => "sql: " ++ s.write
  | event e => "event: " ++ e.text

/-- A database with a log. -/
structure World where
  store : Store
  log : List LogEntry

/-- A step that may change the world and may fail. -/
abbrev Action (α : Type) := ExceptT Error (StateM World) α

namespace Action

/-- Write an entry into the log. -/
def record (e : LogEntry) : Action Unit :=
  modify fun w => { w with log := w.log ++ [e] }

/-- The outcome of a step that cannot touch the world. -/
def ofExcept {α : Type} : Except Error α → Action α
  | .ok a => pure a
  | .error e => throw e

/-- The answer of the database, or its refusal as an error. -/
def ofStore {α : Type} : Except StoreFailure α → Action α
  | .ok a => pure a
  | .error failure => throw (Error.ofStore failure)

/-- Run a selection. -/
def select (q : Select) : Action (List Record) := do
  record (.statement (.select q))
  let w ← get
  ofStore (w.store.select q)

/-- Run a query. -/
def query (q : Query) : Action (List Record) :=
  select q.toSelect

/-- Count the rows of a query. -/
def count (q : Query) : Action Nat := do
  record (.statement (.count q.toSelect))
  let w ← get
  ofStore (w.store.count q.toSelect)

/-- Run an insertion. -/
def insert (i : Insertion) : Action (List Int64) := do
  record (.statement (.insert i))
  let w ← get
  let (store, keys) := w.store.insert i
  set { w with store }
  ofStore keys

/-- Run an update. -/
def update (u : Update) : Action Nat := do
  record (.statement (.update u))
  let w ← get
  let (store, n) ← ofStore (w.store.update u)
  set { w with store }
  return n

/-- Run a deletion. -/
def delete (d : Deletion) : Action Nat := do
  record (.statement (.delete d))
  let w ← get
  let (store, n) ← ofStore (w.store.delete d)
  set { w with store }
  return n

/-- Run an action in a world. -/
def runIn {α : Type} (a : Action α) (w : World) : Except Error α × World :=
  let (result, w) := a.run w
  (result, w)

end Action

end EntityGraph
