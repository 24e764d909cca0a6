/-!
# Tables of a TOML document

A document builds one tree of tables. A table comes to be by its header, as a parent in a longer
header, or as a parent in a dotted key, and this decides what may still be added to it: a header
defines a table once, and dotted keys add only to tables of their own kind.

* `Toml.Node` is what a key holds, and `Toml.Table` a list of keys with their nodes;
* `Toml.Table.descend?` goes down a path and makes the tables that are missing;
* `Toml.Table.define?`, `Toml.Table.append?` and `Toml.Table.insert?` are what a header, a header
  of a list and a key with a value do.
-/

namespace LiquidityBand.Toml

/-- How a table came to be. -/
inductive Origin where
  /-- By its own header. -/
  | header
  /-- As a parent in a longer header. -/
  | parent
  /-- As a parent in a dotted key. -/
  | dotted
  deriving DecidableEq, Repr

/-- What a key holds. Of a value only an integer matters, and of a list of tables the last. -/
inductive Node where
  | value (integer? : Option Int)
  | table (origin : Origin) (entries : List (String × Node))
  | tables (last : List (String × Node))

/-- The keys of a table with their nodes, in order. -/
abbrev Table := List (String × Node)

namespace Table

/-- The node of a key. -/
def get? (t : Table) (key : String) : Option Node := (t.find? fun e => e.1 == key).map Prod.snd

/-- The table with another node for one of its keys. -/
def replace (t : Table) (key : String) (node : Node) : Table :=
  t.map fun e => if e.1 == key then (key, node) else e

/-- The table with a new key. -/
def add (t : Table) (key : String) (node : Node) : Table := t ++ [(key, node)]

/-- The table with `f` applied at the end of a path. Tables that are missing are made with the
origin `origin`; a dotted key does not lead into a table with a header. The origin of the table
that is reached goes to `f`. -/
def descend? (origin : Origin) (f : Origin → Table → Option Table) :
    Origin → List String → Table → Option Table
  | reached, [], t => f reached t
  | _, key :: keys, t =>
    match t.get? key with
    | none => (descend? origin f origin keys []).map fun s => t.add key (.table origin s)
    | some (.value _) => none
    | some (.tables last) =>
      (descend? origin f .header keys last).map fun s => t.replace key (.tables s)
    | some (.table o s) =>
      if origin = .dotted ∧ o = .header then none
      else (descend? origin f o keys s).map fun s => t.replace key (.table o s)

/-- The table at the end of a path is defined by a header, once. -/
def define? (t : Table) (path : List String) (key : String) : Option Table :=
  descend? .parent
    (fun _ s =>
      match s.get? key with
      | none => some (s.add key (.table .header []))
      | some (.table .parent entries) => some (s.replace key (.table .header entries))
      | some _ => none)
    .header path t

/-- A table is appended to the list of tables at the end of a path. -/
def append? (t : Table) (path : List String) (key : String) : Option Table :=
  descend? .parent
    (fun _ s =>
      match s.get? key with
      | none => some (s.add key (.tables []))
      | some (.tables _) => some (s.replace key (.tables []))
      | some _ => none)
    .header path t

/-- A key at the end of a dotted path gets a value, if it has none. The path leads to a table of
dotted keys, unless it is empty. -/
def insert? (t : Table) (path : List String) (key : String) (value : Option Int) : Option Table :=
  descend? .dotted
    (fun origin s =>
      if (origin == .dotted) == path.isEmpty then none
      else
        match s.get? key with
        | none => some (s.add key (.value value))
        | some _ => none)
    .header path t

/-- The same below the table at the end of `header`. -/
def insertBelow? (t : Table) (header path : List String) (key : String) (value : Option Int) :
    Option Table :=
  descend? .parent (fun _ s => s.insert? path key value) .header header t

end Table

end LiquidityBand.Toml
