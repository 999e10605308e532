/-
Tables under construction. A document may write the entries of a table in
several places, but each table only in one way: by a header, by dotted keys,
or whole as a value. A node remembers how its table came about, and from that
follows what may still be added.
-/
import ConsoleBoard.Toml.Basic

namespace ConsoleBoard.Toml

/-- How a table came about. -/
inductive Origin
  /-- As a part of the path in a header. -/
  | implied
  /-- As a part of a dotted key. -/
  | dotted
  /-- By a header of its own. -/
  | header
deriving DecidableEq

/-- A value that may still grow. -/
inductive Node
  /-- A value that is complete. -/
  | closed (v : Toml)
  | table (origin : Origin) (entries : List (String × Node))
  /-- The tables of an array, the last one first. -/
  | elements (back : List Node)

/-- The entries of a table, in the order in which they were made. -/
abbrev Entries := List (String × Node)

-- ============================================================== completion

mutual

/-- The value of a node. -/
def Node.toValue : Node → Toml
  | .closed v => v
  | .table _ entries => .table (entriesToValues entries)
  | .elements back => .array (nodesToValues back).reverse

def entriesToValues : List (String × Node) → List (String × Toml)
  | [] => []
  | (key, node) :: rest => (key, node.toValue) :: entriesToValues rest

def nodesToValues : List Node → List Toml
  | [] => []
  | node :: rest => node.toValue :: nodesToValues rest

end

-- ================================================================= changes

/-- Change the node of a key. A key without a node gets one, at the end. -/
def alter (key : String) (change : Option Node → Option Node) :
    Entries → Option Entries
  | [] => do return [(key, ← change none)]
  | (k, node) :: rest =>
    if k = key then do return (k, ← change (some node)) :: rest
    else do return (k, node) :: (← alter key change rest)

/-- Change the table at the end of a path, whose own table came about as
`here` says. Tables that the path lacks are made, with the origin `made`; in
an array the path goes on in the last table. A dotted key cannot reach into a
table with a header. -/
def walk (made : Origin) (change : Origin → Entries → Option Entries) :
    List String → Origin → Entries → Option Entries
  | [], here, entries => change here entries
  | key :: rest, _, entries =>
    alter key (fun node =>
      match node with
      | none => do return .table made (← walk made change rest made [])
      | some (.table origin inner) =>
        if made = .dotted ∧ origin = .header then none
        else do return .table origin (← walk made change rest origin inner)
      | some (.elements (.table origin inner :: earlier)) => do
        return .elements (.table origin (← walk made change rest origin inner)
          :: earlier)
      | _ => none) entries

/-- Give a new key its value. A dotted key adds only to a table that dotted
keys have made. -/
def assign (path : List String) (key : String) (v : Toml) :
    Origin → Entries → Option Entries :=
  walk .dotted (fun here entries =>
    if path = [] ∨ here = .dotted then
      alter key (fun node => if node.isNone then some (.closed v) else none)
        entries
    else none) path

/-- Open a table by its header. -/
def openTable (path : List String) (key : String) : Entries → Option Entries :=
  walk .implied (fun _ entries =>
    alter key (fun node =>
      match node with
      | none => some (.table .header [])
      | some (.table .implied inner) => some (.table .header inner)
      | _ => none) entries) path .header

/-- Add a table to an array of tables. -/
def openElement (path : List String) (key : String) :
    Entries → Option Entries :=
  walk .implied (fun _ entries =>
    alter key (fun node =>
      match node with
      | none => some (.elements [.table .header []])
      | some (.elements back) => some (.elements (.table .header [] :: back))
      | _ => none) entries) path .header

-- ============================================================== statements

/-- A dotted key: what comes before its last part, and that part. -/
structure Key where
  path : List String
  last : String

/-- All parts of a key. -/
def Key.parts (k : Key) : List String := k.path ++ [k.last]

/-- A statement of a document. -/
inductive Statement
  | assign (key : Key) (v : Toml)
  | table (key : Key)
  | element (key : Key)

/-- A document under construction: what it holds, and the path of the last
header. -/
structure Draft where
  root : Entries := []
  current : List String := []

/-- Take one statement. -/
def Draft.step (d : Draft) : Statement → Option Draft
  | .assign key v => do
    let root ← walk .implied (assign key.path key.last v) d.current
      .header d.root
    return { d with root }
  | .table key => do
    return { root := ← openTable key.path key.last d.root,
             current := key.parts }
  | .element key => do
    return { root := ← openElement key.path key.last d.root,
             current := key.parts }

/-- The table that a list of statements makes. -/
def ofStatements? (statements : List Statement) : Option Toml := do
  let d ← statements.foldlM Draft.step {}
  return .table (entriesToValues d.root)

end ConsoleBoard.Toml
