namespace DiscCatalog.Toml

inductive Form where
  /-- Written out between braces, and complete with that. -/
  | inline
  /-- On the way to a table with a header of its own. -/
  | implicit
  /-- On the way of a dotted key. -/
  | dotted
  /-- Under a header of its own, or the whole document. -/
  | header
deriving DecidableEq, Repr

/-- A value. A number with a fraction or an exponent and a date are known to be there, and no more. -/
inductive Value where
  | string (s : String)
  | integer (n : Int)
  | real
  | boolean (b : Bool)
  | date
  | array (items : List Value)
  | table (form : Form) (entries : List (String × Value))
  | tables (items : List (List (String × Value)))
deriving Inhabited

abbrev Entries := List (String × Value)

namespace Entries

def set (key : String) (v : Value) : Entries → Entries
  | [] => [(key, v)]
  | (k, old) :: rest => if k = key then (k, v) :: rest else (k, old) :: set key v rest

/-- Goes down a path of keys, making the tables that are missing, and changes the table at its end. A
repeated table stands for the last one of its kind. A path of dotted keys may only pass through tables
that have no header of their own; no path passes through anything but a table that can be added to. -/
def descend (dotted : Bool) (f : Form → Entries → Option Entries) :
    (path : List String) → Form → Entries → Option Entries
  | [], form, entries => f form entries
  | key :: path, _, entries =>
    match entries.lookup key with
    | none => do
      let form := if dotted then Form.dotted else .implicit
      let inner ← descend dotted f path form []
      return entries.set key (.table form inner)
    | some (.table form inner) =>
      if form = .inline ∨ (dotted ∧ form = .header) then none
      else do
        let inner ← descend dotted f path form inner
        return entries.set key (.table form inner)
    | some (.tables items) =>
      match items.reverse with
      | [] => none
      | last :: before => do
        let inner ← descend dotted f path .header last
        return entries.set key (.tables (before.reverse ++ [inner]))
    | some _ => none

def insert (path : List String) (key : String) (v : Value) (entries : Entries) : Option Entries :=
  descend true (fun form inner =>
    if ¬ path.isEmpty ∧ form ≠ .dotted then none
    else if (inner.lookup key).isSome then none
    else some (inner ++ [(key, v)])) path .header entries

/-- Opens a table under a header. It must be new, or known only from headers of tables inside it. -/
def openTable (path : List String) (key : String) (entries : Entries) : Option Entries :=
  descend false (fun _ inner =>
    match inner.lookup key with
    | none => some (inner ++ [(key, .table .header [])])
    | some (.table .implicit known) => some (set key (.table .header known) inner)
    | some _ => none) path .header entries

def openRepeated (path : List String) (key : String) (entries : Entries) : Option Entries :=
  descend false (fun _ inner =>
    match inner.lookup key with
    | none => some (inner ++ [(key, .tables [[]])])
    | some (.tables items) => some (set key (.tables (items ++ [[]])) inner)
    | some _ => none) path .header entries

end Entries

inductive Statement where
  | header (path : List String) (key : String)
  | repeated (path : List String) (key : String)
  | assign (path : List String) (key : String) (v : Value)

/-- A document while it is read: all tables, and the path to the one that assignments add to. -/
structure Draft where
  entries : Entries := []
  current : List String := []

namespace Draft

def add (d : Draft) : Statement → Option Draft
  | .header path key =>
    (d.entries.openTable path key).map fun entries => ⟨entries, path ++ [key]⟩
  | .repeated path key =>
    (d.entries.openRepeated path key).map fun entries => ⟨entries, path ++ [key]⟩
  | .assign path key v =>
    (d.entries.descend false (fun _ inner => Entries.insert path key v inner) d.current .header).map
      fun entries => { d with entries }

end Draft

def assemble (statements : List Statement) : Option Entries :=
  (statements.foldlM Draft.add {}).map (·.entries)

end DiscCatalog.Toml
