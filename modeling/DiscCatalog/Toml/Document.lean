import DiscCatalog.Toml.Number

namespace DiscCatalog.Toml

/-- Levels of nesting, or parts of a key, from which on a document is refused. -/
def nestingLimit : Nat := 80

def skipComment : List Char → List Char
  | '#' :: rest => rest.dropWhile isPlain
  | cs => cs

def lineEnd (cs : List Char) : Option (List Char) :=
  match skipComment (skipBlanks cs) with
  | [] => some []
  | cs => lineBreak? cs

def skipLayout : (room : Nat) → List Char → Option (List Char)
  | 0, _ => none
  | room + 1, cs =>
    match skipBlanks cs with
    | '#' :: rest => lineBreak? (rest.dropWhile isPlain) >>= skipLayout room
    | cs =>
      match lineBreak? cs with
      | some rest => skipLayout room rest
      | none => some cs

def layout (cs : List Char) : Option (List Char) := skipLayout (cs.length + 1) cs

def isBare (c : Char) : Bool := c.isAlphanum ∨ c = '-' ∨ c = '_'

def keyPart : Reader String
  | '"' :: rest => lineString ('"' :: rest)
  | '\'' :: rest => lineString ('\'' :: rest)
  | cs =>
    let name := cs.takeWhile isBare
    if name.isEmpty then none else some (String.ofList name, cs.drop name.length)

def keyParts : (room : Nat) → Reader (List String)
  | 0, _ => none
  | room + 1, cs => do
    let (first, cs) ← keyPart (skipBlanks cs)
    match skipBlanks cs with
    | '.' :: cs =>
      let (later, cs) ← keyParts room cs
      return (first :: later, cs)
    | cs => return ([first], cs)

def key : Reader (List String × String) := fun cs => do
  let (parts, rest) ← keyParts (cs.length + 1) cs
  if nestingLimit ≤ parts.length then none
  else match parts.reverse with
  | [] => none
  | last :: before => some ((before.reverse, last), rest)

def arrayItems (item : Reader Value) : (room : Nat) → Reader (List Value)
  | 0, _ => none
  | room + 1, cs => do
    match ← layout cs with
    | ']' :: rest => return ([], rest)
    | cs =>
      let (v, cs) ← item cs
      match ← layout cs with
      | ']' :: rest => return ([v], rest)
      | ',' :: rest =>
        let (later, rest) ← arrayItems item room rest
        return (v :: later, rest)
      | _ => none

def assignment (item : Reader Value) : Reader (List String × String × Value) := fun cs => do
  let ((path, name), cs) ← key cs
  let cs ← mark '=' cs
  let (v, cs) ← item (skipBlanks cs)
  return ((path, name, v), skipBlanks cs)

def tableItems (item : Reader Value) : (room : Nat) → Reader (List (List String × String × Value))
  | 0, _ => none
  | room + 1, cs => do
    let (a, cs) ← assignment item cs
    match cs with
    | '}' :: rest => return ([a], rest)
    | ',' :: rest =>
      let (later, rest) ← tableItems item room rest
      return (a :: later, rest)
    | _ => none

def inlineTable (item : Reader Value) : Reader Value := fun cs =>
  match skipBlanks cs with
  | '}' :: rest => some (.table .inline [], rest)
  | cs => do
    let (assignments, rest) ← tableItems item (cs.length + 1) cs
    let entries ← assignments.foldlM (fun entries (path, name, v) => Entries.insert path name v entries) []
    return (.table .inline entries, rest)

def value : (depth : Nat) → Reader Value
  | depth, cs =>
    match cs, depth with
    | '"' :: _, _ | '\'' :: _, _ => (anyString cs).map fun (s, rest) => (.string s, rest)
    | '[' :: rest, depth + 1 =>
      (arrayItems (value depth) (rest.length + 1) rest).map fun (items, rest) => (.array items, rest)
    | '{' :: rest, depth + 1 => inlineTable (value depth) rest
    | 't' :: 'r' :: 'u' :: 'e' :: rest, _ => some (.boolean true, rest)
    | 'f' :: 'a' :: 'l' :: 's' :: 'e' :: rest, _ => some (.boolean false, rest)
    | 'i' :: 'n' :: 'f' :: rest, _ | 'n' :: 'a' :: 'n' :: rest, _ => some (.real, rest)
    | c :: _, _ => if isDigit c ∨ c = '+' ∨ c = '-' then numberOrDate cs else none
    | [], _ => none

def headerLine (closing : Nat) (cs : List Char) : Option ((List String × String) × List Char) := do
  let (name, cs) ← key cs
  if cs.take closing = List.replicate closing ']' then
    let rest ← lineEnd (cs.drop closing)
    return (name, rest)
  else none

def statements : (room : Nat) → List Char → Option (List Statement)
  | 0, _ => none
  | room + 1, cs =>
    match skipBlanks cs with
    | [] => some []
    | '#' :: rest => lineEnd ('#' :: rest) >>= statements room
    | '[' :: '[' :: rest => do
      let ((path, name), rest) ← headerLine 2 rest
      return .repeated path name :: (← statements room rest)
    | '[' :: rest => do
      let ((path, name), rest) ← headerLine 1 rest
      return .header path name :: (← statements room rest)
    | cs =>
      match lineBreak? cs with
      | some rest => statements room rest
      | none => do
        let ((path, name, v), rest) ← assignment (value (nestingLimit - 1)) cs
        return .assign path name v :: (← statements room (← lineEnd rest))

def withoutMark : List Char → List Char
  | '\ufeff' :: rest => rest
  | cs => cs

def parse (text : String) : Option Entries := do
  let cs := withoutMark text.toList
  assemble (← statements (cs.length + 1) cs)

end DiscCatalog.Toml
