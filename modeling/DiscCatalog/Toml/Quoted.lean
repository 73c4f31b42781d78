import DiscCatalog.Text

namespace DiscCatalog.Toml

open Text (digit? number)

abbrev Reader (α : Type) := List Char → Option (α × List Char)

def isBlank (c : Char) : Bool := c = ' ' ∨ c = '\t'

def skipBlanks (cs : List Char) : List Char := cs.dropWhile isBlank

def lineBreak? : List Char → Option (List Char)
  | '\n' :: rest => some rest
  | '\r' :: '\n' :: rest => some rest
  | _ => none

def isPlain (c : Char) : Bool := c = '\t' ∨ (' ' ≤ c ∧ c ≠ '\x7f')

def codePoint (width : Nat) : Reader Char := fun cs =>
  let digits := cs.take width
  let code := number 16 digits
  if digits.length = width ∧ digits.all (fun c => (digit? 16 c).isSome) ∧ code.isValidChar then
    some (Char.ofNat code, cs.drop width)
  else none

def escape : Reader Char
  | 'b' :: rest => some ('\x08', rest)
  | 'f' :: rest => some ('\x0c', rest)
  | 'n' :: rest => some ('\n', rest)
  | 'r' :: rest => some ('\r', rest)
  | 't' :: rest => some ('\t', rest)
  | 'u' :: rest => codePoint 4 rest
  | 'U' :: rest => codePoint 8 rest
  | '\\' :: rest => some ('\\', rest)
  | '"' :: rest => some ('"', rest)
  | _ => none

def before (c : Char) (next : Option (List Char × List Char)) : Option (List Char × List Char) :=
  next.map fun (s, rest) => (c :: s, rest)

def basic : (room : Nat) → Reader (List Char)
  | 0, _ | _, [] => none
  | _ + 1, '"' :: rest => some ([], rest)
  | room + 1, '\\' :: rest => do
    let (c, rest) ← escape rest
    before c (basic room rest)
  | room + 1, c :: rest => if isPlain c then before c (basic room rest) else none

def literal : Reader (List Char)
  | [] => none
  | c :: rest =>
    if c = '\'' then some ([], rest) else if isPlain c then before c (literal rest) else none

/-- Where a run of quotes closes a string on several lines, up to two of them still belong to it. -/
def closing (quote : Char) (cs : List Char) : Option (List Char × List Char) :=
  let run := (cs.takeWhile (· = quote)).length
  if run < 3 then none else
    let kept := min 2 (run - 3)
    some (List.replicate kept quote, cs.drop (kept + 3))

def skipLines : (room : Nat) → List Char → List Char
  | 0, cs => cs
  | room + 1, cs =>
    let cs := skipBlanks cs
    match lineBreak? cs with
    | some rest => skipLines room rest
    | none => cs

/-- A string on several lines with escapes. A backslash at the end of a line joins it to the next
character that is neither blank nor line break. -/
def basicLines : (room : Nat) → Reader (List Char)
  | 0, _ => none
  | room + 1, cs =>
    match closing '"' cs, lineBreak? cs, cs with
    | some closed, _, _ => some closed
    | none, some rest, _ => before '\n' (basicLines room rest)
    | none, none, '\\' :: rest =>
      match lineBreak? (skipBlanks rest) with
      | some next => basicLines room (skipLines next.length next)
      | none => do
        let (c, rest) ← escape rest
        before c (basicLines room rest)
    | none, none, c :: rest => if isPlain c then before c (basicLines room rest) else none
    | none, none, [] => none

def literalLines : (room : Nat) → Reader (List Char)
  | 0, _ => none
  | room + 1, cs =>
    match closing '\'' cs, lineBreak? cs, cs with
    | some closed, _, _ => some closed
    | none, some rest, _ => before '\n' (literalLines room rest)
    | none, none, c :: rest => if isPlain c then before c (literalLines room rest) else none
    | none, none, [] => none

def afterOpening (cs : List Char) : List Char := (lineBreak? cs).getD cs

def lineString : Reader String
  | '"' :: rest => (basic (rest.length + 1) rest).map fun (s, rest) => (String.ofList s, rest)
  | '\'' :: rest => (literal rest).map fun (s, rest) => (String.ofList s, rest)
  | _ => none

def anyString : Reader String
  | '"' :: '"' :: '"' :: rest =>
    (basicLines (rest.length + 1) (afterOpening rest)).map fun (s, rest) => (String.ofList s, rest)
  | '\'' :: '\'' :: '\'' :: rest =>
    (literalLines (rest.length + 1) (afterOpening rest)).map fun (s, rest) => (String.ofList s, rest)
  | cs => lineString cs

end DiscCatalog.Toml
