namespace DiscCatalog

inductive JsonValue where
  | string (s : String)
  | integer (n : Int)
  | array (items : List JsonValue)
  | object (fields : List (String × JsonValue))

namespace JsonValue

def hexDigits (c : Char) : List Char :=
  let digits := Nat.toDigits 16 c.toNat
  List.replicate (4 - digits.length) '0' ++ digits

def quotedChar (c : Char) : List Char :=
  if c = '"' then ['\\', '"']
  else if c = '\\' then ['\\', '\\']
  else if c = '\x08' then ['\\', 'b']
  else if c = '\t' then ['\\', 't']
  else if c = '\n' then ['\\', 'n']
  else if c = '\x0c' then ['\\', 'f']
  else if c = '\r' then ['\\', 'r']
  else if c.toNat < 0x20 then '\\' :: 'u' :: hexDigits c
  else [c]

def quote (s : String) : String := String.ofList ('"' :: s.toList.flatMap quotedChar ++ ['"'])

def flat (opening closing : String) (items : List String) : String :=
  opening ++ String.intercalate "," items ++ closing

/-- Items between brackets, each on a line of its own, two blanks further in than the brackets, which
stand on lines with `depth` such steps. Without items the brackets stand together. -/
def spread (depth : Nat) (opening closing : String) (items : List String) : String :=
  let lead (depth : Nat) : String := String.ofList ('\n' :: List.replicate (2 * depth) ' ')
  if items.isEmpty then opening ++ closing
  else opening ++ String.intercalate "," (items.map (lead (depth + 1) ++ ·)) ++ lead depth ++ closing

mutual

def compact : JsonValue → String
  | string s => quote s
  | integer n => toString n
  | array items => flat "[" "]" (compactItems items)
  | object fields => flat "\x7b" "\x7d" (compactFields fields)

def compactItems : List JsonValue → List String
  | [] => []
  | item :: rest => compact item :: compactItems rest

def compactFields : List (String × JsonValue) → List String
  | [] => []
  | (key, v) :: rest => (quote key ++ ":" ++ compact v) :: compactFields rest

end

mutual

def prettyAt (depth : Nat) : JsonValue → String
  | string s => quote s
  | integer n => toString n
  | array items => spread depth "[" "]" (prettyItems (depth + 1) items)
  | object fields => spread depth "\x7b" "\x7d" (prettyFields (depth + 1) fields)

def prettyItems (depth : Nat) : List JsonValue → List String
  | [] => []
  | item :: rest => prettyAt depth item :: prettyItems depth rest

def prettyFields (depth : Nat) : List (String × JsonValue) → List String
  | [] => []
  | (key, v) :: rest => (quote key ++ ": " ++ prettyAt depth v) :: prettyFields depth rest

end

def pretty (v : JsonValue) : String := v.prettyAt 0

end JsonValue

end DiscCatalog
