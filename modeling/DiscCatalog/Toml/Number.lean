import DiscCatalog.Toml.Quoted
import DiscCatalog.Toml.Value

namespace DiscCatalog.Toml

open Text (digit? number)

def isDigit (c : Char) : Bool := '0' ≤ c ∧ c ≤ '9'

/-- Digits in a base with single underscores between them, at least one. An underscore must have a digit
after it. -/
def digitRun (base : Nat) : (room : Nat) → Reader (List Char)
  | 0, _ | _, [] => none
  | room + 1, c :: rest =>
    if (digit? base c).isNone then none
    else match rest with
    | '_' :: more => before c (digitRun base room more)
    | next :: _ => if (digit? base next).isSome then before c (digitRun base room rest) else some ([c], rest)
    | [] => some ([c], [])

def digits (base : Nat) : Reader (List Char) := fun cs => digitRun base (cs.length + 1) cs

def sign : List Char → Bool × List Char
  | '-' :: rest => (true, rest)
  | '+' :: rest => (false, rest)
  | cs => (false, cs)

def wholeDigits : Reader (List Char)
  | '0' :: rest => some (['0'], rest)
  | cs => digits 10 cs

def maxInteger : Int := 9223372036854775807

def inRange (n : Int) : Option Value :=
  if -maxInteger - 1 ≤ n ∧ n ≤ maxInteger then some (.integer n) else none

/-- Whether `m` times ten to the power `e` is nearer to infinity than to any finite number of sixty-four
bits. Numbers that are plainly too large or not large enough are settled by their digits alone. -/
def overflows (m : Nat) (e : Int) : Bool :=
  let places := ((Nat.toDigits 10 m).length : Int) + e
  let limit := Nat.pow 2 1024 - Nat.pow 2 970
  if m = 0 ∨ places < 300 then false
  else if 320 < places then true
  else if 0 ≤ e then limit ≤ m * Nat.pow 10 e.toNat
  else limit * Nat.pow 10 (-e).toNat ≤ m

def exponent : Reader Int
  | c :: rest =>
    if c = 'e' ∨ c = 'E' then do
      let (negative, rest) := sign rest
      let (ds, rest) ← digits 10 rest
      let n : Int := number 10 ds
      return (if negative then -n else n, rest)
    else some (0, c :: rest)
  | [] => some (0, [])

def realAfter (negative : Bool) (whole cs : List Char) : Option (Value × List Char) := do
  let (fraction, cs) ← match cs with
    | '.' :: rest => digits 10 rest
    | _ => some ([], cs)
  let (e, cs) ← exponent cs
  if ¬ negative ∧ overflows (number 10 (whole ++ fraction)) (e - fraction.length) then none
  else some (.real, cs)

def signedNumber (negative : Bool) (cs : List Char) : Option (Value × List Char) :=
  match cs with
  | 'i' :: 'n' :: 'f' :: rest | 'n' :: 'a' :: 'n' :: rest => some (.real, rest)
  | _ => do
    let (whole, rest) ← wholeDigits cs
    match rest with
    | '.' :: _ | 'e' :: _ | 'E' :: _ => realAfter negative whole rest
    | _ =>
      let n : Int := number 10 whole
      let v ← inRange (if negative then -n else n)
      return (v, rest)

def based (base : Nat) (cs : List Char) : Option (Value × List Char) := do
  let (ds, rest) ← digits base cs
  let v ← inRange (number base ds)
  return (v, rest)

def part (width low high : Nat) : Reader Nat := fun cs =>
  let ds := cs.take width
  let n := number 10 ds
  if ds.length = width ∧ ds.all isDigit ∧ low ≤ n ∧ n ≤ high then some (n, cs.drop width) else none

def mark (c : Char) (cs : List Char) : Option (List Char) :=
  match cs with
  | d :: rest => if d = c then some rest else none
  | [] => none

def daysInMonth (year month : Nat) : Nat :=
  if month = 2 then if year % 4 = 0 ∧ (year % 100 ≠ 0 ∨ year % 400 = 0) then 29 else 28
  else if month ∈ [4, 6, 9, 11] then 30 else 31

def calendarDate (cs : List Char) : Option (List Char) := do
  let (year, cs) ← part 4 0 9999 cs
  let (month, cs) ← part 2 1 12 (← mark '-' cs)
  let (_, cs) ← part 2 1 (daysInMonth year month) (← mark '-' cs)
  return cs

def clockTime (cs : List Char) : Option (List Char) := do
  let (_, cs) ← part 2 0 23 cs
  let (_, cs) ← part 2 0 59 (← mark ':' cs)
  let (_, cs) ← part 2 0 60 (← mark ':' cs)
  match cs with
  | '.' :: c :: rest => return if isDigit c then rest.dropWhile isDigit else cs
  | _ => return cs

def zone (cs : List Char) : Option (List Char) :=
  match cs with
  | 'Z' :: rest | 'z' :: rest => some rest
  | '+' :: rest | '-' :: rest => do
    let (_, rest) ← part 2 0 23 rest
    let (_, rest) ← part 2 0 59 (← mark ':' rest)
    return rest
  | _ => some cs

def dateTime (cs : List Char) : Option (List Char) := do
  let cs ← calendarDate cs
  match cs with
  | c :: rest =>
    if c = 'T' ∨ c = 't' ∨ (c = ' ' ∧ (part 2 0 23 rest).isSome) then clockTime rest >>= zone
    else return cs
  | [] => return cs

def looksLikeDate (cs : List Char) : Bool :=
  (cs.take 4).all isDigit && cs[4]? == some '-'

def looksLikeTime (cs : List Char) : Bool :=
  (cs.take 2).all isDigit && cs[2]? == some ':'

def numberOrDate (cs : List Char) : Option (Value × List Char) :=
  if looksLikeDate cs then (dateTime cs).map fun rest => (.date, rest)
  else if looksLikeTime cs then (clockTime cs).map fun rest => (.date, rest)
  else match cs with
  | '0' :: 'x' :: rest => based 16 rest
  | '0' :: 'o' :: rest => based 8 rest
  | '0' :: 'b' :: rest => based 2 rest
  | _ =>
    let (negative, rest) := sign cs
    signedNumber negative rest

end DiscCatalog.Toml
