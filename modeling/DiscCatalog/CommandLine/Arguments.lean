import DiscCatalog.CommandLine.Invocation
import DiscCatalog.Settings.File

namespace DiscCatalog

inductive Dismissal where
  | misuse
  | help
  | version
deriving DecidableEq, Repr

inductive Switch where
  | settingsFile
  | kind
  | pipeDirectory
  | format
  | new
  | dataDirectory
  | help
  | version
deriving DecidableEq, Repr

inductive Verb where
  | serve
  | createDatabase
  | add
  | get
  | delete
  | addTrack
  | getTrack
  | deleteTrack
  | search
  | help
deriving DecidableEq, Repr

inductive WordKind where
  | text
  | number
  | verb
deriving DecidableEq

namespace Format

def ofName? (s : String) : Option Format :=
  if s = "text" then some text else if s = "json" then some json else none

end Format

def trackNumber? (s : String) : Option Int32 :=
  let (negative, digits) : Bool × List Char := match s.toList with
    | '-' :: rest => (true, rest)
    | '+' :: rest => (false, rest)
    | cs => (false, cs)
  if digits.isEmpty ∨ ¬ digits.all (·.isDigit) then none
  else
    let size : Int := Text.number 10 digits
    let n := if negative then -size else size
    if -2147483648 ≤ n ∧ n ≤ 2147483647 then some (Int32.ofInt n) else none

namespace Verb

def name : Verb → String
  | serve => "serve"
  | createDatabase => "init-db"
  | add => "add"
  | get => "get"
  | delete => "delete"
  | addTrack => "add-track"
  | getTrack => "get-track"
  | deleteTrack => "delete-track"
  | search => "search"
  | help => "help"

def all : List Verb :=
  [serve, createDatabase, add, get, delete, addTrack, getTrack, deleteTrack, search, help]

def ofName? (s : String) : Option Verb := all.find? (·.name = s)

def words : Verb → List WordKind
  | serve | createDatabase => []
  | add => [.text, .text, .text, .text]
  | get | delete | search => [.text]
  | addTrack => [.text, .number, .text]
  | getTrack | deleteTrack => [.text, .number]
  | help => [.verb]

end Verb

def WordKind.accepts : WordKind → String → Bool
  | text, _ => true
  | number, s => (trackNumber? s).isSome
  | verb, s => (Verb.ofName? s).isSome

namespace Switch

def name : Switch → String
  | settingsFile => "config"
  | kind => "transport"
  | pipeDirectory => "fifo-dir"
  | format => "format"
  | new => "init"
  | dataDirectory => "data-dir"
  | help => "help"
  | version => "version"

def letter? : Switch → Option Char
  | settingsFile => some 'c'
  | kind => some 't'
  | format => some 'f'
  | help => some 'h'
  | version => some 'V'
  | _ => none

def all : List Switch := [settingsFile, kind, pipeDirectory, format, new, dataDirectory, help, version]

def takesValue : Switch → Bool
  | new | help | version => false
  | _ => true

def accepts : Switch → String → Bool
  | settingsFile, s | pipeDirectory, s | dataDirectory, s => s ≠ ""
  | kind, s => (ChannelKind.ofName? s).isSome
  | format, s => (Format.ofName? s).isSome
  | _, _ => true

def isKnown (verb : Option Verb) : Switch → Bool
  | new | dataDirectory => verb = some .serve
  | version => verb = none
  | _ => true

def dismissal? : Switch → Option Dismissal
  | help => some .help
  | version => some .version
  | _ => none

end Switch

structure Arguments where
  verb : Option Verb := none
  words : List String := []
  before : List (Switch × String) := []
  after : List (Switch × String) := []
  awaiting : Option Switch := none
  plain : Bool := false

namespace Arguments

def give (s : Switch) (value : String) (a : Arguments) : Except Dismissal Arguments :=
  let given := if a.verb.isNone then a.before else a.after
  if ¬ s.accepts value ∨ (given.lookup s).isSome then .error .misuse
  else
    let given := (s, value) :: given
    .ok (if a.verb.isNone then { a with before := given, awaiting := none }
      else { a with after := given, awaiting := none })

def option (s : Switch) (attached : Option String) (a : Arguments) : Except Dismissal Arguments :=
  match s.takesValue, attached with
  | true, some value => a.give s value
  | true, none => .ok { a with awaiting := some s }
  | false, some _ => .error .misuse
  | false, none =>
    match s.dismissal? with
    | some d => .error d
    | none => a.give s ""

def switch? (a : Arguments) (p : Switch → Bool) : Option Switch :=
  Switch.all.find? fun s => p s && s.isKnown a.verb

def named (text : List Char) (a : Arguments) : Except Dismissal Arguments :=
  let name := String.ofList (text.takeWhile (· ≠ '='))
  let attached := match text.dropWhile (· ≠ '=') with
    | [] => none
    | _ :: value => some (String.ofList value)
  match a.switch? (·.name = name) with
  | none => .error .misuse
  | some s => a.option s attached

def lettered (letter : Char) (rest : List Char) (a : Arguments) : Except Dismissal Arguments :=
  match a.switch? (·.letter? = some letter) with
  | none => .error .misuse
  | some s =>
    match s.takesValue, rest with
    | false, _ | true, [] => a.option s none
    | true, '=' :: value | true, value => a.option s (some (String.ofList value))

/-- Takes a word: the verb, or one of the verb's own words. After the verb that asks for help nothing is
an option any more. -/
def word (text : String) (a : Arguments) : Except Dismissal Arguments :=
  match a.verb with
  | none =>
    match if a.plain then none else Verb.ofName? text with
    | none => .error .misuse
    | some verb => .ok { a with verb := some verb, plain := verb = .help }
  | some verb =>
    match verb.words[a.words.length]? with
    | none => .error .misuse
    | some kind => if kind.accepts text then .ok { a with words := a.words ++ [text] } else .error .misuse

/-- Takes the next argument. The value of an option cannot look like an option itself. -/
def take (a : Arguments) (text : String) : Except Dismissal Arguments :=
  match a.awaiting with
  | some s => if text.startsWith "-" ∧ text ≠ "-" then .error .misuse else a.give s text
  | none =>
    if a.plain then a.word text
    else if text = "--" then .ok { a with plain := true }
    else match text.toList with
    | '-' :: '-' :: rest => a.named rest
    | '-' :: letter :: rest => a.lettered letter rest
    | _ => a.word text

/-- The value of an option: as it is given after the verb, else as it is given before. -/
def value? (a : Arguments) (s : Switch) : Option String := a.after.lookup s <|> a.before.lookup s

def command? (a : Arguments) (verb : Verb) : Option Command :=
  match verb, a.words with
  | .serve, [] => some (.serve (a.value? .new).isSome (a.value? .dataDirectory))
  | .createDatabase, [] => some (.errand .createDatabase)
  | .add, [catalog, title, kind, artist] => some (.errand (.add { catalog, title, kind, artist }))
  | .get, [key] => some (.errand (.get key))
  | .delete, [key] => some (.errand (.delete key))
  | .addTrack, [catalog, n, text] =>
    (trackNumber? n).map fun number => .errand (.addTrack { catalog, number, text })
  | .getTrack, [key, n] => (trackNumber? n).map fun number => .errand (.getTrack key number)
  | .deleteTrack, [key, n] => (trackNumber? n).map fun number => .errand (.deleteTrack key number)
  | .search, [] => some (.errand (.search ""))
  | .search, [query] => some (.errand (.search query))
  | _, _ => none

def finish (a : Arguments) : Except Dismissal Invocation :=
  match a.awaiting, a.verb with
  | none, some .help => .error .help
  | none, some verb =>
    match a.command? verb with
    | none => .error .misuse
    | some command => .ok {
        command
        settingsFile := a.value? .settingsFile
        kind := a.value? .kind >>= ChannelKind.ofName?
        pipeDirectory := a.value? .pipeDirectory
        format := (a.value? .format >>= Format.ofName?).getD .text }
  | _, _ => .error .misuse

end Arguments

def Invocation.ofArguments (args : List String) : Except Dismissal Invocation :=
  args.foldlM Arguments.take {} >>= Arguments.finish

end DiscCatalog
