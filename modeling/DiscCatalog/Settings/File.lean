import DiscCatalog.Settings
import DiscCatalog.Toml.Document
import DiscCatalog.Host.File
import DiscCatalog.Text

namespace DiscCatalog

inductive SettingsFault where
  | io (cause : SystemFault)
  | unreadable
deriving DecidableEq

namespace SettingsFault

def unreadableText : String := "no settings document"

def message : SettingsFault → String
  | io cause => s!"Failed to read config file: {cause.message}"
  | unreadable => s!"Failed to parse config: {unreadableText}"

def causes : SettingsFault → List String
  | io cause => [cause.message]
  | unreadable => [unreadableText]

end SettingsFault

open Toml (Value)

abbrev Group := Nat → String → Option Value

def group? : Value → Option Group
  | .table _ entries => some fun _ name => entries.lookup name
  | .array items => some fun place _ => items[place]?
  | .tables items => some fun place _ => items[place]?.map (.table .header)
  | .date => some fun _ _ => none
  | _ => none

def setting {α : Type} (g : Group) (place : Nat) (name : String) (usual : α) (read : Value → Option α) :
    Option α :=
  match g place name with
  | none => some usual
  | some v => read v

def readPath : Value → Option String
  | .string s => some s
  | _ => none

def readInteger (low high : Int) : Value → Option Int
  | .integer n => if low ≤ n ∧ n ≤ high then some n else none
  | _ => none

def readUInt32 (v : Value) : Option UInt32 := (readInteger 0 4294967295 v).map fun n => UInt32.ofNat n.toNat

def readUInt64 (v : Value) : Option UInt64 :=
  (readInteger 0 18446744073709551615 v).map fun n => UInt64.ofNat n.toNat

def readInt32 (v : Value) : Option Int32 := (readInteger (-2147483648) 2147483647 v).map Int32.ofInt

namespace ChannelKind

def name : ChannelKind → String
  | pipe => "fifo"
  | queue => "queue"

def ofName? (s : String) : Option ChannelKind :=
  if s = pipe.name then some pipe else if s = queue.name then some queue else none

/-- A kind is written by its name, or as a table whose only key it is, with nothing under it. -/
def read : Value → Option ChannelKind
  | .string s => ofName? s
  | .table _ [(s, .table _ [])] | .table _ [(s, .array [])] | .table _ [(s, .tables [])] => ofName? s
  | _ => none

end ChannelKind

def section? {α : Type} (entries : Toml.Entries) (name : String) (usual : α) (read : Group → Option α) : Option α :=
  match entries.lookup name with
  | none => some usual
  | some v => group? v >>= read

namespace Settings

def overlay (usual : Settings) (entries : Toml.Entries) : Option Settings := do
  let kind ← section? entries "transport" usual.kind fun g =>
    setting g 0 "kind" usual.kind ChannelKind.read
  let pipe ← section? entries "fifo" usual.pipe fun g => do
    let directory ← setting g 0 "dir" usual.pipe.directory readPath
    let connectRetries ← setting g 1 "connect_retries" usual.pipe.connectRetries readUInt32
    let retryDelay ← setting g 2 "connect_retry_delay_ms" usual.pipe.retryDelay readUInt64
    let permissions ← setting g 3 "mode" usual.pipe.permissions readUInt32
    return { directory, connectRetries, retryDelay, permissions }
  let queue ← section? entries "queue" usual.queue fun g => do
    let serverKey ← setting g 0 "server_key" usual.queue.serverKey readInt32
    let clientKey ← setting g 1 "client_key" usual.queue.clientKey readInt32
    let permissions ← setting g 2 "mode" usual.queue.permissions readUInt32
    return { serverKey, clientKey, permissions }
  let dataDirectory ← section? entries "store" usual.dataDirectory fun g =>
    setting g 0 "data_dir" usual.dataDirectory readPath
  return { kind, pipe, queue, dataDirectory }

def ofText (e : Environment) (text : String) : Option Settings :=
  Toml.parse text >>= (usual e).overlay

def ofBytes (e : Environment) (bytes : List UInt8) : Except SettingsFault Settings :=
  match Text.ofBytes? bytes with
  | none => .error (.io (.custom "stream did not contain valid UTF-8"))
  | some text => match ofText e text with
    | some s => .ok s
    | none => .error .unreadable

def load (e : Environment) (path : String) (h : Host) : Except SettingsFault Settings :=
  if path.contains '\x00' then .error (.io (.custom "file name contained an unexpected NUL byte"))
  else match h.readFile path with
  | .error cause => .error (.io (.os cause))
  | .ok bytes => ofBytes e bytes

/-- The settings that apply where none are asked for by name: those of the current directory, else the
user's, else the usual ones. Files that cannot be used are passed over. -/
def find (e : Environment) (h : Host) : Settings :=
  match load e ".cdipc.toml" h with
  | .ok s => s
  | .error _ =>
    match e.settingsFile?.map fun path => load e path h with
    | some (.ok s) => s
    | _ => usual e

end Settings

end DiscCatalog
