import DiscCatalog.Proofs.Toml.Order
import DiscCatalog.Settings.File

namespace DiscCatalog

open Toml (Value Form)

inductive SettingType where
  | kind
  | path
  | natural32
  | natural64
  | integer32

namespace SettingType

def Content : SettingType → Type
  | kind => ChannelKind
  | path => String
  | natural32 => UInt32
  | natural64 => UInt64
  | integer32 => Int32

def read : (t : SettingType) → Value → Option t.Content
  | kind => ChannelKind.read
  | path => readPath
  | natural32 => readUInt32
  | natural64 => readUInt64
  | integer32 => readInt32

def Blank (v : Value) : Prop := v = .array [] ∨ v = .tables [] ∨ ∃ form, v = .table form []

/-- The values that stand for `x`. A kind is written as its name, or as a table with its name as the only key and
nothing under it; a path is a string, and a number is an integer in the range of its type. -/
def Spells : (t : SettingType) → t.Content → Value → Prop
  | kind, (x : ChannelKind), v => v = .string x.name ∨ ∃ form blank, v = .table form [(x.name, blank)] ∧ Blank blank
  | path, (x : String), v => v = .string x
  | natural32, (x : UInt32), v => v = .integer x.toNat
  | natural64, (x : UInt64), v => v = .integer x.toNat
  | integer32, (x : Int32), v => v = .integer x.toInt

theorem ofName?_eq_some_iff {s : String} {k : ChannelKind} : ChannelKind.ofName? s = some k ↔ s = k.name := by
  have apart : ChannelKind.pipe.name ≠ ChannelKind.queue.name := by decide
  unfold ChannelKind.ofName?
  split
  case isTrue pipe => cases k <;> simp [pipe, apart]
  case isFalse pipe =>
    split
    case isTrue queue => cases k <;> simp [queue, apart.symm]
    case isFalse queue => cases k <;> simp [pipe, queue]

theorem readKind_eq_some_iff {v : Value} {k : ChannelKind} : ChannelKind.read v = some k ↔
    v = .string k.name ∨ ∃ form blank, v = .table form [(k.name, blank)] ∧ Blank blank := by
  unfold ChannelKind.read
  split
  case h_1 s => simp [ofName?_eq_some_iff]
  case h_2 | h_3 | h_4 =>
    rw [ofName?_eq_some_iff]
    constructor
    · rintro rfl
      exact .inr ⟨_, _, rfl, by simp [Blank]⟩
    · rintro (other | ⟨form, blank, same, -⟩)
      · cases other
      · cases same
        rfl
  case h_5 noString noTable noArray noTables =>
    constructor
    · rintro ⟨⟩
    · rintro (rfl | ⟨form, blank, rfl, rfl | rfl | ⟨inside, rfl⟩⟩)
      · exact absurd rfl (noString _)
      · exact absurd rfl (noArray _ _)
      · exact absurd rfl (noTables _ _)
      · exact absurd rfl (noTable _ _ _)

theorem readPath_eq_some_iff {v : Value} {s : String} : readPath v = some s ↔ v = .string s := by
  cases v <;> simp [readPath]

theorem readInteger_eq_some_iff {low high m : Int} {v : Value} :
    readInteger low high v = some m ↔ v = .integer m ∧ low ≤ m ∧ m ≤ high := by
  cases v with
  | integer n =>
    simp only [readInteger, Option.ite_none_right_eq_some, Option.some_inj, Value.integer.injEq]
    constructor
    · rintro ⟨inside, rfl⟩
      exact ⟨rfl, inside⟩
    · rintro ⟨rfl, inside⟩
      exact ⟨inside, rfl⟩
  | _ => simp [readInteger]

theorem readNumber_eq_some_iff {α : Type} {low high : Int} {ofInt : Int → α} {v : Value} {x : α} (toInt : α → Int)
    (ranged : ∀ x, low ≤ toInt x ∧ toInt x ≤ high) (back : ∀ x, ofInt (toInt x) = x)
    (forth : ∀ n, low ≤ n → n ≤ high → toInt (ofInt n) = n) :
    (readInteger low high v).map ofInt = some x ↔ v = .integer (toInt x) := by
  simp only [Option.map_eq_some_iff, readInteger_eq_some_iff]
  constructor
  · rintro ⟨n, ⟨rfl, above, below⟩, rfl⟩
    rw [forth n above below]
  · rintro rfl
    exact ⟨toInt x, ⟨rfl, ranged x⟩, back x⟩

theorem readUInt32_eq_some_iff {v : Value} {x : UInt32} : readUInt32 v = some x ↔ v = .integer x.toNat := by
  refine readNumber_eq_some_iff (fun x : UInt32 => x.toNat) (fun x => ?_) (fun x => ?_) fun n above below => ?_
  · have := x.toNat_lt
    omega
  · simp
  · simp only [UInt32.toNat_ofNat']
    omega

theorem readUInt64_eq_some_iff {v : Value} {x : UInt64} : readUInt64 v = some x ↔ v = .integer x.toNat := by
  refine readNumber_eq_some_iff (fun x : UInt64 => x.toNat) (fun x => ?_) (fun x => ?_) fun n above below => ?_
  · have := x.toNat_lt
    omega
  · simp
  · simp only [UInt64.toNat_ofNat']
    omega

theorem readInt32_eq_some_iff {v : Value} {x : Int32} : readInt32 v = some x ↔ v = .integer x.toInt := by
  refine readNumber_eq_some_iff Int32.toInt (fun x => ?_) Int32.ofInt_toInt fun n above below => ?_
  · have low := x.le_toInt
    have high := x.toInt_lt
    omega
  · exact Int32.toInt_ofInt_of_le above (by omega)

/-- Reading gives back what a value stands for, and nothing for the values that stand for nothing. -/
theorem read_eq_some_iff {t : SettingType} {v : Value} {x : t.Content} : t.read v = some x ↔ t.Spells x v := by
  cases t with
  | kind => exact readKind_eq_some_iff
  | path => exact readPath_eq_some_iff
  | natural32 => exact readUInt32_eq_some_iff
  | natural64 => exact readUInt64_eq_some_iff
  | integer32 => exact readInt32_eq_some_iff

theorem Blank.rearranged {v v' : Value} (empty : Blank v) (h : v.Rearranged v') : Blank v' := by
  cases h with
  | same => exact empty
  | @table form form' inner inner' h =>
    obtain other | other | ⟨_, same⟩ := empty
    · cases other
    · cases other
    · cases same
      exact .inr (.inr ⟨form', by rw [h.eq_nil]⟩)

theorem Spells.rearranged {t : SettingType} {x : t.Content} {v v' : Value} (spelled : t.Spells x v)
    (h : v.Rearranged v') (named : v.Named) : t.Spells x v' := by
  cases h with
  | same => exact spelled
  | @table form form' inner inner' h =>
    cases t with
    | kind =>
      obtain other | ⟨_, blank, same, empty⟩ := spelled
      · cases other
      · cases same
        obtain ⟨blank', rfl, alike⟩ := h.singleton ((Value.named_table.1 named).lookup List.lookup_cons_self)
        exact .inr ⟨form', blank', rfl, Blank.rearranged empty alike⟩
    | _ => cases spelled

theorem read_rearranged {t : SettingType} {v v' : Value} (h : v.Rearranged v') (named : v.Named) :
    t.read v = t.read v' := by
  refine Option.ext fun x => ?_
  rw [read_eq_some_iff, read_eq_some_iff]
  constructor
  · intro spelled
    exact Spells.rearranged spelled h named
  · intro spelled
    exact Spells.rearranged spelled h.symm (h.named named)

end SettingType

/-- The settings that a document may name. -/
inductive Setting where
  | kind
  | pipeDirectory
  | connectRetries
  | retryDelay
  | pipePermissions
  | serverKey
  | clientKey
  | queuePermissions
  | dataDirectory

namespace Setting

def group : Setting → String
  | kind => "transport"
  | pipeDirectory | connectRetries | retryDelay | pipePermissions => "fifo"
  | serverKey | clientKey | queuePermissions => "queue"
  | dataDirectory => "store"

def name : Setting → String
  | kind => "kind"
  | pipeDirectory => "dir"
  | connectRetries => "connect_retries"
  | retryDelay => "connect_retry_delay_ms"
  | pipePermissions | queuePermissions => "mode"
  | serverKey => "server_key"
  | clientKey => "client_key"
  | dataDirectory => "data_dir"

def place : Setting → Nat
  | kind | pipeDirectory | serverKey | dataDirectory => 0
  | connectRetries | clientKey => 1
  | retryDelay | queuePermissions => 2
  | pipePermissions => 3

def type : Setting → SettingType
  | kind => .kind
  | pipeDirectory | dataDirectory => .path
  | connectRetries | pipePermissions | queuePermissions => .natural32
  | retryDelay => .natural64
  | serverKey | clientKey => .integer32

end Setting

namespace Settings

def of (s : Settings) : (k : Setting) → k.type.Content
  | .kind => s.kind
  | .pipeDirectory => s.pipe.directory
  | .connectRetries => s.pipe.connectRetries
  | .retryDelay => s.pipe.retryDelay
  | .pipePermissions => s.pipe.permissions
  | .serverKey => s.queue.serverKey
  | .clientKey => s.queue.clientKey
  | .queuePermissions => s.queue.permissions
  | .dataDirectory => s.dataDirectory

/-- There are no other settings than these. -/
theorem ext_of {s t : Settings} (h : ∀ k, s.of k = t.of k) : s = t := by
  obtain ⟨kind, ⟨directory, retries, delay, permissions⟩, ⟨server, client, bits⟩, data⟩ := s
  obtain ⟨kind', ⟨directory', retries', delay', permissions'⟩, ⟨server', client', bits'⟩, data'⟩ := t
  obtain rfl : kind = kind' := h .kind
  obtain rfl : directory = directory' := h .pipeDirectory
  obtain rfl : retries = retries' := h .connectRetries
  obtain rfl : delay = delay' := h .retryDelay
  obtain rfl : permissions = permissions' := h .pipePermissions
  obtain rfl : server = server' := h .serverKey
  obtain rfl : client = client' := h .clientKey
  obtain rfl : bits = bits' := h .queuePermissions
  obtain rfl : data = data' := h .dataDirectory
  rfl

theorem exists_of (f : (k : Setting) → k.type.Content) : ∃ s : Settings, ∀ k, s.of k = f k := by
  let pipe : PipeSettings := ⟨f .pipeDirectory, f .connectRetries, f .retryDelay, f .pipePermissions⟩
  let queue : QueueSettings := ⟨f .serverKey, f .clientKey, f .queuePermissions⟩
  refine ⟨⟨f .kind, pipe, queue, f .dataDirectory⟩, fun k => ?_⟩
  cases k <;> rfl

end Settings

end DiscCatalog
