import DiscCatalog.Proofs.Host.Handles
import DiscCatalog.Proofs.Settings.Overlay

namespace DiscCatalog

open Toml (Value Entries)

/-- The file under a path can be read, and is the text of a document. -/
def Host.HoldsDocument (h : Host) (path : String) (es : Entries) : Prop :=
  ∃ text, h.readFile path = .ok (Text.bytes text) ∧ Toml.parse text = some es

theorem Host.HoldsDocument.named {h : Host} {path : String} {es : Entries} (holds : h.HoldsDocument path es) :
    es.Named := by
  obtain ⟨text, -, parsed⟩ := holds
  exact Toml.named_of_parse parsed

/-- A machine with a settings file in the directory where one is, and with nothing else. -/
def Host.ofSettings (text : String) : Host where
  names := [([], 0), ([".cdipc.toml"], 1)]
  nodes := [⟨.directory, 0o755⟩, ⟨.file (Text.bytes text), 0o644⟩]

theorem Host.readFile_ofSettings (text : String) :
    (ofSettings text).readFile ".cdipc.toml" = .ok (Text.bytes text) := by
  have steps : pathSteps ".cdipc.toml" = [".cdipc.toml"] := by decide
  have walked : (ofSettings text).walk true ".cdipc.toml" = .ok [".cdipc.toml"] := by
    unfold walk
    rw [if_neg (by decide), if_neg (by decide), if_neg (by decide), steps, if_neg (by decide)]
    rw [walkFrom_cons _ _ _ _ _ (by decide) (by decide), if_neg (by decide)]
    rfl
  have found : (ofSettings text).find true ".cdipc.toml" =
      .ok ([".cdipc.toml"], 1, ⟨.file (Text.bytes text), 0o644⟩) := find_of_walk walked rfl rfl
  simp [readFile, found, allows]

theorem Host.holdsDocument_ofSettings {text : String} {es : Entries} (parsed : Toml.parse text = some es) :
    (ofSettings text).HoldsDocument ".cdipc.toml" es := ⟨text, readFile_ofSettings text, parsed⟩

namespace Settings

variable {e : Environment} {h h' : Host} {path path' : String} {es es' : Entries} {s : Settings}

/-- The files that are looked at where none is asked for by name, in this order. -/
def files (e : Environment) : List String := ".cdipc.toml" :: e.settingsFile?.toList

theorem noNul_of_readFile {bytes : List UInt8} (read : h.readFile path = .ok bytes) : '\x00' ∉ path.toList := by
  unfold Host.readFile at read
  split at read
  case h_1 => cases read
  case h_2 found => exact (Host.walkable_of_walk (Host.walk_of_find found).1).noNul

theorem load_of_holdsDocument (holds : h.HoldsDocument path es) :
    load e path h = match (usual e).overlay es with
      | some s => .ok s
      | none => .error .unreadable := by
  obtain ⟨text, read, parsed⟩ := holds
  have noNul : path.contains '\x00' = false := by simpa using noNul_of_readFile read
  simp only [load, noNul, Bool.false_eq_true, if_false, read, ofBytes, Text.ofBytes?_bytes, ofText, parsed]
  rfl

theorem load_eq_ok_iff : load e path h = .ok s ↔ ∃ es, h.HoldsDocument path es ∧ (usual e).overlay es = some s := by
  constructor
  · intro loaded
    unfold load ofBytes at loaded
    split at loaded
    case isTrue => cases loaded
    case isFalse =>
      split at loaded
      case h_1 => cases loaded
      case h_2 bytes read =>
        split at loaded
        case h_1 => cases loaded
        case h_2 text decoded =>
          split at loaded
          case h_1 made =>
            cases loaded
            obtain ⟨es, parsed, overlaid⟩ := Option.bind_eq_some_iff.1 made
            rw [← Text.ofBytes?_eq_some_iff.1 decoded] at read
            exact ⟨es, ⟨text, read, parsed⟩, overlaid⟩
          case h_2 => cases loaded
  · rintro ⟨es, holds, overlaid⟩
    rw [load_of_holdsDocument holds, overlaid]

/-- The files are tried in their order, and the first one that can be used settles the matter. -/
theorem find_cases (e : Environment) (h : Host) :
    (∃ before path after, files e = before ++ path :: after ∧ (∀ p ∈ before, ∀ s, load e p h ≠ .ok s) ∧
      load e path h = .ok (find e h)) ∨
    (∀ p ∈ files e, ∀ s, load e p h ≠ .ok s) ∧ find e h = usual e := by
  unfold find files
  cases near : load e ".cdipc.toml" h with
  | ok s => exact .inl ⟨[], _, _, rfl, by simp, near⟩
  | error f =>
    have nearFails (s : Settings) : load e ".cdipc.toml" h ≠ .ok s := by simp [near]
    cases e.settingsFile? with
    | none => exact .inr ⟨by simpa using nearFails, rfl⟩
    | some path =>
      cases far : load e path h with
      | ok s => exact .inl ⟨[_], path, [], rfl, by simpa using nearFails, by simp [far]⟩
      | error f => exact .inr ⟨by simp [near, far], by simp [far]⟩

/-- A file that holds a document is the overlay of that document, whichever of the settings it gives and in whichever
order, or is unusable if one of the values that it gives stands for nothing. Where no file is asked for, one file is
taken as a whole or none at all. -/
theorem loads_overlay (e : Environment) (h : Host) :
    (∀ path es, h.HoldsDocument path es →
      ((∀ k : Setting, k.Grouped es) → (∀ (k : Setting) v, k.given? es = some v → ∃ x, k.type.Spells x v) →
        ∃ s, load e path h = .ok s ∧ ∀ t : Settings, t.Overlays es (usual e) ↔ t = s) ∧
      ((∃ (k : Setting) (v : Value), k.given? es = some v ∧ ∀ x, ¬ k.type.Spells x v) →
        load e path h = .error .unreadable) ∧
      ∀ h' path' es', h'.HoldsDocument path' es' → es.Rearranged es' → load e path' h' = load e path h) ∧
    ((∃ before path after es, files e = before ++ path :: after ∧ (∀ p ∈ before, ∀ s, load e p h ≠ .ok s) ∧
        h.HoldsDocument path es ∧ load e path h = .ok (find e h) ∧ (find e h).Overlays es (usual e)) ∨
      (∀ p ∈ files e, ∀ s, load e p h ≠ .ok s) ∧ find e h = usual e) := by
  refine ⟨fun path es holds => ⟨fun grouped spelled => ?_, ?_, fun h' path' es' holds' rearranged => ?_⟩, ?_⟩
  · obtain ⟨s, read⟩ := exists_overlay grouped spelled
    have overlays := (overlay_eq_some_iff.1 read).2
    refine ⟨s, by rw [load_of_holdsDocument holds, read], fun t => ⟨fun ht => ht.unique overlays, ?_⟩⟩
    rintro rfl
    exact overlays
  · rintro ⟨k, v, given, bad⟩
    rw [load_of_holdsDocument holds, overlay_eq_none given bad]
  · rw [load_of_holdsDocument holds', load_of_holdsDocument holds, overlay_rearranged rearranged holds.named]
  · obtain ⟨before, path, after, order, failed, loaded⟩ | none := find_cases e h
    · obtain ⟨es, holds, read⟩ := load_eq_ok_iff.1 loaded
      exact .inl ⟨before, path, after, es, order, failed, holds, loaded, (overlay_eq_some_iff.1 read).2⟩
    · exact .inr none

def partialText : String := "[transport]\nkind = \"queue\"\n\n[queue]\nserver_key = 99\n"

def wrongText : String := "[queue]\nserver_key = 99\n\n[transport]\nkind = \"carrier-pigeon\"\n"

theorem loads_overlay_partial :
    load {} ".cdipc.toml" (.ofSettings partialText) =
        .ok { usual {} with kind := .queue, queue := { serverKey := 99 } } ∧
      load {} ".cdipc.toml" (.ofSettings wrongText) = .error .unreadable := by
  constructor
  · have parsed : Toml.parse partialText = some [("transport", .table .header [("kind", .string "queue")]),
      ("queue", .table .header [("server_key", .integer 99)])] := by rfl
    let s : Settings := { usual {} with kind := .queue, queue := { serverKey := 99 } }
    have overlays : s.Overlays [("transport", .table .header [("kind", .string "queue")]),
        ("queue", .table .header [("server_key", .integer 99)])] (usual {}) := by
      intro k
      cases k with
      | kind => exact .inl rfl
      | _ => rfl
    have reads := ((loads_overlay {} _).1 _ _ (Host.holdsDocument_ofSettings parsed)).1
    obtain ⟨t, loaded, only⟩ := reads (by rintro (_ | _) <;> trivial) fun k v given => by
      have became := overlays k
      rw [given] at became
      exact ⟨_, became⟩
    rw [loaded, ← (only s).1 overlays]
  · have parsed : Toml.parse wrongText = some [("queue", .table .header [("server_key", .integer 99)]),
      ("transport", .table .header [("kind", .string "carrier-pigeon")])] := by rfl
    have refuses := ((loads_overlay {} _).1 _ _ (Host.holdsDocument_ofSettings parsed)).2.1
    refine refuses ⟨.kind, .string "carrier-pigeon", rfl, ?_⟩
    rintro (_ | _) (other | ⟨_, _, ⟨⟩, -⟩)
    all_goals exact absurd other (by simp [ChannelKind.name])

def tableText : String := "[transport]\nkind = \x7b queue = \x7b\x7d \x7d\n"

/-- A kind need not be a name: here it is a table, and the document is not refused. -/
theorem kind_of_table :
    let v : Value := .table .inline [("queue", .table .inline [])]
    let es : Entries := [("transport", .table .header [("kind", v)])]
    (Host.ofSettings tableText).HoldsDocument ".cdipc.toml" es ∧ Setting.kind.given? es = some v ∧
      (∀ kind : ChannelKind, v ≠ .string kind.name) ∧
      load {} ".cdipc.toml" (.ofSettings tableText) = .ok { usual {} with kind := .queue } := by
  have parsed : Toml.parse tableText =
    some [("transport", .table .header [("kind", .table .inline [("queue", .table .inline [])])])] := by rfl
  have holds := Host.holdsDocument_ofSettings parsed
  refine ⟨holds, rfl, by simp, ?_⟩
  rw [load_of_holdsDocument holds]
  rfl

end Settings

end DiscCatalog
