import DiscCatalog.Proofs.Settings.Keys

namespace DiscCatalog

open Toml (Value Entries)

variable {es es' : Entries} {usual s : Settings}

namespace Setting

/-- What a document says about a setting: what stands under its name in the table of its group. In a group that is
written as an array the settings go by their places. -/
def given? (k : Setting) (es : Entries) : Option Value :=
  match es.lookup k.group with
  | some (.table _ inner) => inner.lookup k.name
  | some (.array items) => items[k.place]?
  | some (.tables items) => items[k.place]?.map (.table .header)
  | _ => none

/-- What stands in a document for the group of a setting, if anything does, can hold settings. -/
def Grouped (k : Setting) (es : Entries) : Prop :=
  match es.lookup k.group with
  | none | some (.table _ _) | some (.array _) | some (.tables _) | some .date => True
  | some _ => False

def Becomes (k : Setting) (given : Option Value) (usual : Settings) (x : k.type.Content) : Prop :=
  match given with
  | none => x = usual.of k
  | some v => k.type.Spells x v

def from? (k : Setting) (usual : Settings) (g : Group) : Option k.type.Content :=
  setting g k.place k.name (usual.of k) k.type.read

def of? (k : Setting) (es : Entries) (usual : Settings) :
    Option k.type.Content := section? es k.group (usual.of k) (k.from? usual)

end Setting

namespace Settings

/-- Each of the settings is what the same document makes of the usual one. -/
def Overlays (s : Settings) (es : Entries) (usual : Settings) : Prop :=
  ∀ k : Setting, k.Becomes (k.given? es) usual (s.of k)

def pipeOf? (usual : Settings) (g : Group) : Option PipeSettings := do
  let directory ← Setting.pipeDirectory.from? usual g
  let connectRetries ← Setting.connectRetries.from? usual g
  let retryDelay ← Setting.retryDelay.from? usual g
  let permissions ← Setting.pipePermissions.from? usual g
  return { directory, connectRetries, retryDelay, permissions }

def queueOf? (usual : Settings) (g : Group) : Option QueueSettings := do
  let serverKey ← Setting.serverKey.from? usual g
  let clientKey ← Setting.clientKey.from? usual g
  let permissions ← Setting.queuePermissions.from? usual g
  return { serverKey, clientKey, permissions }

/-- Reading a document is reading its four groups, each setting of them by the same rule. -/
theorem overlay_eq (usual : Settings) (es : Entries) : usual.overlay es = (do
    let kind ← section? es "transport" usual.kind (Setting.kind.from? usual)
    let pipe ← section? es "fifo" usual.pipe (pipeOf? usual)
    let queue ← section? es "queue" usual.queue (queueOf? usual)
    let dataDirectory ← section? es "store" usual.dataDirectory (Setting.dataDirectory.from? usual)
    return { kind, pipe, queue, dataDirectory }) := rfl

end Settings

theorem section?_cases (es : Entries) (name : String) :
    (∀ {α : Type} (usual : α) (read : Group → Option α), section? es name usual read = some usual) ∨
      (∀ {α : Type} (usual : α) (read : Group → Option α), section? es name usual read = none) ∨
      ∃ g, ∀ {α : Type} (usual : α) (read : Group → Option α), section? es name usual read = read g := by
  unfold section?
  cases es.lookup name with
  | none => exact .inl fun _ _ => rfl
  | some v =>
    right
    dsimp only
    cases group? v with
    | none => exact .inl fun _ _ => rfl
    | some g => exact .inr ⟨g, fun _ _ => rfl⟩

namespace Setting

variable {k : Setting} {x : k.type.Content}

theorem from?_eq_some_iff {g : Group} : k.from? usual g = some x ↔ k.Becomes (g k.place k.name) usual x := by
  unfold from? setting Becomes
  cases g k.place k.name with
  | none => exact Option.some_inj.trans eq_comm
  | some v => exact SettingType.read_eq_some_iff

theorem of?_eq_some_iff : k.of? es usual = some x ↔ k.Grouped es ∧ k.Becomes (k.given? es) usual x := by
  unfold of? section? Grouped given?
  cases es.lookup k.group with
  | none => simp [Becomes, eq_comm]
  | some v =>
    cases v with
    | table form inner => simpa [group?] using from?_eq_some_iff (g := fun _ name => inner.lookup name)
    | array items => simpa [group?] using from?_eq_some_iff (g := fun place _ => items[place]?)
    | tables items => simpa [group?] using from?_eq_some_iff (g := fun place _ => items[place]?.map (.table .header))
    | date => simpa [group?] using from?_eq_some_iff (g := fun _ _ => none)
    | _ => simp [group?]

theorem from?_rearranged (h : es.Rearranged es') (named : es.Named) :
    k.from? usual (fun _ name => es.lookup name) = k.from? usual fun _ name => es'.lookup name := by
  unfold from? setting
  dsimp only
  have found := h.lookup named k.name
  have inside (v : Value) : es.lookup k.name = some v → v.Named := named.lookup
  generalize es.lookup k.name = given, es'.lookup k.name = given' at found inside
  cases found with
  | none => rfl
  | some alike => exact SettingType.read_rearranged alike (inside _ rfl)

/-- The order of the groups and of the settings in them has no part in how a setting is read. -/
theorem of?_rearranged (h : es.Rearranged es') (named : es.Named) : k.of? es usual = k.of? es' usual := by
  unfold of? section?
  have found := h.lookup named k.group
  have inside (v : Value) : es.lookup k.group = some v → v.Named := named.lookup
  generalize es.lookup k.group = given, es'.lookup k.group = given' at found inside
  cases found with
  | none => rfl
  | some alike =>
    cases alike with
    | same => rfl
    | table within => exact from?_rearranged within (Toml.Value.named_table.1 (inside _ rfl))

end Setting

namespace Settings

theorem section?_pipe_iff {p : PipeSettings} : section? es "fifo" usual.pipe (pipeOf? usual) = some p ↔
    Setting.pipeDirectory.of? es usual = some p.directory ∧
      Setting.connectRetries.of? es usual = some p.connectRetries ∧
      Setting.retryDelay.of? es usual = some p.retryDelay ∧
      Setting.pipePermissions.of? es usual = some p.permissions := by
  obtain ⟨directory, retries, delay, permissions⟩ := p
  simp only [Setting.of?, Setting.group]
  obtain absent | unfit | ⟨g, there⟩ := section?_cases es "fifo"
  · simp only [absent]
    obtain ⟨kind, ⟨directory', retries', delay', permissions'⟩, queue, data⟩ := usual
    constructor
    · rintro ⟨⟩
      exact ⟨rfl, rfl, rfl, rfl⟩
    · rintro ⟨⟨⟩, ⟨⟩, ⟨⟩, ⟨⟩⟩
      rfl
  · simp [unfit]
  · simp only [there, pipeOf?, Option.bind_eq_bind, Option.bind_eq_some_iff, Option.pure_def]
    constructor
    · rintro ⟨_, hDirectory, _, hRetries, _, hDelay, _, hPermissions, ⟨⟩⟩
      exact ⟨hDirectory, hRetries, hDelay, hPermissions⟩
    · rintro ⟨hDirectory, hRetries, hDelay, hPermissions⟩
      exact ⟨directory, hDirectory, retries, hRetries, delay, hDelay, permissions, hPermissions, rfl⟩

theorem section?_queue_iff {q : QueueSettings} : section? es "queue" usual.queue (queueOf? usual) = some q ↔
    Setting.serverKey.of? es usual = some q.serverKey ∧ Setting.clientKey.of? es usual = some q.clientKey ∧
      Setting.queuePermissions.of? es usual = some q.permissions := by
  obtain ⟨server, client, permissions⟩ := q
  simp only [Setting.of?, Setting.group]
  obtain absent | unfit | ⟨g, there⟩ := section?_cases es "queue"
  · simp only [absent]
    obtain ⟨kind, pipe, ⟨server', client', permissions'⟩, data⟩ := usual
    constructor
    · rintro ⟨⟩
      exact ⟨rfl, rfl, rfl⟩
    · rintro ⟨⟨⟩, ⟨⟩, ⟨⟩⟩
      rfl
  · simp [unfit]
  · simp only [there, queueOf?, Option.bind_eq_bind, Option.bind_eq_some_iff, Option.pure_def]
    constructor
    · rintro ⟨_, hServer, _, hClient, _, hPermissions, ⟨⟩⟩
      exact ⟨hServer, hClient, hPermissions⟩
    · rintro ⟨hServer, hClient, hPermissions⟩
      exact ⟨server, hServer, client, hClient, permissions, hPermissions, rfl⟩

/-- A document is read as a whole exactly if each setting is, all others aside. -/
theorem overlay_eq_some_iff_of? : usual.overlay es = some s ↔ ∀ k : Setting, k.of? es usual = some (s.of k) := by
  rw [overlay_eq]
  constructor
  · intro read
    obtain ⟨kind, hKind, read⟩ := Option.bind_eq_some_iff.1 read
    obtain ⟨pipe, hPipe, read⟩ := Option.bind_eq_some_iff.1 read
    obtain ⟨queue, hQueue, read⟩ := Option.bind_eq_some_iff.1 read
    obtain ⟨data, hData, ⟨⟩⟩ := Option.bind_eq_some_iff.1 read
    obtain ⟨directory, retries, delay, permissions⟩ := section?_pipe_iff.1 hPipe
    obtain ⟨server, client, bits⟩ := section?_queue_iff.1 hQueue
    rintro (_ | _) <;> assumption
  · intro each
    have pipe := section?_pipe_iff.2 ⟨each .pipeDirectory, each .connectRetries, each .retryDelay, each .pipePermissions⟩
    have queue := section?_queue_iff.2 ⟨each .serverKey, each .clientKey, each .queuePermissions⟩
    refine Option.bind_eq_some_iff.2 ⟨s.kind, each .kind, ?_⟩
    refine Option.bind_eq_some_iff.2 ⟨s.pipe, pipe, ?_⟩
    refine Option.bind_eq_some_iff.2 ⟨s.queue, queue, ?_⟩
    exact Option.bind_eq_some_iff.2 ⟨s.dataDirectory, each .dataDirectory, rfl⟩

theorem overlay_eq_some_iff :
    usual.overlay es = some s ↔ (∀ k : Setting, k.Grouped es) ∧ s.Overlays es usual := by
  simp only [overlay_eq_some_iff_of?, Setting.of?_eq_some_iff, Overlays, forall_and]

theorem exists_overlay (grouped : ∀ k : Setting, k.Grouped es)
    (spelled : ∀ (k : Setting) v, k.given? es = some v → ∃ x, k.type.Spells x v) :
    ∃ s, usual.overlay es = some s := by
  have each (k : Setting) : ∃ x, k.Becomes (k.given? es) usual x := by
    unfold Setting.Becomes
    cases given : k.given? es with
    | none => exact ⟨usual.of k, rfl⟩
    | some v => exact spelled k v given
  choose f hf using each
  obtain ⟨s, hs⟩ := exists_of f
  refine ⟨s, overlay_eq_some_iff.2 ⟨grouped, fun k => ?_⟩⟩
  rw [hs]
  exact hf k

theorem overlay_eq_none {k : Setting} {v : Value} (given : k.given? es = some v) (bad : ∀ x, ¬ k.type.Spells x v) :
    usual.overlay es = none := by
  refine Option.eq_none_iff_forall_ne_some.2 fun s read => ?_
  have became := (overlay_eq_some_iff.1 read).2 k
  rw [given] at became
  exact bad (s.of k) became

theorem overlay_rearranged (h : es.Rearranged es') (named : es.Named) : usual.overlay es = usual.overlay es' := by
  refine Option.ext fun s => ?_
  simp only [overlay_eq_some_iff_of?, Setting.of?_rearranged h named]

theorem Overlays.unique {t : Settings} (hs : s.Overlays es usual) (ht : t.Overlays es usual) : s = t := by
  refine ext_of fun k => ?_
  have first := hs k
  have second := ht k
  cases given : k.given? es with
  | none =>
    rw [given] at first second
    exact first.trans second.symm
  | some v =>
    rw [given] at first second
    exact Option.some_inj.1 ((SettingType.read_eq_some_iff.2 first).symm.trans (SettingType.read_eq_some_iff.2 second))

end Settings

end DiscCatalog
