import DiscCatalog.Proofs.Host.Files

namespace DiscCatalog

namespace Host

variable {h h' h'' : Host} {path : String} {place : Location} {number : Nat} {node : Node}

structure Changed (places : List Location) (h h' : Host) : Prop where
  nodeOf? : ∀ q ∉ places, h'.nodeOf? q = h.nodeOf? q
  node? : ∀ q ∉ places, h'.node? q = h.node? q
  directory : h'.directory = h.directory
  handles : ∃ n, h'.handles = h.handles ++ List.replicate n none
  sound : h'.Sound

namespace Changed

variable {places others : List Location}

theorem refl (sound : h.Sound) : Changed places h h :=
  ⟨fun _ _ => rfl, fun _ _ => rfl, rfl, ⟨0, by simp⟩, sound⟩

theorem trans (first : Changed places h h') (second : Changed places h' h'') : Changed places h h'' := by
  obtain ⟨m, gaps⟩ := first.handles
  obtain ⟨n, more⟩ := second.handles
  refine ⟨fun q hq => (second.nodeOf? q hq).trans (first.nodeOf? q hq),
    fun q hq => (second.node? q hq).trans (first.node? q hq), second.directory.trans first.directory,
    ⟨m + n, ?_⟩, second.sound⟩
  rw [more, gaps, List.append_assoc, List.replicate_append_replicate]

theorem mono (change : Changed places h h') (sub : places ⊆ others) : Changed others h h' :=
  ⟨fun q hq => change.nodeOf? q fun hp => hq (sub hp), fun q hq => change.node? q fun hp => hq (sub hp),
    change.directory, change.handles, change.sound⟩

theorem content? (change : Changed places h h') {q : Location} (hq : q ∉ places) : h'.content? q = h.content? q := by
  rw [Host.content?, Host.content?, change.node? q hq]

theorem handle? (change : Changed places h h') (i : Nat) : h'.handle? i = h.handle? i := by
  obtain ⟨n, gaps⟩ := change.handles
  rw [Host.handle?, Host.handle?, gaps]
  by_cases old : i < h.handles.length
  · rw [List.getElem?_append_left old]
  · rw [List.getElem?_append_right (Nat.not_lt.1 old), List.getElem?_eq_none (Nat.not_lt.1 old), List.getElem?_replicate]
    split <;> rfl

end Changed

theorem handle?_adding_of_some {x : Option Handle} {i : Nat} {z : Handle}
    (found : (h.adding x).handle? i = some z) : h.handle? i = some z ∨ i = h.handles.length ∧ x = some z := by
  by_cases old : i < h.handles.length
  · refine .inl ?_
    rw [handle?, Host.adding, List.getElem?_append_left old] at found
    exact found
  · rw [handle?, Host.adding, List.getElem?_append_right (Nat.not_lt.1 old)] at found
    cases beyond : i - h.handles.length with
    | zero =>
      rw [beyond] at found
      exact .inr ⟨by omega, found⟩
    | succ n =>
      rw [beyond] at found
      cases found

theorem Sound.adding (sound : h.Sound) {x : Option Handle} (held : ∀ y ∈ x, y.node < h.nodes.length) :
    (h.adding x).Sound := by
  refine ⟨sound.apart, sound.there, fun {i z} found => ?_⟩
  obtain old | ⟨-, rfl⟩ := handle?_adding_of_some found
  · exact sound.held old
  · exact held z rfl

theorem changed_adding (sound : h.Sound) {places : List Location} : Changed places h (h.adding none) :=
  ⟨fun _ _ => rfl, fun _ _ => rfl, rfl, ⟨1, rfl⟩, sound.adding (by simp)⟩

theorem changed_create (sound : h.Sound) (free : h.nodeOf? place = none) : Changed [place] h (h.create place node) where
  nodeOf? q hq := by rw [nodeOf?_create free, if_neg (List.ne_of_not_mem_cons hq)]
  node? q hq := by rw [node?_create sound free, if_neg (List.ne_of_not_mem_cons hq)]
  directory := rfl
  handles := ⟨0, by simp [create]⟩
  sound := sound.create free

theorem changed_setContent (sound : h.Sound) (at? : h.nodeOf? place = some number) (content : Content) :
    Changed [place] h (h.setContent number content) where
  nodeOf? _ _ := rfl
  node? q hq := by rw [node?_setContent sound at?, if_neg (List.ne_of_not_mem_cons hq)]
  directory := rfl
  handles := ⟨0, by simp [setContent]⟩
  sound := sound.setContent number content

theorem changed_forget (sound : h.Sound) : Changed [place] h (h.forget place) where
  nodeOf? q hq := by rw [nodeOf?_forget, if_neg (List.ne_of_not_mem_cons hq)]
  node? q hq := by rw [node?_forget, if_neg (List.ne_of_not_mem_cons hq)]
  directory := rfl
  handles := ⟨0, by simp [forget]⟩
  sound := sound.forget place

def Plain (h : Host) (place : Location) : Prop :=
  ∀ content, h.content? place = some content → content = .directory ∨ ∃ bytes, content = .file bytes

theorem Plain.noLink (plain : h.Plain place) (target : String) : h.content? place ≠ some (.link target) := by
  intro link
  obtain same | ⟨bytes, same⟩ := plain _ link <;> cases same

def bits (h : Host) (place : Location) : Nat := ((h.node? place).map (·.permissions)).getD (grant 0o666)

theorem writeFile_new (sound : h.Sound) (walked : h.walk true path = .ok place) (free : h.nodeOf? place = none)
    (mayChange : h.mayChange place = true) (bytes : List UInt8) :
    ∃ h', h.writeFile path bytes = (.ok (), h') ∧ Changed [place] h h'
      ∧ h'.node? place = some ⟨.file bytes, grant 0o666⟩ := by
  refine ⟨_, writeFile_free walked free mayChange bytes,
    (changed_create sound free).trans (changed_adding (sound.create free)), ?_⟩
  exact node?_create_self sound free _

/-- Writing a file leads to a file with these bytes, or nothing was changed. -/
theorem writeFile_plain (sound : h.Sound) (walked : h.walk true path = .ok place) (plain : h.Plain place)
    (bytes : List UInt8) :
    (∃ e, h.writeFile path bytes = (.error e, h)) ∨
      ∃ h', h.writeFile path bytes = (.ok (), h') ∧ Changed [place] h h'
        ∧ h'.node? place = some ⟨.file bytes, h.bits place⟩ ∧ h.content? place ≠ some .directory := by
  cases at? : h.nodeOf? place with
  | none =>
    have free : h.node? place = none := by rw [node?, at?]; rfl
    by_cases mayChange : h.mayChange place = true
    · obtain ⟨h', wrote, change, made⟩ := writeFile_new sound walked at? mayChange bytes
      refine .inr ⟨h', wrote, change, ?_, ?_⟩
      · rw [bits, free]
        exact made
      · rw [content?, free]
        exact fun h => by cases h
    · have barred : h.mayChange place = false := by simpa using mayChange
      exact .inl ⟨.accessDenied, writeFile_refused (createFile_barred walked at? barred) bytes⟩
  | some number =>
    obtain ⟨node, there, found⟩ := sound.exists_node at?
    have content : h.content? place = some node.content := by rw [content?, found]; rfl
    obtain directory | ⟨old, file⟩ := plain _ content
    · have refused := openPath_directory walked at? there directory
      exact .inl ⟨.isDirectory, writeFile_refused (createFile_refused walked at? refused) bytes⟩
    · by_cases allowed : allows node .write = true
      · refine .inr ⟨_, writeFile_taken walked at? there file allowed bytes, ?_, ?_, ?_⟩
        · exact (changed_setContent sound at? _).trans (changed_adding (sound.setContent number _))
        · have written := node?_setContent (q := place) sound at? (.file bytes)
          rw [if_pos rfl, found] at written
          rw [bits, found]
          exact written
        · rw [content, file]
          exact fun h => by cases h
      · have refused := openPath_eq walked at? there file .write
        rw [if_neg allowed] at refused
        exact .inl ⟨.accessDenied, writeFile_refused (createFile_refused walked at? refused) bytes⟩

def renamed (h : Host) (source target : Location) (number : Nat) : Host :=
  { (h.forget source).forget target with names := ((h.forget source).forget target).names ++ [(target, number)] }

theorem nodeOf?_renamed {source target q : Location} :
    (h.renamed source target number).nodeOf? q =
      if q = target then some number else if q = source then none else h.nodeOf? q := by
  have bare : ((h.forget source).forget target).names.lookup q =
      if q = target then none else if q = source then none else h.nodeOf? q := by
    change ((h.forget source).forget target).nodeOf? q = _
    rw [nodeOf?_forget, nodeOf?_forget]
  rw [nodeOf?, renamed, List.lookup_append, bare]
  by_cases same : q = target
  · simp [same]
  · have other : (q == target) = false := by simpa using same
    rw [if_neg same, if_neg same, List.lookup_cons, other, List.lookup_nil, Option.or_none]

theorem node?_renamed {source target q : Location} :
    (h.renamed source target number).node? q =
      if q = target then h.nodes[number]? else if q = source then none else h.node? q := by
  rw [node?, nodeOf?_renamed]
  split
  · rfl
  · split <;> rfl

theorem changed_renamed {source target : Location} (sound : h.Sound) (at? : h.nodeOf? source = some number) :
    Changed [source, target] h (h.renamed source target number) where
  nodeOf? q hq := by
    simp only [List.mem_cons, List.not_mem_nil, or_false, not_or] at hq
    rw [nodeOf?_renamed, if_neg hq.2, if_neg hq.1]
  node? q hq := by
    simp only [List.mem_cons, List.not_mem_nil, or_false, not_or] at hq
    rw [node?_renamed, if_neg hq.2, if_neg hq.1]
  directory := rfl
  handles := ⟨0, by simp [renamed, forget]⟩
  sound := by
    refine ⟨fun {p q n} hp hq => ?_, fun {p n} hp => ?_, sound.held⟩
    · rw [nodeOf?_renamed] at hp hq
      split at hp <;> split at hq
      · simp [*]
      · cases hp
        split at hq
        · cases hq
        · next away => exact absurd (sound.apart hq at?) away
      · cases hq
        split at hp
        · cases hp
        · next away => exact absurd (sound.apart hp at?) away
      · split at hp <;> split at hq <;> first | cases hp | cases hq | exact sound.apart hp hq
    · rw [nodeOf?_renamed] at hp
      split at hp
      · cases hp; exact sound.there at?
      · split at hp
        · cases hp
        · exact sound.there hp

theorem rename_eq {old new : String} {source target : Location} (walked : h.walk false old = .ok source)
    (at? : h.nodeOf? source = some number) (there : h.nodes[number]? = some node)
    (onto : h.walk false new = .ok target) (apart : source ≠ target) :
    h.rename old new =
      if h.content? target = some .directory then (.error .isDirectory, h)
      else if h.mayChange source ∧ h.mayChange target then (.ok (), h.renamed source target number)
      else (.error .accessDenied, h) := by
  unfold rename
  simp only [find_of_walk walked at? there, onto, if_neg apart]
  rfl

theorem rename_file {old new : String} {source target : Location} (sound : h.Sound)
    (walked : h.walk false old = .ok source) (found : h.node? source = some node)
    (onto : h.walk false new = .ok target) (apart : source ≠ target) :
    (∃ e, h.rename old new = (.error e, h)) ∨
      ∃ h', h.rename old new = (.ok (), h') ∧ Changed [source, target] h h'
        ∧ h'.node? target = some node ∧ h'.node? source = none ∧ h.content? target ≠ some .directory := by
  obtain ⟨number, at?, there⟩ := nodeOf?_of_node? found
  rw [rename_eq walked at? there onto apart]
  by_cases directory : h.content? target = some .directory
  · exact .inl ⟨_, if_pos directory⟩
  · rw [if_neg directory]
    by_cases may : h.mayChange source ∧ h.mayChange target
    · refine .inr ⟨_, if_pos may, changed_renamed sound at?, ?_, ?_, directory⟩
      · rw [node?_renamed, if_pos rfl, there]
      · rw [node?_renamed, if_neg apart, if_pos rfl]
    · exact .inl ⟨_, if_neg may⟩

theorem unlink_file (sound : h.Sound) (walked : h.walk false path = .ok place) :
    Changed [place] h (h.unlink path).2 ∧
      ((h.unlink path).2.node? place = none ∨ (h.unlink path).2.node? place = h.node? place) := by
  unfold unlink
  cases at? : h.nodeOf? place with
  | none =>
    rw [find_of_walk_none walked at?]
    exact ⟨.refl sound, .inr rfl⟩
  | some number =>
    obtain ⟨node, there, found⟩ := sound.exists_node at?
    rw [find_of_walk walked at? there]
    dsimp only
    split
    · exact ⟨.refl sound, .inr rfl⟩
    · split
      · exact ⟨.refl sound, .inr rfl⟩
      · exact ⟨changed_forget sound, .inl (by rw [node?_forget, if_pos rfl])⟩

end Host

end DiscCatalog
