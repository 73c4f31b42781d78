import DiscCatalog.Proofs.Archive.Loading
import DiscCatalog.Proofs.Archive.Writes
import DiscCatalog.Proofs.Host.Directories

namespace DiscCatalog

namespace Archive

open Host

/-- The paths of the files in a directory are such as a host takes. -/
structure Reach (directory : String) : Prop where
  noNul : '\x00' ∉ directory.toList
  short : directory.utf8ByteSize + 26 ≤ maxPath

/-- The owners that there are: a process is known by a number of 32 bits. -/
def owners : Nat := Nat.pow 2 32

def IsTable (file : String) : Prop := file = catalogFile ∨ file = trackFile

/-- A directory in which files can be made and the only files that an archive may find are its own; no handle
but `held` has locked it. -/
structure Home (h : Host) (directory : String) (place : Location) (held : Option Nat) : Prop where
  sound : h.Sound
  way : ∃ links, h.enter directory = .ok (place, links)
  home : ∃ node, h.node? place = some node ∧ node.content = .directory ∧ node.permissions &&& 0o200 ≠ 0
  table : ∀ file, IsTable file → ∀ node, h.node? (place ++ [file]) = some node →
    (∃ bytes, node.content = .file bytes) ∧ allows node .read = true
  aside : ∀ file, IsTable file → ∀ owner, h.node? (place ++ [asideName file owner]) = none
  lock : ∀ node, h.node? (place ++ [lockFile]) = some node →
    (∃ bytes, node.content = .file bytes) ∧ allows node .write = true
  locks : ∀ i x, h.handle? i = some x → h.nodeOf? (place ++ [lockFile]) = some x.node → x.locked = true → held = some i

variable {h h' : Host} {directory file : String} {place : Location} {held : Option Nat} {owner links : Nat}

namespace IsTable

theorem plain (named : IsTable file) : PlainName file :=
  named.elim (· ▸ plainName_catalogFile) (· ▸ plainName_trackFile)

theorem ne_asideName (named : IsTable file) (other : String) (owner : Nat) : file ≠ asideName other owner := by
  obtain rfl | rfl := named <;> exact (asideName_ne (by decide)).symm

theorem ne_lockFile (named : IsTable file) : file ≠ lockFile := by
  obtain rfl | rfl := named <;> decide

theorem short (named : IsTable file) : file.utf8ByteSize ≤ maxName := by
  obtain rfl | rfl := named <;> decide

theorem utf8ByteSize_asideName_le (named : IsTable file) (owned : owner < owners) :
    (asideName file owner).utf8ByteSize ≤ 25 := by
  have digits : (toString owner).utf8ByteSize ≤ 10 := by
    change owner.repr.utf8ByteSize ≤ 10
    rw [Text.utf8ByteSize_repr]
    exact (Nat.length_repr_le_iff (by decide)).2 (Nat.lt_trans owned (by decide))
  have dot : ".".utf8ByteSize = 1 := rfl
  have tail : ".tmp".utf8ByteSize = 4 := rfl
  have name : file.utf8ByteSize ≤ 10 := by obtain rfl | rfl := named <;> decide
  simp only [asideName, String.utf8ByteSize_append]
  omega

end IsTable

namespace Home

theorem exists_file {q : Location} {access : Access} {content : Content}
    (files : ∀ node, h.node? q = some node → (∃ bytes, node.content = .file bytes) ∧ allows node access = true)
    (found : h.content? q = some content) : ∃ bytes, content = .file bytes := by
  obtain ⟨node, there, rfl⟩ := Option.map_eq_some_iff.1 found
  exact (files node there).1

theorem clear (home : Home h directory place held) (named : IsTable file) (owner : Nat) : Clear h place owner file := by
  refine ⟨fun target link => ?_, fun node found => ?_⟩
  · obtain ⟨bytes, same⟩ := exists_file (home.table file named) link
    cases same
  · rw [home.aside file named owner] at found
    cases found

theorem noDirectory (home : Home h directory place held) (named : IsTable file) :
    h.content? (place ++ [file]) ≠ some .directory := by
  intro directory
  obtain ⟨bytes, same⟩ := exists_file (home.table file named) directory
  cases same

/-- Changes in a home leave it one, if what they put under the names that matter is what may be there. -/
theorem changed {places : List Location} (home : Home h directory place held) (change : Changed places h h')
    (leaves : ∀ q ∈ places, h.Leaf q) (away : place ∉ places)
    (table : ∀ file, IsTable file → place ++ [file] ∈ places → ∀ node, h'.node? (place ++ [file]) = some node →
      (∃ bytes, node.content = .file bytes) ∧ allows node .read = true)
    (aside : ∀ file, IsTable file → ∀ owner, place ++ [asideName file owner] ∈ places →
      h'.node? (place ++ [asideName file owner]) = none)
    (lock : place ++ [lockFile] ∈ places → (∀ node, h'.node? (place ++ [lockFile]) = some node →
      (∃ bytes, node.content = .file bytes) ∧ allows node .write = true) ∧
      ∀ i x, h'.handle? i = some x → h'.nodeOf? (place ++ [lockFile]) = some x.node → x.locked = true → held = some i) :
    Home h' directory place held := by
  obtain ⟨links, entered⟩ := home.way
  refine ⟨change.sound, ⟨links, enter_retained (change.retains leaves) change.directory entered⟩, ?_, ?_, ?_, ?_, ?_⟩
  · rw [change.node? place away]
    exact home.home
  · intro file named
    by_cases touched : place ++ [file] ∈ places
    · exact table file named touched
    · rw [change.node? _ touched]
      exact home.table file named
  · intro file named owner
    by_cases touched : place ++ [asideName file owner] ∈ places
    · exact aside file named owner touched
    · rw [change.node? _ touched]
      exact home.aside file named owner
  · by_cases touched : place ++ [lockFile] ∈ places
    · exact (lock touched).1
    · rw [change.node? _ touched]
      exact home.lock
  · by_cases touched : place ++ [lockFile] ∈ places
    · exact (lock touched).2
    · intro i x found at? locked
      rw [change.handle? i] at found
      rw [change.nodeOf? _ touched] at at?
      exact home.locks i x found at? locked

/-- In its home an archive can write each of its tables. -/
theorem write (home : Home h directory place held) (reach : Reach directory) (owned : owner < owners)
    (named : IsTable file) (bytes : List UInt8) :
    ∃ h', writeTable directory owner file bytes h = (.ok (), h') ∧ Home h' directory place held
      ∧ Changed [place ++ [asideName file owner], place ++ [file]] h h'
      ∧ ∀ q ∈ [place ++ [asideName file owner], place ++ [file]], h.Leaf q := by
  obtain ⟨links, entered⟩ := home.way
  obtain ⟨node, there, content, writable⟩ := home.home
  have size := named.utf8ByteSize_asideName_le owned
  have walkable : Walkable (joinPath directory (asideName file owner)) := by
    refine walkable_joinPath (plainName_asideName named.plain owner) reach.noNul ?_
    have short := reach.short
    omega
  have free := home.sound.nodeOf?_eq_none (home.aside file named owner)
  have done := writeTable_done home.sound entered named.plain (home.clear named owner) walkable
    (Nat.le_trans size (by decide)) free there writable (home.noDirectory named) bytes
  have outcome := writeTable_outcome home.sound entered named.plain (home.clear named owner) bytes
  rcases wrote : writeTable directory owner file bytes h with ⟨result, h'⟩
  rw [wrote] at done outcome
  cases done
  cases outcome with
  | replaced h' permissions change leaves walkable short now readable gone =>
    have leaves' : ∀ q ∈ [place ++ [asideName file owner], place ++ [file]], h.Leaf q := by simpa using leaves
    refine ⟨h', rfl, home.changed change leaves' (by simp) ?_ ?_ ?_, change, leaves'⟩
    · intro other also touched node' found
      have same : other = file := by simpa [also.ne_asideName file owner] using touched
      subst same
      rw [now] at found
      cases found
      exact ⟨⟨bytes, rfl⟩, readable⟩
    · intro other also owner' touched
      have same : asideName other owner' = asideName file owner := by
        simpa [(named.ne_asideName other owner').symm] using touched
      rw [same, gone]
    · intro touched
      have apart : asideName file owner ≠ lockFile := asideName_ne (by decide)
      simp [named.ne_lockFile.symm, apart.symm] at touched

theorem clear_of_enter (home : Home h directory place held) (named : IsTable file) (owner : Nat) (place' : Location)
    (links' : Nat) (entered : h.enter directory = .ok (place', links')) : Clear h place' owner file := by
  obtain ⟨links, way⟩ := home.way
  rw [way] at entered
  cases entered
  exact home.clear named owner

end Home

structure Steady (place : Location) (h h' : Host) : Prop where
  handles : ∀ i, h'.handle? i = h.handle? i
  lock : h'.nodeOf? (place ++ [lockFile]) = h.nodeOf? (place ++ [lockFile])

theorem Steady.trans {h'' : Host} (first : Steady place h h') (second : Steady place h' h'') : Steady place h h'' :=
  ⟨fun i => (second.handles i).trans (first.handles i), second.lock.trans first.lock⟩

theorem steady_of_changed (named : IsTable file)
    (change : Changed [place ++ [asideName file owner], place ++ [file]] h h') : Steady place h h' := by
  refine ⟨change.handle?, change.nodeOf? _ ?_⟩
  have aside : asideName file owner ≠ lockFile := asideName_ne (by decide)
  simp [named.ne_lockFile.symm, aside.symm]

namespace Home

theorem write_reads {ρ : Type} (σ : Type) [TableFile.RowForm ρ] [TableFile.RowForm σ] (other : String)
    (home : Home h directory place held) (reach : Reach directory) (owned : owner < owners) (named : IsTable file)
    (also : IsTable other) (apart : other ≠ file) {rows : List ρ} (few : rows.length < TableFile.limit)
    (back : ∀ row ∈ rows, TableFile.ReadsBack row) :
    ∃ h', writeTable directory owner file (TableFile.encode rows) h = (.ok (), h') ∧ Home h' directory place held
      ∧ Steady place h h' ∧ (readTable directory file h' : Except StoreFault (List ρ)) = .ok rows
      ∧ (readTable directory other h' : Except StoreFault (List σ)) = readTable directory other h := by
  obtain ⟨h', wrote, home', change, leaves⟩ := home.write reach owned named (TableFile.encode rows)
  obtain ⟨links, entered⟩ := home.way
  refine ⟨h', wrote, home', steady_of_changed named change, ?_, ?_⟩
  · obtain ⟨-, -, -, -, -, -, -, reads⟩ :=
      readTable_of_written ρ home.sound (home.clear_of_enter named owner) named.plain wrote
    rw [reads, TableFile.decode_encode few back]
    rfl
  · refine readTable_changed home.sound change leaves entered also.plain also.short (home.clear also owner).table ?_
    simp [apart, also.ne_asideName file owner]

variable {s t : Store} {c : Change}

theorem writeCatalogs_reads (home : Home h directory place held) (reach : Reach directory) (owned : owner < owners)
    (sized : s.Sized) (few : s.catalogs.size < TableFile.limit) :
    ∃ h', writeCatalogs directory owner s h = (.ok (), h') ∧ Home h' directory place held ∧ Steady place h h'
      ∧ readBoth directory h' = (.ok s.catalogs.rows, (readBoth directory h).2) := by
  obtain ⟨h', wrote, home', steady, reads, others⟩ := home.write_reads TrackEntry trackFile reach owned
    (.inl rfl) (.inr rfl) (by decide) few fun row hr => (sized.catalogs row hr).readsBack
  exact ⟨h', wrote, home', steady, by rw [readBoth, reads, others, readBoth]⟩

theorem writeTracks_reads (home : Home h directory place held) (reach : Reach directory) (owned : owner < owners)
    (sized : s.Sized) (few : s.tracks.size < TableFile.limit) :
    ∃ h', writeTracks directory owner s h = (.ok (), h') ∧ Home h' directory place held ∧ Steady place h h'
      ∧ readBoth directory h' = ((readBoth directory h).1, .ok s.tracks.rows) := by
  obtain ⟨h', wrote, home', steady, reads, others⟩ := home.write_reads CatalogEntry catalogFile reach owned
    (.inr rfl) (.inl rfl) (by decide) few fun row hr => (sized.tracks row hr).readsBack
  exact ⟨h', wrote, home', steady, by rw [readBoth, reads, others, readBoth]⟩

theorem writeBoth_reads (home : Home h directory place held) (reach : Reach directory) (owned : owner < owners)
    (sized : s.Sized) (few : s.catalogs.size < TableFile.limit) (fewTracks : s.tracks.size < TableFile.limit) :
    ∃ h', writeBoth directory owner s h = (.ok (), h') ∧ Home h' directory place held ∧ Steady place h h'
      ∧ readBoth directory h' = (.ok s.catalogs.rows, .ok s.tracks.rows) := by
  obtain ⟨h₁, wrote, home₁, steady, reads⟩ := home.writeCatalogs_reads reach owned sized few
  obtain ⟨h₂, next, home₂, steady', reads'⟩ := home₁.writeTracks_reads reach owned sized fewTracks
  refine ⟨h₂, by rw [writeBoth, wrote]; exact next, home₂, steady.trans steady', ?_⟩
  rw [reads', reads]

/-- The writes of a change put its tables into the files. -/
theorem writeFor_loads (home : Home h directory place held) (reach : Reach directory) (owned : owner < owners)
    (holds : load directory h = .ok s.atStart) (applied : s.apply c = .ok t) (keys : t.KeysHold) (sized : t.Sized)
    (few : t.catalogs.size < TableFile.limit ∧ t.tracks.size < TableFile.limit) :
    ∃ h', writeFor c directory owner t h = (.ok (), h') ∧ Home h' directory place held ∧ Steady place h h'
      ∧ load directory h' = .ok t.atStart := by
  obtain ⟨catalogs, tracks, reads, catalogKeys, trackKeys, same⟩ := load_eq_ok_iff.1 holds
  have ofCatalogs : s.catalogs = .ofRows catalogs := congrArg Store.catalogs same
  have ofTracks : s.tracks = .ofRows tracks := congrArg Store.tracks same
  -- Which file is not written is told by the table that the change keeps.
  have catalogsWritten (kept : t.tracks = s.tracks) :
      ∃ h', writeCatalogs directory owner t h = (.ok (), h') ∧ Home h' directory place held ∧ Steady place h h'
        ∧ load directory h' = .ok t.atStart := by
    obtain ⟨h', wrote, home', steady, after⟩ := home.writeCatalogs_reads reach owned sized few.1
    refine ⟨h', wrote, home', steady, load_eq_ok_iff.2 ⟨_, tracks, by rw [after, reads], keys.catalogs, trackKeys, ?_⟩⟩
    rw [Table.ofRows_rows, ← ofTracks, ← kept, Store.atStart]
  have tracksWritten (kept : t.catalogs = s.catalogs) :
      ∃ h', writeTracks directory owner t h = (.ok (), h') ∧ Home h' directory place held ∧ Steady place h h'
        ∧ load directory h' = .ok t.atStart := by
    obtain ⟨h', wrote, home', steady, after⟩ := home.writeTracks_reads reach owned sized few.2
    refine ⟨h', wrote, home', steady, load_eq_ok_iff.2 ⟨catalogs, _, by rw [after, reads], catalogKeys, keys.tracks, ?_⟩⟩
    rw [Table.ofRows_rows, ← ofCatalogs, ← kept, Store.atStart]
  obtain ⟨e, rfl, -, rfl⟩ | ⟨e, rfl, -, rfl⟩ | ⟨key, rfl, -, rfl⟩ | ⟨key, number, rfl, -, rfl⟩ | ⟨rfl, rfl⟩ :=
    Store.apply_eq_ok applied
  · exact catalogsWritten rfl
  · exact tracksWritten rfl
  · exact catalogsWritten rfl
  · exact tracksWritten rfl
  · obtain ⟨h', wrote, home', steady, after⟩ := home.writeBoth_reads reach owned sized few.1 few.2
    exact ⟨h', wrote, home', steady, load_eq_ok_iff.2 ⟨[], [], after, by simp, by simp, rfl⟩⟩

theorem walk_eq (home : Home h directory place held) (reach : Reach directory) {name : String} (plain : PlainName name)
    (short : name.utf8ByteSize ≤ 25) (noLink : ∀ target, h.content? (place ++ [name]) ≠ some (.link target)) :
    h.walk true (joinPath directory name) = .ok (place ++ [name]) := by
  obtain ⟨links, entered⟩ := home.way
  have room := reach.short
  exact walk_of_enter entered plain (walkable_joinPath plain reach.noNul (by omega))
    (Nat.le_trans short (by decide)) true fun _ => noLink

theorem readTable_eq (home : Home h directory place held) (reach : Reach directory) {ρ : Type} [TableFile.RowForm ρ]
    (named : IsTable file) : (readTable directory file h : Except StoreFault (List ρ)) = rowsAt (h.node? (place ++ [file])) :=
  Archive.readTable_eq home.sound (home.walk_eq reach named.plain (by obtain rfl | rfl := named <;> decide)
    (home.clear named 0).table)

/-- A host that has the same files is a home too, and reads the same, whatever handles are held on it. -/
theorem rehandled {held' : Option Nat} (home : Home h directory place held) (sound : h'.Sound)
    (names : h'.names = h.names) (nodes : h'.nodes = h.nodes) (here : h'.directory = h.directory)
    (locks : ∀ i x, h'.handle? i = some x → h.nodeOf? (place ++ [lockFile]) = some x.node → x.locked = true →
      held' = some i) : Home h' directory place held' := by
  have at? (q : Location) : h'.nodeOf? q = h.nodeOf? q := by rw [nodeOf?, names, nodeOf?]
  have node? (q : Location) : h'.node? q = h.node? q := by rw [Host.node?, at?, nodes, Host.node?]
  have retains : h.Retains h' := fun q content _ found => by rw [content?, node?, ← found, content?]
  obtain ⟨links, entered⟩ := home.way
  refine ⟨sound, ⟨links, enter_retained retains here entered⟩, ?_, ?_, ?_, ?_, ?_⟩
  · simpa only [node?] using home.home
  · simpa only [node?] using home.table
  · simpa only [node?] using home.aside
  · simpa only [node?] using home.lock
  · simpa only [at?] using locks

theorem readBoth_congr {held' : Option Nat} (home : Home h directory place held) (home' : Home h' directory place held')
    (reach : Reach directory) (same : ∀ file, IsTable file → h'.node? (place ++ [file]) = h.node? (place ++ [file])) :
    readBoth directory h' = readBoth directory h := by
  rw [readBoth, readBoth, home.readTable_eq reach (.inl rfl), home.readTable_eq reach (.inr rfl),
    home'.readTable_eq reach (.inl rfl), home'.readTable_eq reach (.inr rfl), same _ (.inl rfl), same _ (.inr rfl)]

theorem makeDirectories (home : Home h directory place held) (reach : Reach directory) :
    h.makeDirectories directory = (.ok (), h) := by
  obtain ⟨links, entered⟩ := home.way
  obtain ⟨node, there, content, -⟩ := home.home
  refine makeDirectories_existing ?_ entered (by rw [content?, there, Option.map_some, content])
  by_cases none : directory = ""
  · exact .inl none
  · have room := reach.short
    exact .inr ⟨none, reach.noNul, by omega⟩

theorem create_lockFile (home : Home h directory place held) (reach : Reach directory)
    (free : h.nodeOf? (place ++ [lockFile]) = none) :
    Home (h.create (place ++ [lockFile]) ⟨.file [], grant 0o666⟩) directory place held
      ∧ readBoth directory (h.create (place ++ [lockFile]) ⟨.file [], grant 0o666⟩) = readBoth directory h := by
  have change : Changed [place ++ [lockFile]] h (h.create (place ++ [lockFile]) ⟨.file [], grant 0o666⟩) :=
    changed_create home.sound free
  have made := nodeOf?_create_self free ⟨.file [], grant 0o666⟩
  have new := node?_create_self home.sound free ⟨.file [], grant 0o666⟩
  have aside (name : String) (owner : Nat) : asideName name owner ≠ lockFile := asideName_ne (by decide)
  have home₁ : Home (h.create (place ++ [lockFile]) ⟨.file [], grant 0o666⟩) directory place held := by
    refine home.changed change (by simp [Leaf, content?, node?, free]) (by simp) ?_ ?_ ?_
    · exact fun file named touched => absurd (by simpa using touched) named.ne_lockFile
    · exact fun file named owner touched => absurd (by simpa using touched) (aside file owner)
    · refine fun _ => ⟨fun node' found => ?_, fun i x found own => ?_⟩
      · rw [new] at found
        cases found
        exact ⟨⟨[], rfl⟩, by decide⟩
      · -- The node is new, so that no handle is one of it.
        rw [change.handle? i] at found
        rw [made] at own
        have old := home.sound.held found
        rw [← Option.some.inj own] at old
        exact absurd old (Nat.lt_irrefl _)
  refine ⟨home₁, home.readBoth_congr home₁ reach fun file named => change.node? _ ?_⟩
  simpa using named.ne_lockFile

theorem createFile_lockFile (home : Home h directory place held) (reach : Reach directory) :
    ∃ h₁ x, h.createFile (joinPath directory lockFile) false = (.ok h₁.handles.length, h₁.adding (some x))
      ∧ x.locked = false ∧ h₁.nodeOf? (place ++ [lockFile]) = some x.node ∧ Home h₁ directory place held
      ∧ readBoth directory h₁ = readBoth directory h
      ∧ (∀ i, h₁.handle? i = h.handle? i) ∧ (h.nodeOf? (place ++ [lockFile]) = none ∨ h₁ = h) := by
  have noLink : ∀ target, h.content? (place ++ [lockFile]) ≠ some (.link target) := by
    intro target link
    obtain ⟨bytes, same⟩ := exists_file home.lock link
    cases same
  have walked := home.walk_eq reach plainName_lockFile (by decide) noLink
  cases at? : h.nodeOf? (place ++ [lockFile]) with
  | some number =>
    obtain ⟨node, there, found⟩ := home.sound.exists_node at?
    obtain ⟨⟨bytes, file⟩, writable⟩ := home.lock node found
    have opened := openPath_eq walked at? there file .write
    rw [if_pos writable] at opened
    exact ⟨h, { node := number, access := .write }, createFile_kept walked at? opened, rfl, at?, home, rfl, fun _ => rfl,
      .inr rfl⟩
  | none =>
    obtain ⟨node, there, content, writable⟩ := home.home
    have mayChange : h.mayChange (place ++ [lockFile]) = true := by
      rw [mayChange_append, there, Option.any_some, decide_eq_true writable]
    obtain ⟨home₁, same⟩ := home.create_lockFile reach at?
    exact ⟨_, { node := h.nodes.length, access := .write }, createFile_free walked at? mayChange false, rfl,
      nodeOf?_create_self at? _, home₁, same, fun _ => rfl, .inl rfl⟩

theorem closed {lock : Nat} {x : Handle} {held' : Option Nat} (home : Home h directory place held) (reach : Reach directory)
    (taken : h.handle? lock = some x) (own : h.nodeOf? (place ++ [lockFile]) = some x.node)
    (others : ∀ i, i ≠ lock → held = some i → held' = some i) :
    h.close lock = h.removing lock ∧ Home (h.close lock) directory place held'
      ∧ readBoth directory (h.close lock) = readBoth directory h := by
  obtain ⟨node, there, found⟩ := home.sound.exists_node own
  obtain ⟨⟨bytes, file⟩, -⟩ := home.lock node found
  have content : h.contentOf? x.node = some (.file bytes) := by rw [contentOf?, there, Option.map_some, file]
  have same : h.close lock = h.removing lock := close_file taken content
  rw [same]
  have home' : Home (h.removing lock) directory place held' := by
    refine home.rehandled ⟨home.sound.apart, home.sound.there, ?_⟩ rfl rfl rfl ?_
    · exact fun found => home.sound.held (handle?_of_removing found).1
    · intro i y found at? locked
      obtain ⟨old, other⟩ := handle?_of_removing found
      exact others i other (home.locks i y old at? locked)
  exact ⟨rfl, home', home.readBoth_congr home' reach fun file named => rfl⟩

end Home

end Archive

end DiscCatalog
